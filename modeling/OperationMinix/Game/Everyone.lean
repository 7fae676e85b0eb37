import OperationMinix.Controls.Keyboard
import OperationMinix.Game.Bodies
import OperationMinix.Player.Vitals

/-!
# All players over whole runs

The enemies of a level are created when it is loaded and are gone when it is freed; in between
they are reached by their ticks, by the decisions for the bots and by the packets, and nothing
else.  A level that is left without being freed leaves its enemies in the array, where the next
one finds them.  The local player is created anew by every level.

So what every enemy has when it is created, and ticks and controls keep, holds of all enemies at
any time; and what the local player has when it is created, and ticks, controls and the choice of
a gun keep, holds of it while a game is on (`everyone_always`).  The game only releases keys; that
they are pressed is left to the one who uses the rule.

## Main definitions

* `PlayerRule` — what players have when they are created, and the life of the players keeps.
* `LookRule` — what a tick keeps that depends on the keys or on the animations alone.
* `Animated` — the animations of an enemy are in order.

## Main results

* `everyone_always` — **what the life of the players keeps holds of everyone, in every run.**
* `fit_rule` — vitals, guns and animations are kept.
-/

namespace OperationMinix

open Runs

set_option linter.unusedSectionVars false

section Model

variable {K : Type*} [Field K] [LinearOrder K] [FloorRing K] {c : Setting K}

/-! ### The players and their roles -/

/-- One thing holds of the local player, and one of all enemies. -/
structure Everyone (P E : PlayerInfo K → Prop) (w : World K) : Prop where
  player : P w.player
  enemies : ∀ p ∈ w.enemies, E p

/-- What is to hold of the player at a place. -/
def Role (P E : PlayerInfo K → Prop) : PlayerRef → PlayerInfo K → Prop
  | .player => P
  | .enemy _ => E

variable {P E : PlayerInfo K → Prop}

namespace Everyone

variable {w v : World K}

theorem congr (h : Everyone P E w) (hplayer : v.player = w.player)
    (henemies : v.enemies = w.enemies) : Everyone P E v :=
  ⟨by rw [hplayer]; exact h.player, by rw [henemies]; exact h.enemies⟩

/-- A change to one player. -/
theorem modify (h : Everyone P E w) (r : PlayerRef) {f : PlayerInfo K → PlayerInfo K}
    (hf : Role P E r (w.get r) → Role P E r (f (w.get r))) : Everyone P E (w.modify r f) := by
  cases r with
  | player => exact ⟨hf h.player, h.enemies⟩
  | enemy i =>
    refine ⟨h.player, fun p hp => ?_⟩
    obtain ⟨j, hj⟩ := List.mem_iff_getElem?.mp hp
    have hj' : (w.enemies.modify i f)[j]? = some p := hj
    rw [List.getElem?_modify] at hj'
    obtain ⟨q, hq, hfq⟩ := Option.map_eq_some_iff.mp hj'
    have hmem := h.enemies q (List.mem_of_getElem? hq)
    by_cases hij : i = j
    · have hget : w.get (.enemy i) = q := by simp [World.get, hij, hq]
      rw [if_pos hij] at hfq
      rw [← hfq, ← hget]
      exact hf (by rw [hget]; exact hmem)
    · rw [if_neg hij] at hfq
      rw [← hfq]
      exact hmem

end Everyone

/-- What the levels give the local player: a hundred points of health and armour at most, and the
three guns that can be chosen. -/
structure PlayerSetup.Issued (a : PlayerSetup K) : Prop where
  inRange : a.InRange
  type : a.type = .player
  limits : a.maxHealth = 100 ∧ a.maxArmor = 100
  guns : ∃ ammo packets, a.guns =
    [createGunInstance 0 0 0, createGunInstance 1 ammo packets, createGunInstance 2 0 0]

variable (c) in
/-- What every player has when a level creates it, and the life of the players keeps: one thing
for the local player, and one for the enemies. -/
structure PlayerRule (P E : PlayerInfo K → Prop) : Prop where
  drive : ∀ (p : PlayerInfo K) movm direction, E p → E { p with movm, direction }
  /-- The keys of the local player are only released. -/
  control : ∀ (p : PlayerInfo K) movm, P p → movm.kbdState.Below p.movm.kbdState →
    P { p with movm }
  choose : ∀ p i, i < 3 → P p → P (switchGun i p)
  tick : ∀ w r, Everyone P E w → Everyone P E (playerIntIh c.toEnv r w)
  player : ∀ a : PlayerSetup K, a.Issued → P (newPlayer c.libm c.fov a)
  enemy : ∀ a : PlayerSetup K, a.InRange → a.type ≠ .player → E (newPlayer c.libm c.fov a)

namespace PlayerRule

variable (hP : PlayerRule c P E) {w : World K}

include hP

/-! ### The stages of a tick -/

theorem handleEnemies (h : Everyone P E w) (bots : ℕ → Option (BotMove K)) :
    Everyone P E (handleEnemies bots w) := by
  refine ⟨h.player, fun q hq => ?_⟩
  obtain ⟨i, hi, rfl⟩ := List.mem_mapIdx.mp hq
  have hp := h.enemies _ (List.getElem_mem hi)
  split
  · unfold handleEnemy
    split
    · exact hP.drive _ _ _ hp
    · exact hP.drive _ _ _ hp
  · exact hp

theorem botIntIh : ∀ (n i : ℕ) (w : World K), Everyone P E w →
    Everyone P E (botIntIh c.toEnv n i w) := by
  intro n
  induction n with
  | zero => intro i w h; exact h
  | succ n ih =>
    intro i w h
    refine ih (i + 1) _ ?_
    split
    · exact hP.tick w _ h
    · exact h

/-- **The ticks of all players.** -/
theorem simulate (h : Everyone P E w) (t : Tick K) : Everyone P E (simulate c t w) := by
  have hplayer := hP.tick _ .player (hP.handleEnemies h t.bots)
  have hbots : ∀ v, Everyone P E v →
      Everyone P E (if v.state = .game then OperationMinix.botIntIh c.toEnv v.enemies.length 0 v
        else v) := by
    intro v hv
    split
    · exact hP.botIntIh _ _ _ hv
    · exact hv
  exact (hbots _ hplayer).congr rfl rfl

/-- What has arrived. -/
theorem receive (n : Net) (h : Everyone P E w) :
    Everyone P E (uartReceiveData (driveEnemy c) n w).2.2 :=
  uartReceiveData_replica (driveEnemy c) (P := Everyone P E)
    (fun _ _ hv => hP.tick _ _ (hv.modify (.enemy 0) fun hp => hP.drive _ _ _ hp)) n h

/-! ### Loading a level -/

/-- The local player, beside the enemies that a level finds. -/
theorem initPlayer_player (h : ∀ p ∈ w.enemies, E p) {a : PlayerSetup K} (ha : a.Issued) :
    Everyone P E (initPlayer c.libm c.fov a w) := by
  unfold initPlayer
  rw [if_pos ha.type]
  exact ⟨hP.player a ha, h⟩

/-- One more enemy. -/
theorem initPlayer_enemy (h : Everyone P E w) {a : PlayerSetup K} (ha : a.InRange)
    (htype : a.type ≠ .player) : Everyone P E (initPlayer c.libm c.fov a w) := by
  unfold initPlayer
  rw [if_neg htype]
  refine ⟨h.player, fun p hp => ?_⟩
  rcases List.mem_append.mp hp with hp | hp
  · exact h.enemies p hp
  · rw [List.mem_singleton.mp hp]
    exact hP.enemy a ha htype

/-- The bots of a level. -/
theorem placeBots : ∀ (bs : List (BotSpec K)) (d : Vec K) (w : World K), Everyone P E w →
    (∀ b ∈ bs, ∀ d, (b.setup d).InRange) → Everyone P E (placeBots c.libm c.fov d bs w) := by
  intro bs
  induction bs with
  | nil => intro d w h _; exact h
  | cons b bs ih =>
    intro d w h hbs
    exact ih _ _ (hP.initPlayer_enemy h (hbs b List.mem_cons_self (b.direction.getD d)) nofun)
      fun b hb => hbs b (List.mem_cons_of_mem _ hb)

end PlayerRule

/-! ### The contents of the levels -/

/-- A bot of a level is created in range. -/
theorem inRange_bot (position : Vec K) (direction : Option (Vec K)) {health maxHealth armor
    maxArmor : ℤ} {gun : GunInstance} (hhealth : 0 ≤ health ∧ health ≤ maxHealth ∧ 0 < maxHealth)
    (harmor : 0 ≤ armor ∧ armor ≤ maxArmor ∧ 0 < maxArmor) (hgun : 0 ≤ gun.gun.damage) (d : Vec K) :
    (BotSpec.setup ⟨position, direction, health, maxHealth, armor, maxArmor, gun⟩ d).InRange := by
  refine ⟨hhealth, harmor, fun g hg => ?_⟩
  rw [List.mem_singleton.mp hg]
  exact hgun

theorem bots2_inRange : ∀ b ∈ (bots2 : List (BotSpec K)), ∀ d, (b.setup d).InRange := by
  intro b hb
  fin_cases hb <;> exact inRange_bot _ _ (by decide) (by decide) (by decide)

/-- The local player of every level. -/
theorem playerSetup_issued (position direction : Vec K) (ammo packets : ℕ) {health : ℤ}
    (hhealth : 0 ≤ health ∧ health ≤ 100) :
    (playerSetup position direction health [createGunInstance 0 0 0,
      createGunInstance 1 ammo packets, createGunInstance 2 0 0]).Issued := by
  have hmax : (0 : ℤ) ≤ 0 ∧ (0 : ℤ) ≤ 100 ∧ (0 : ℤ) < 100 := by decide
  refine ⟨⟨⟨hhealth.1, hhealth.2, hmax.2.2⟩, hmax, fun g hg => ?_⟩, rfl, ⟨rfl, rfl⟩,
    ammo, packets, rfl⟩
  have hdamage : ∀ i < 3, 0 ≤ (getGun i).damage := by decide
  simp only [playerSetup, List.mem_cons, List.not_mem_nil, or_false] at hg
  rcases hg with rfl | rfl | rfl
  · exact hdamage 0 (by decide)
  · exact hdamage 1 (by decide)
  · exact hdamage 2 (by decide)

namespace PlayerRule

variable (hP : PlayerRule c P E) {w : World K}

include hP

theorem setupGame1 (h : ∀ p ∈ w.enemies, E p) : Everyone P E (setupGame1 c w) := by
  have hplayer := hP.initPlayer_player h
    (playerSetup_issued (⟨2, 2⟩ : Vec K) ⟨1, 2⟩ 0 0 (by decide : (0 : ℤ) ≤ 50 ∧ (50 : ℤ) ≤ 100))
  refine hP.placeBots _ _ _ (hplayer.congr rfl rfl) ?_
  intro b hb
  fin_cases hb <;> exact inRange_bot _ _ (by decide) (by decide) (by decide)

theorem setupGame2 (h : ∀ p ∈ w.enemies, E p) : Everyone P E (setupGame2 c w) := by
  have hplayer := hP.initPlayer_player h
    (playerSetup_issued (⟨2, 2⟩ : Vec K) ⟨1, 2⟩ 11 1 (by decide : (0 : ℤ) ≤ 50 ∧ (50 : ℤ) ≤ 100))
  have hgun := hplayer.modify .player (f := switchGun 1) fun hp => hP.choose _ 1 (by decide) hp
  exact (hP.placeBots bots2 ⟨1, 2⟩ _ hgun bots2_inRange).congr rfl rfl

theorem setupMultiplayer (h : ∀ p ∈ w.enemies, E p) (player : ℕ) :
    Everyone P E (setupMultiplayer c player w) := by
  have hissued : ∀ position direction : Vec K, (playerSetup position direction 100
      [createGunInstance 0 0 0, createGunInstance 1 0 0, createGunInstance 2 0 0]).Issued :=
    fun _ _ => playerSetup_issued _ _ 0 0 (by decide)
  unfold OperationMinix.setupMultiplayer
  simp only [spawn_eq]
  have hplayer := hP.initPlayer_player h
    (hissued (spawnPosition (!decide (player = 2))) (spawnDirection (!decide (player = 2))))
  obtain ⟨hhealth, harmor, hguns⟩ :=
    (hissued (spawnPosition (decide (player = 2))) (spawnDirection (decide (player = 2)))).inRange
  exact (hP.initPlayer_enemy hplayer (a :=
    { playerSetup (spawnPosition (decide (player = 2))) (spawnDirection (decide (player = 2))) 100
        [createGunInstance 0 0 0, createGunInstance 1 0 0, createGunInstance 2 0 0] with
      type := .networkPlayer }) ⟨hhealth, harmor, hguns⟩ nofun).congr rfl rfl

/-- Loading one of the two single player levels. -/
theorem loadLevel {lvl : ℤ} (hlvl : lvl = 1 ∨ lvl = 2) {m : GameMap}
    (hm : c.maps lvl.toNat = some m) {g : Game K} (h : ∀ p ∈ g.world.enemies, E p) :
    ∃ g', loadLevel c lvl 1 1 g = (true, g') ∧ Everyone P E g'.world := by
  unfold OperationMinix.loadLevel
  rw [hm]
  rcases hlvl with rfl | rfl
  · exact ⟨_, rfl, hP.setupGame1 h⟩
  · exact ⟨_, rfl, hP.setupGame2 h⟩

/-- Loading the level of the multiplayer game. -/
theorem loadLevel_mp {m : GameMap} (hm : c.maps 3 = some m) (player : ℕ) {g : Game K}
    (h : ∀ p ∈ g.world.enemies, E p) :
    Everyone P E (OperationMinix.loadLevel c 3 2 player g).2.world := by
  unfold OperationMinix.loadLevel
  rw [show (3 : ℤ).toNat = 3 from rfl, hm]
  show Everyone P E (OperationMinix.setupMultiplayer c player _)
  apply hP.setupMultiplayer
  exact h

end PlayerRule

/-! ### What a tick leaves alone -/

/-- It depends on the keys of the local player, and on the kind and the animations of an enemy,
and it is kept when keys are released and the animations go on. -/
structure LookRule (P E : PlayerInfo K → Prop) : Prop where
  keys : ∀ p q : PlayerInfo K, P p → q.movm.kbdState.Below p.movm.kbdState → P q
  congr : ∀ p q : PlayerInfo K, E p → q.type = p.type → q.currAnim = p.currAnim →
    q.sprites = p.sprites → E q
  animate : ∀ t shot p, E p → E (animate t shot p)

theorem move_turn_kbdState (l : Libm K) (m : GameMap) (p : PlayerInfo K) :
    (move l m (turn l p)).movm.kbdState = p.movm.kbdState := by
  unfold move turn
  dsimp only
  split_ifs <;> rfl

theorem switchGun_kbdState (i : ℕ) (p : PlayerInfo K) :
    (switchGun i p).movm.kbdState = p.movm.kbdState := by
  unfold switchGun
  split <;> rfl

/-- A number key that is taken is released. -/
theorem numberKeys_kbdState (p : PlayerInfo K) :
    (numberKeys p).movm.kbdState.Below p.movm.kbdState := by
  unfold numberKeys
  split
  · exact .refl _
  · next i _ =>
    unfold takeNumberKey
    rw [switchGun_kbdState]
    exact .release _ i

/-- The keys are only released when they are used. -/
theorem steer_kbdState (l : Libm K) (m : GameMap) (p : PlayerInfo K) :
    (steer l m p).movm.kbdState.Below p.movm.kbdState := by
  have hcontrols : ∀ q : PlayerInfo K,
      (updatePlayerControls q).movm.kbdState = q.movm.kbdState := by
    intro q
    unfold updatePlayerControls
    dsimp only
    split <;> dsimp only <;> split <;> rfl
  rw [← move_turn_kbdState l m p]
  unfold steer
  dsimp only
  split
  · exact .refl _
  · rw [hcontrols]
    exact numberKeys_kbdState _

namespace LookRule

variable (hE : LookRule P E) {w : World K}

include hE

/-- A change that releases keys at most, and keeps the kind and the animations. -/
theorem modify (h : Everyone P E w) (r : PlayerRef) {f : PlayerInfo K → PlayerInfo K}
    (hkeys : (f (w.get r)).movm.kbdState.Below (w.get r).movm.kbdState)
    (htype : (f (w.get r)).type = (w.get r).type)
    (hanim : (f (w.get r)).currAnim = (w.get r).currAnim)
    (hsprites : (f (w.get r)).sprites = (w.get r).sprites) :
    Everyone P E (w.modify r f) := by
  refine h.modify r fun hp => ?_
  cases r with
  | player => exact hE.keys _ _ hp hkeys
  | enemy i => exact hE.congr _ _ hp htype hanim hsprites

theorem strike (h : Everyone P E w) (damage : ℤ) (hit : Bool)
    (target : Option PlayerRef) : Everyone P E (strike damage hit target w) := by
  unfold OperationMinix.strike
  split
  · cases target with
    | some r =>
      obtain ⟨health, armor, heq⟩ := Wounded.hurt damage (w.get r)
      exact hE.modify h r (by rw [heq]) (by rw [heq]) (by rw [heq]) (by rw [heq])
    | none => exact h.congr rfl rfl
  · exact h

theorem fireLoop (e : Env K) (ref : PlayerRef) : ∀ (n i : ℕ) (w : World K),
    Everyone P E w → Everyone P E (fireLoop e ref n i w) := by
  intro n
  induction n with
  | zero => intro i w h; exact h
  | succ n ih =>
    intro i w h
    unfold OperationMinix.fireLoop
    split
    · exact ih (i + 1) _ (hE.modify (hE.strike h _ _ _) ref (.refl _) rfl rfl rfl)
    · exact h

theorem shoot (h : Everyone P E w) (e : Env K) (ref : PlayerRef) :
    Everyone P E (shoot e ref w).2 := by
  unfold OperationMinix.shoot fire
  dsimp only
  split_ifs
  · exact h
  · exact hE.fireLoop e ref _ _ _ (hE.modify h ref (.refl _) rfl rfl rfl)
  · exact h

theorem pickUp (h : Everyone P E w) (ref : PlayerRef) : Everyone P E (pickUp ref w) := by
  have hsame : ∀ (p : PlayerInfo K) (i : ℕ) (s : PickupStore K),
      (pickupIndex p i s).1.movm = p.movm ∧ (pickupIndex p i s).1.type = p.type ∧
        (pickupIndex p i s).1.currAnim = p.currAnim ∧
          (pickupIndex p i s).1.sprites = p.sprites := by
    intro p i s
    unfold pickupIndex
    split
    · exact ⟨rfl, rfl, rfl, rfl⟩
    · next pickup _ =>
      show (pickupHandler pickup.details p).2.movm = _ ∧ _
      cases pickup.details <;> exact ⟨rfl, rfl, rfl, rfl⟩
  unfold OperationMinix.pickUp
  dsimp only
  split
  · obtain ⟨hmovm, htype, hanim, hsprites⟩ := hsame (w.get ref)
      (checkPlayerPickupCollision w.pickups (w.get ref)) w.pickups
    exact (hE.modify h ref (f := fun _ => _) (by rw [hmovm]) htype hanim
      hsprites).congr rfl rfl
  · exact h

theorem finishTick (h : Everyone P E w) (ref : PlayerRef) (shot : Bool) :
    Everyone P E (finishTick ref shot w) := by
  have hanim : Everyone P E (w.modify ref (OperationMinix.animate w.timeCounter shot)) := by
    refine h.modify ref fun hp => ?_
    cases ref with
    | player =>
      refine hE.keys _ _ hp ?_
      unfold OperationMinix.animate
      split <;> exact .refl _
    | enemy i => exact hE.animate _ _ _ hp
  have hgun : ∀ (v : World K) (g : GunInstance), Everyone P E v →
      Everyone P E (v.modify ref fun p => p.modifyGun fun _ => g) :=
    fun v g hv => hE.modify hv ref (.refl _) rfl rfl rfl
  exact (hgun _ _ hanim).congr rfl rfl

/-- **A tick** releases keys at most, and the animations of the enemies go on. -/
theorem tick (h : Everyone P E w) (e : Env K) (ref : PlayerRef) :
    Everyone P E (playerIntIh e ref w) := by
  have hsteer : Everyone P E (w.modify ref (steer e.libm w.map)) := by
    obtain ⟨_, _, _, _, _, _, heq⟩ := steer_eq e.libm w.map (w.get ref)
    exact hE.modify h ref (steer_kbdState e.libm w.map _) (by rw [heq]) (by rw [heq]) (by rw [heq])
  exact hE.finishTick (hE.shoot (hE.pickUp hsteer ref) e ref) ref _

end LookRule

/-- Nothing is asked of a player. -/
def AnyPlayer (_ : PlayerInfo K) : Prop := True

/-- The animations of `init_player_anims`, without the frame they are at. -/
def layout (sprites : List (List AnimatedSprite)) : List (List (ℕ × ℕ)) :=
  sprites.map fun views => views.map fun a => (a.framesPerSprite, a.numFig)

/-- The animations of an enemy are those of `init_player_anims`, each at one of its frames. -/
structure Animated (p : PlayerInfo K) : Prop where
  kind : p.type ≠ .player
  anim : p.currAnim < 6
  views : layout p.sprites = layout initPlayerAnims
  frames : ∀ views ∈ p.sprites, ∀ a ∈ views, a.curFrame < a.numFig

theorem updateAnim_spec (t : ℕ) {a : AnimatedSprite} (h : a.curFrame < a.numFig) :
    (updateAnim t a).2.framesPerSprite = a.framesPerSprite ∧
      (updateAnim t a).2.numFig = a.numFig ∧ (updateAnim t a).2.curFrame < a.numFig := by
  unfold updateAnim
  split
  · dsimp only
    split
    · exact ⟨rfl, rfl, Nat.mod_lt _ (Nat.zero_lt_of_lt h)⟩
    · exact ⟨rfl, rfl, Nat.mod_lt _ (Nat.zero_lt_of_lt h)⟩
  · exact ⟨rfl, rfl, h⟩

theorem chooseAnim_lt (shot : Bool) (p : PlayerInfo K) : chooseAnim shot p < 6 := by
  unfold chooseAnim
  dsimp only
  split_ifs <;> decide

/-- The animations of an enemy go on. -/
theorem Animated.animate {p : PlayerInfo K} (h : Animated p) (t : ℕ) (shot : Bool) :
    Animated (animate t shot p) := by
  unfold OperationMinix.animate
  rw [if_neg h.kind]
  have hmem : ∀ a ∈ p.sprites.getD (chooseAnim shot p) [], a.curFrame < a.numFig := by
    intro a ha
    rw [List.getD_eq_getElem?_getD] at ha
    cases hviews : p.sprites[chooseAnim shot p]? with
    | none =>
      rw [hviews] at ha
      cases ha
    | some views =>
      rw [hviews] at ha
      exact h.frames views (List.mem_of_getElem? hviews) a ha
  refine ⟨h.kind, chooseAnim_lt shot p, ?_, fun views hviews a ha => ?_⟩
  · -- a frame moves on, and neither the number of frames nor their time is changed
    refine Eq.trans ?_ h.views
    have hself : (p.sprites.getD (chooseAnim shot p) []).map
        (fun a => ((updateAnim t a).2.framesPerSprite, (updateAnim t a).2.numFig)) =
        (p.sprites.getD (chooseAnim shot p) []).map fun a => (a.framesPerSprite, a.numFig) := by
      refine List.map_congr_left fun a ha => ?_
      obtain ⟨hsprite, hfig, -⟩ := updateAnim_spec t (hmem a ha)
      rw [hsprite, hfig]
    unfold layout
    rw [List.map_set, List.map_map]
    refine (congrArg _ hself).trans ?_
    by_cases hlt : chooseAnim shot p < p.sprites.length
    · rw [List.getD_eq_getElem _ _ hlt]
      have hself' : ∀ (l : List (List (ℕ × ℕ))) (i : ℕ) (hi : i < l.length), l.set i l[i] = l :=
        fun l i hi => List.set_getElem_self hi
      have hset := hself' (p.sprites.map fun views =>
        views.map fun a => (a.framesPerSprite, a.numFig)) (chooseAnim shot p) (by simpa using hlt)
      rwa [List.getElem_map] at hset
    · exact List.set_eq_of_length_le (by simpa using hlt)
  · rcases List.mem_or_eq_of_mem_set hviews with hviews | rfl
    · exact h.frames views hviews a ha
    · obtain ⟨b, hb, rfl⟩ := List.mem_map.mp ha
      obtain ⟨-, hfig, hlt⟩ := updateAnim_spec t (hmem b hb)
      rw [hfig]
      exact hlt

theorem animated_rule : LookRule AnyPlayer (Animated (K := K)) := by
  refine ⟨fun _ _ _ _ => trivial, fun p q hp htype hanim hsprites => ?_,
    fun t shot p hp => hp.animate t shot⟩
  obtain ⟨hkind, hlt, hviews, hframes⟩ := hp
  exact ⟨by rw [htype]; exact hkind, by rw [hanim]; exact hlt, by rw [hsprites]; exact hviews,
    by rw [hsprites]; exact hframes⟩

/-- Health, armour, guns and animations of an enemy are in order. -/
structure Fit (p : PlayerInfo K) : Prop where
  sound : Sound p
  animated : Animated p

theorem Sound.controls {p : PlayerInfo K} (h : Sound p) (movm : Controls K) (direction : Vec K) :
    Sound { p with movm, direction } :=
  ⟨h.vitals.congr rfl rfl rfl rfl, h.guns.congr rfl⟩

/-- **Everyone is fit** when a level creates it, and stays so. -/
theorem fit_rule : PlayerRule c Sound (Fit (K := K)) := by
  refine ⟨fun p movm direction h => ?_, fun p movm h _ => h.controls movm p.direction,
    fun p i _ h => ?_, fun w r h => ?_,
    fun a ha => sound_newPlayer ha.inRange c.libm c.fov, fun a ha htype => ?_⟩
  · exact ⟨h.sound.controls movm direction, animated_rule.congr _ _ h.animated rfl rfl rfl⟩
  · refine ⟨?_, h.guns.switchGun i⟩
    unfold switchGun
    split
    · exact h.vitals.congr rfl rfl rfl rfl
    · exact h.vitals
  · have hsound : Everybody Sound (playerIntIh c.toEnv r w) :=
      Everybody.tick ⟨h.player, fun p hp => (h.enemies p hp).sound⟩ c.toEnv r
    have hanimated : Everyone AnyPlayer Animated (playerIntIh c.toEnv r w) :=
      animated_rule.tick ⟨trivial, fun p hp => (h.enemies p hp).animated⟩ c.toEnv r
    exact ⟨hsound.player, fun p hp => ⟨hsound.enemies p hp, hanimated.enemies p hp⟩⟩
  · refine ⟨sound_newPlayer ha c.libm c.fov, htype, by show 0 < 6; decide, ?_, ?_⟩
    · rw [show (newPlayer c.libm c.fov a).sprites = initPlayerAnims from if_neg htype]
    · rw [show (newPlayer c.libm c.fov a).sprites = initPlayerAnims from if_neg htype]
      decide

/-! ### The program -/

/-- The number of the level alone. -/
theorem level_rule : BodyRule c fun _ _ => True :=
  ⟨fun _ _ _ _ => trivial, fun _ _ _ _ => trivial, fun _ _ _ => trivial,
    fun _ _ _ _ => trivial, fun _ _ _ => trivial⟩

theorem bodied_start (w : World K) (rtc : Rtc) :
    Bodied (fun _ _ => True) (Game.start w rtc) :=
  Bodied.leave (s := .mainMenu) ⟨nofun, nofun⟩ rfl trivial

/-- One thing holds of all enemies, and while a game is on one of the local player. -/
structure Peopled (P E : PlayerInfo K → Prop) (g : Game K) : Prop where
  enemies : ∀ p ∈ g.world.enemies, E p
  player : Playing g → P g.world.player

namespace Peopled

variable {g g' : Game K}

/-- While a game is on it holds of everybody. -/
theorem everybody (h : Peopled P E g) (hplay : Playing g) : Everyone P E g.world :=
  ⟨h.player hplay, h.enemies⟩

theorem of_everybody (h : Everyone P E g.world) : Peopled P E g := ⟨h.enemies, fun _ => h.player⟩

/-- Only the state and the players matter. -/
theorem congr (h : Peopled P E g) (hstate : g'.state = g.state)
    (henemies : g'.world.enemies = g.world.enemies) (hplayer : g'.world.player = g.world.player) :
    Peopled P E g' := by
  refine ⟨by rw [henemies]; exact h.enemies, fun hplay => ?_⟩
  rw [hplayer]
  exact h.player (by unfold Playing at hplay ⊢; rwa [hstate] at hplay)

/-- A state without a game, with no enemies but those before. -/
theorem leave (h : Peopled P E g) {s : GameState} (hs : s ≠ .game ∧ s ≠ .mpGame)
    (hstate : g'.state = s) (henemies : ∀ p ∈ g'.world.enemies, p ∈ g.world.enemies) :
    Peopled P E g' := by
  refine ⟨fun p hp => h.enemies p (henemies p hp), fun hplay => ?_⟩
  rcases hplay with hplay | hplay
  · exact absurd (hstate.symm.trans hplay) hs.1
  · exact absurd (hstate.symm.trans hplay) hs.2

/-- The level is freed. -/
theorem freed {s : GameState} (hs : s ≠ .game ∧ s ≠ .mpGame) (hstate : g'.state = s)
    (henemies : g'.world.enemies = []) : Peopled P E g' := by
  refine ⟨by simp [henemies], fun hplay => ?_⟩
  rcases hplay with hplay | hplay
  · exact absurd (hstate.symm.trans hplay) hs.1
  · exact absurd (hstate.symm.trans hplay) hs.2

/-- Before the first game. -/
theorem start (w : World K) (rtc : Rtc) : Peopled P E (Game.start w rtc) :=
  freed (s := .mainMenu) ⟨nofun, nofun⟩ rfl rfl

/-- The game is left, without its level being freed. -/
theorem setState (h : Peopled P E g) {s : GameState} (hs : s ≠ .game ∧ s ≠ .mpGame) :
    Peopled P E (g.setState s) :=
  h.leave hs rfl fun _ hp => hp

variable (hP : PlayerRule c P E)

include hP

/-- **A single player level.** -/
theorem gmInitGame {lvl : ℤ} (hlvl : lvl = 1 ∨ lvl = 2) (h : Peopled P E g) :
    Peopled P E (gmInitGame c lvl 1 1 g) := by
  unfold OperationMinix.gmInitGame
  cases hm : c.maps lvl.toNat with
  | none =>
    unfold loadLevel
    rw [hm]
    exact h.congr rfl rfl rfl
  | some m =>
    obtain ⟨g', hload, hall⟩ := hP.loadLevel hlvl hm (g := { g with rtc := g.rtc.disable rtcUie })
      h.enemies
    rw [hload]
    exact of_everybody (hall.congr rfl rfl)

/-- The end of the handshake. -/
theorem afterSync (h : Peopled P E g) : Peopled P E (afterSync c g) := by
  unfold OperationMinix.afterSync
  split
  · cases hm : c.maps 3 with
    | none =>
      refine h.congr ?_ ?_ ?_
      all_goals
        unfold loadLevel
        rw [show (3 : ℤ).toNat = 3 from rfl, hm]
        rfl
    | some m => exact of_everybody ((hP.loadLevel_mp hm g.net.player h.enemies).congr rfl rfl)
  · split
    · exact h.leave (s := .mainMenu) ⟨nofun, nofun⟩ rfl fun _ hp => hp
    · exact h

/-! ### A tick -/

theorem receiveStage (h : Peopled P E g) : Peopled P E (receiveStage c g) := by
  unfold OperationMinix.receiveStage
  split
  · next hst =>
    have hall := hP.receive g.net (h.everybody (Or.inr hst))
    have hw : (uartReceiveData (driveEnemy c) g.net g.world).2.2.state = .mpGame :=
      uartReceiveData_replica (driveEnemy c)
        (fun pkt w h => (state_driveEnemy c pkt w).trans h) g.net hst
    generalize uartReceiveData (driveEnemy c) g.net g.world = out at *
    obtain ⟨res, n, w⟩ := out
    dsimp only at hw hall ⊢
    -- the other peer may be given up after the result it has announced
    have hdisconnect : ∀ g' : Game K, Peopled P E g' →
        Peopled P E (if g'.net.state = .disconnected then g'.setState .disconnect else g') := by
      intro g' hg'
      split
      · exact hg'.setState ⟨nofun, nofun⟩
      · exact hg'
    apply hdisconnect
    cases res with
    | loseGameErr => exact freed (s := .loseGame) ⟨nofun, nofun⟩ rfl rfl
    | winGameErr => exact freed (s := .winGame) ⟨nofun, nofun⟩ rfl rfl
    | ok => exact of_everybody hall
  · exact h

theorem playStage (h : Peopled P E g) {t : Tick K} (hg : playStage c t g = .ok g') :
    Peopled P E g' := by
  rcases playStage_cases hg with ⟨hplay, rfl⟩ | ⟨-, n, -, rfl⟩ | ⟨-, rfl⟩
  · exact of_everybody (hP.simulate (h.everybody hplay) t)
  · exact (h.congr rfl rfl rfl : Peopled P E { g with net := n }).afterSync hP
  · exact h

omit hP in
theorem sendStage (h : Peopled P E g) : Peopled P E (sendStage g) := by
  obtain ⟨cs, hsend⟩ := sendStage_eq g
  rw [hsend]
  exact h.congr rfl rfl rfl

/-- New controls for the local player, with the same keys. -/
theorem inControls (h : Peopled P E g) {f : Controls K → Controls K}
    (hf : ∀ m, (f m).kbdState = m.kbdState) : Peopled P E (g.inControls f) :=
  ⟨h.enemies, fun hplay => hP.control _ _ (h.player hplay) (by rw [hf])⟩

omit hP in
/-- The menu offers three guns. -/
theorem chosenGun_lt {i : ℕ} (hi : i ∈ chosenGun c g) : i < 3 := by
  have hmem := List.mem_of_find?_eq_some hi
  simp only [List.mem_cons, List.not_mem_nil, or_false] at hmem
  omega

theorem takeGun (h : Peopled P E g) {chosen : Option ℕ} (hchosen : ∀ i ∈ chosen, i < 3) :
    Peopled P E (g.takeGun chosen) := by
  cases chosen with
  | none => exact h
  | some i => exact ⟨h.enemies, fun hplay => hP.choose _ i (hchosen i rfl) (h.player hplay)⟩

/-- Drawing the game. -/
theorem renderGame (h : Peopled P E g) : Peopled P E (renderGame c g) := by
  have hmenu : Peopled P E (displayMenu c g) := by
    unfold displayMenu
    dsimp only
    generalize hopen : (if g.world.invMenu = .closed then _ else g) = g₁
    have hg₁ : Peopled P E g₁ := by
      rw [← hopen]
      split
      · exact (h.inControls hP (f := fun m => { m with mousePos := c.middle }) fun _ => rfl).congr rfl
          rfl rfl
      · exact h
    split
    · refine takeGun hP ?_ fun i hi => chosenGun_lt hi
      split
      · refine (hg₁.inControls hP (f := fun m => { m with lbSingleTap := false })
          fun _ => rfl).setState ?_
        split <;> exact ⟨nofun, nofun⟩
      · exact hg₁.inControls hP fun _ => rfl
    · exact hg₁
  unfold OperationMinix.renderGame
  dsimp only
  split
  · exact h.congr rfl rfl rfl
  · split
    · exact hmenu.congr rfl rfl rfl
    · exact h

/-- A screen that is left with a click. -/
theorem onClick (h : Peopled P E g) {click : Game K → Game K}
    (hclick : ∀ g', g'.currLvl = g.currLvl → Peopled P E g' → Peopled P E (click g')) :
    Peopled P E (onClick click g) := by
  unfold OperationMinix.onClick
  split
  · exact hclick _ rfl (h.inControls hP fun _ => rfl)
  · exact h

theorem renderWinLoseScreen (h : Peopled P E g)
    (hfits : (g.currLvl = 1 ∨ g.currLvl = 2) ∨ g.currLvl = -1) :
    Peopled P E (renderWinLoseScreen c g) := by
  apply h.onClick hP
  intro g' hlvl hg'
  rw [← hlvl] at hfits
  dsimp only
  split_ifs with hexit hlobby hnext hagain
  · exact hg'.setState ⟨nofun, nofun⟩
  · exact hg'.setState ⟨nofun, nofun⟩
  · refine hg'.gmInitGame hP ?_
    rcases hfits with (hone | htwo) | hmp
    · exact Or.inr (by rw [hone]; rfl)
    · exact absurd htwo hnext.1
    · exact absurd ⟨hmp, hnext.2.2⟩ hlobby
  · refine hg'.gmInitGame hP ?_
    rcases hfits with hsingle | hmp
    · exact hsingle
    · exact absurd ⟨hmp, hagain.2⟩ hlobby
  · exact hg'

theorem display (h : Peopled P E g) (hfits : LevelFits g.state g.currLvl) :
    Peopled P E (display c g) := by
  unfold OperationMinix.display
  split
  · exact h.renderGame hP
  · exact h.renderGame hP
  · apply h.onClick hP
    intro g' _ hg'
    split_ifs
    · exact hg'.gmInitGame hP (Or.inl rfl)
    · exact hg'.setState ⟨nofun, nofun⟩
    · exact hg'.setState ⟨nofun, nofun⟩
    · exact hg'
  · apply h.onClick hP
    intro g' _ hg'
    split_ifs
    · exact hg'.leave (s := .mainMenu) ⟨nofun, nofun⟩ rfl fun _ hp => hp
    · exact hg'
  · next hst =>
    rw [hst] at hfits
    exact h.renderWinLoseScreen hP hfits
  · next hst =>
    rw [hst] at hfits
    exact h.renderWinLoseScreen hP hfits
  · apply h.onClick hP
    intro g' _ hg'
    split_ifs
    · exact hg'.setState ⟨nofun, nofun⟩
    · exact hg'
  · exact h

omit hP in
theorem updateGameState (h : Peopled P E g) : Peopled P E (updateGameState g) := by
  unfold OperationMinix.updateGameState
  split
  · split_ifs
    · exact freed (s := .loseGame) ⟨nofun, nofun⟩ rfl rfl
    · exact freed (s := .winGame) ⟨nofun, nofun⟩ rfl rfl
    · exact h
  · dsimp only
    split_ifs
    · exact freed (s := .loseGame) ⟨nofun, nofun⟩ rfl rfl
    · exact freed (s := .winGame) ⟨nofun, nofun⟩ rfl rfl
    · exact h
  · exact freed (s := .mainMenu) ⟨nofun, nofun⟩ rfl rfl
  · exact freed (s := .loseGame) ⟨nofun, nofun⟩ rfl rfl
  · exact h

/-- **One tick.** -/
theorem gameHandler (h : Peopled P E g) (hlevel : Bodied (fun _ _ => True) g) {t : Tick K}
    (hg : gameHandler c t g = .ok g') : Peopled P E g' := by
  obtain ⟨b, hb, rfl⟩ := gameHandler_ok hg
  obtain ⟨p, hp, rfl⟩ := beforeUpdate_ok hb
  have hfits := ((hlevel.receiveStage (c := c)).playStage level_rule hp).sendStage.level
  have hdrawn := ((h.receiveStage hP).playStage hP hp).sendStage.display hP hfits
  exact updateGameState (hdrawn.inControls hP fun _ => rfl)

/-- **One step of the program**, other than a key. -/
theorem step (h : Peopled P E g) (hlevel : Bodied (fun _ _ => True) g) {i : GameInput K}
    (hi : ∀ k, i ≠ .kbd k) (hg : (gameMachine c).step g i = some g') : Peopled P E g' := by
  have hstep := hg
  simp only [gameMachine] at hg
  split at hg
  · cases hg
  · cases i with
    | mouse pos lb desl =>
      cases hg
      unfold mouseParseData
      exact h.inControls hP fun _ => rfl
    | kbd k => exact absurd rfl (hi k)
    | recv e =>
      cases hg
      exact h.congr rfl rfl rfl
    | rtc cause =>
      cases hg
      unfold rtcIh
      split_ifs <;> exact h.congr rfl rfl rfl
    | tick t =>
      have hclock : Peopled P E (timerIntHandler g) := h.congr rfl rfl rfl
      have hlevel' : Bodied (fun _ _ => True) (timerIntHandler g) :=
        hlevel.congr rfl rfl ⟨rfl, rfl⟩
      exact hclock.gameHandler hP hlevel' (gameHandler_of_tick hstep)

omit hP in
/-- A key, which one thing is followed by another. -/
theorem kbd {P' : PlayerInfo K → Prop} (h : Peopled P E g) {k : KbdCtrlState}
    (hk : ∀ p, P p → p = g.world.player →
      P' { p with movm := { p.movm with kbdState := k, movement := keyMovement k } }) :
    Peopled P' E (kbdParseData k g) :=
  ⟨h.enemies, fun hplay => hk _ (h.player hplay) rfl⟩

end Peopled

/-- **What the life of the players keeps holds of everyone**: in every state of every run of the
program, of all enemies, and of the local player while a game is on. -/
theorem everyone_always (hP : PlayerRule c P E) (hkeys : ∀ p movm, P p → P { p with movm })
    {Q : Game K → Prop} (hQ : ∀ g, Peopled P E g → Q g) (w : World K) (rtc : Rtc)
    (is : List (GameInput K)) : (gameMachine c).Always Q (Game.start w rtc) is := by
  refine Machine.always_of_step (J := fun g => Bodied (fun _ _ => True) g ∧ Peopled P E g)
    (fun g h => hQ g h.2) (fun g i g' h hg => ⟨h.1.step level_rule hg, ?_⟩) is
    ⟨bodied_start w rtc, .start w rtc⟩
  by_cases hi : ∃ k, i = .kbd k
  · obtain ⟨k, rfl⟩ := hi
    simp only [gameMachine] at hg
    split at hg
    · cases hg
    · cases hg
      exact h.2.kbd fun p hp _ => hkeys p _ hp
  · exact h.2.step hP h.1 (fun k hk => hi ⟨k, hk⟩) hg

end Model

end OperationMinix
