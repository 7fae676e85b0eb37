import OperationMinix.Game.Clock
import OperationMinix.Player.Body

/-!
# The body of the local player over whole runs

Most of the program reaches the position and the direction of the local player in one way only:
through the tick that steps it.  The others are the keys and the mouse, which change what it is
asked for, and the levels, which put it at their start.  Packets, bots, shots, menus and the end
of a game leave it alone.

So what the starts have, and the keys, the mouse and a step keep, holds in every state of every
run in which a game is on.  That is a rule of proof (`body_always`); the results about positions
are instances of it.

The rule needs to know which level is loaded.  After a game the screen offers the level of the
game once more or the next one, by its number, and a number that belongs to no level would start
a game without a player.

## Main definitions

* `LevelFits` — the number of the level that a state of the game allows.
* `BodyRule` — what the starts have, and the keys, the mouse and a step keep.

## Main results

* `bodies_renderGame` — drawing the game moves nobody.
* `body_always` — **what a step keeps holds in every game.**
-/

namespace OperationMinix

open Runs

set_option linter.unusedSectionVars false

section Model

variable {K : Type*} [Field K] [LinearOrder K] [FloorRing K] {c : Setting K}

/-! ### The stages of a tick -/

/-- The decision for a bot does not reach a replica. -/
theorem get_handleEnemies (bots : ℕ → Option (BotMove K)) {w : World K} {s : PlayerRef}
    (hs : (w.get s).type ≠ .bot) : (handleEnemies bots w).get s = w.get s := by
  cases s with
  | player => rfl
  | enemy i =>
    simp only [World.get, handleEnemies, List.getD_eq_getElem?_getD, List.getElem?_mapIdx] at hs ⊢
    cases hi : w.enemies[i]? with
    | none => rfl
    | some p =>
      rw [hi] at hs
      simp only [Option.map_some, Option.getD_some] at hs ⊢
      split
      · next hbot _ => exact absurd hbot hs
      · rfl

theorem bodies_updatePickups (w : World K) : w.SameBodies (updatePickups w) :=
  (World.SameBodies.refl w).congr rfl rfl rfl

/-- Choosing a gun moves nobody. -/
theorem bodies_takeGun (chosen : Option ℕ) (g : Game K) :
    g.world.SameBodies (g.takeGun chosen).world := by
  cases chosen with
  | none => exact .refl _
  | some i =>
    have h : g.world.SameBodies (g.world.modify .player (switchGun i)) :=
      .modify (body_switchGun _ i)
    exact h

/-- **Drawing the game moves nobody.** -/
theorem bodies_renderGame (g : Game K) : g.world.SameBodies (renderGame c g).world := by
  have hcontrols : ∀ (g : Game K) (f : Controls K → Controls K),
      (∀ m, (f m).movement = m.movement ∧ (f m).kbdState = m.kbdState ∧
        (f m).mouseDesl = m.mouseDesl) → g.world.SameBodies (g.inControls f).world := by
    intro g f hf
    have h : g.world.SameBodies (g.world.modify .player fun p => { p with movm := f p.movm }) := by
      obtain ⟨hmovement, hkeys, hdesl⟩ := hf g.world.player.movm
      refine .modify ?_
      show PlayerInfo.body { g.world.player with movm := f g.world.player.movm } =
        g.world.player.body
      unfold PlayerInfo.body
      rw [hmovement, hkeys, hdesl]
    exact h
  have hmenu : g.world.SameBodies (displayMenu c g).world := by
    unfold displayMenu
    dsimp only
    generalize hopen : (if g.world.invMenu = .closed then _ else g) = g₁
    have hg₁ : g.world.SameBodies g₁.world := by
      rw [← hopen]
      split
      · exact (hcontrols g (fun m => { m with mousePos := c.middle })
          fun m => ⟨rfl, rfl, rfl⟩).congr rfl rfl rfl
      · exact .refl _
    refine hg₁.trans ?_
    split
    · refine .trans (hcontrols g₁ (fun m => { m with lbSingleTap := false })
        fun m => ⟨rfl, rfl, rfl⟩) (.trans ?_ (bodies_takeGun _ _))
      split
      · exact (World.SameBodies.refl _).congr rfl rfl rfl
      · exact .refl _
    · exact .refl _
  unfold renderGame
  dsimp only
  split
  · exact (World.SameBodies.refl _).congr rfl rfl rfl
  · split
    · exact hmenu.congr rfl rfl rfl
    · exact .refl _

/-- The state and the level after the game has been drawn: its end may have been asked for. -/
theorem state_renderGame (g : Game K) : (renderGame c g).currLvl = g.currLvl ∧
    ((renderGame c g).state = g.state ∨
      (renderGame c g).state = if g.state = .mpGame then .endMGame else .endSGame) := by
  have htake : ∀ (chosen : Option ℕ) (g : Game K), (g.takeGun chosen).state = g.state ∧
      (g.takeGun chosen).currLvl = g.currLvl := by
    intro chosen g
    cases chosen <;> exact ⟨rfl, rfl⟩
  have hmenu : (displayMenu c g).currLvl = g.currLvl ∧ ((displayMenu c g).state = g.state ∨
      (displayMenu c g).state = if g.state = .mpGame then .endMGame else .endSGame) := by
    unfold displayMenu
    dsimp only
    generalize hopen : (if g.world.invMenu = .closed then _ else g) = g₁
    have hg₁ : g₁.state = g.state ∧ g₁.currLvl = g.currLvl := by
      rw [← hopen]
      split <;> exact ⟨rfl, rfl⟩
    rw [← hg₁.1, ← hg₁.2]
    split
    · rw [(htake _ _).1, (htake _ _).2]
      split
      · exact ⟨rfl, Or.inr rfl⟩
      · exact ⟨rfl, Or.inl rfl⟩
    · exact ⟨rfl, Or.inl rfl⟩
  unfold renderGame
  dsimp only
  split
  · exact ⟨rfl, Or.inl rfl⟩
  · split
    · exact hmenu
    · exact ⟨rfl, Or.inl rfl⟩

/-- The player and the map of a world that has seen packets, bots or menus. -/
def SamePlayer (w v : World K) : Prop := v.player.body = w.player.body ∧ v.map = w.map

theorem SamePlayer.trans {w v u : World K} (h : SamePlayer w v) (h' : SamePlayer v u) :
    SamePlayer w u := ⟨h'.1.trans h.1, h'.2.trans h.2⟩

theorem World.SameBodies.samePlayer {w v : World K} (h : w.SameBodies v) : SamePlayer w v :=
  ⟨h.bodies .player, h.map⟩

/-- The tick of an enemy leaves the player alone. -/
theorem samePlayer_playerIntIh (e : Env K) (i : ℕ) (w : World K) :
    SamePlayer w (playerIntIh e (.enemy i) w) := by
  obtain ⟨hbody, hmap⟩ := (sameBodies_playerIntIh e (.enemy i) w).samePlayer
  exact ⟨hbody, hmap⟩

theorem samePlayer_botIntIh (e : Env K) : ∀ (n i : ℕ) (w : World K),
    SamePlayer w (botIntIh e n i w) := by
  intro n
  induction n with
  | zero => intro i w; exact ⟨rfl, rfl⟩
  | succ n ih =>
    intro i w
    refine .trans ?_ (ih (i + 1) _)
    split
    · exact samePlayer_playerIntIh e i w
    · exact ⟨rfl, rfl⟩

/-- What has arrived leaves the player alone. -/
theorem samePlayer_receive (n : Net) (w : World K) :
    SamePlayer w (uartReceiveData (driveEnemy c) n w).2.2 :=
  uartReceiveData_replica (driveEnemy c) (P := SamePlayer w)
    (fun pkt v hv => hv.trans (samePlayer_playerIntIh c.toEnv 0 (v.modify (.enemy 0)
      (decodePacket pkt)))) n ⟨rfl, rfl⟩

/-- **The ticks of all players** step the body of the local one. -/
theorem body_simulate (t : Tick K) (w : World K) :
    (simulate c t w).player.body = w.player.body.step c.libm w.map ∧
      (simulate c t w).map = w.map := by
  have htick := body_playerIntIh c.toEnv (w := handleEnemies t.bots w) (show World.Valid _ .player
    from trivial) .player
  rw [if_pos rfl] at htick
  have hmap := (sameBodies_playerIntIh c.toEnv .player (handleEnemies t.bots w)).map
  have hbots : SamePlayer (playerIntIh c.toEnv .player (handleEnemies t.bots w))
      (simulate c t w) := by
    unfold simulate
    dsimp only
    split
    · exact (samePlayer_botIntIh _ _ _ _).trans (bodies_updatePickups _).samePlayer
    · exact (bodies_updatePickups _).samePlayer
  exact ⟨hbots.1.trans htick, hbots.2.trans hmap⟩

/-! ### The rule -/

/-- What a key makes of a body. -/
def Body.press (k : KbdCtrlState) (b : Body K) : Body K :=
  { b with
    movement := keyMovement k
    asked := keyMovement k
    crouch := k.crouch
    sprint := k.sprint }

/-- The body of a local player that `init_player` has just created. -/
def startBody (l : Libm K) (fov : ℤ) (position direction : Vec K) : Body K :=
  (newPlayer l fov (playerSetup position direction 0 [])).body

/-- The corners of the map at which `setup_multiplayer` puts the first player and the second. -/
def spawnCorner (first : Bool) : ℤ × ℤ := if first then (2, 2) else (39, 17)

/-- Where a player of the multiplayer game starts. -/
def spawnPosition (first : Bool) : Vec K := ⟨(spawnCorner first).1, (spawnCorner first).2⟩

/-- Where it looks: the first player to the right, the second to the left. -/
def spawnDirection (first : Bool) : Vec K := ⟨if first then 1 else -1, 0⟩

variable (c) in
/-- What the starts of the three levels have, and the keys, the mouse and a step keep. -/
structure BodyRule (Q : GameMap → Body K → Prop) : Prop where
  key : ∀ m b k, Q m b → Q m (b.press k)
  mouse : ∀ m (b : Body K) desl, Q m b → Q m { b with mouseDesl := desl }
  step : ∀ m b, Q m b → Q m (b.step c.libm m)
  single : ∀ n ∈ [1, 2], ∀ m, c.maps n = some m → Q m (startBody c.libm c.fov ⟨2, 2⟩ ⟨1, 2⟩)
  multi : ∀ m, c.maps 3 = some m → ∀ first,
    Q m (startBody c.libm c.fov (spawnPosition first) (spawnDirection first))

/-- The number of the level that a state of the game allows. -/
def LevelFits : GameState → ℤ → Prop
  | .game, lvl => lvl = 1 ∨ lvl = 2
  | .endSGame, lvl => lvl = 1 ∨ lvl = 2
  | .mpGame, lvl => lvl = -1
  | .endMGame, lvl => lvl = -1
  | .winGame, lvl => (lvl = 1 ∨ lvl = 2) ∨ lvl = -1
  | .loseGame, lvl => (lvl = 1 ∨ lvl = 2) ∨ lvl = -1
  | _, _ => True

/-- A game is on. -/
def Playing (g : Game K) : Prop := g.state = .game ∨ g.state = .mpGame

/-- The number of the level fits, and while a game is on the body has what the rule says. -/
structure Bodied (Q : GameMap → Body K → Prop) (g : Game K) : Prop where
  level : LevelFits g.state g.currLvl
  body : Playing g → Q g.world.map g.world.player.body

namespace Bodied

variable {Q : GameMap → Body K → Prop} {g g' : Game K}

/-- Only the state, the number of the level, the map and the body matter. -/
theorem congr (h : Bodied Q g) (hstate : g'.state = g.state) (hlvl : g'.currLvl = g.currLvl)
    (hsame : SamePlayer g.world g'.world) : Bodied Q g' := by
  refine ⟨by rw [hstate, hlvl]; exact h.level, fun hplay => ?_⟩
  rw [hsame.1, hsame.2]
  exact h.body (by unfold Playing at hplay ⊢; rwa [hstate] at hplay)

/-- A state without a game, with the same level. -/
theorem leave {s : GameState} (hs : s ≠ .game ∧ s ≠ .mpGame) (hstate : g'.state = s)
    (hfits : LevelFits s g'.currLvl) : Bodied Q g' := by
  refine ⟨by rw [hstate]; exact hfits, fun hplay => ?_⟩
  rcases hplay with hplay | hplay
  · exact absurd (hstate.symm.trans hplay) hs.1
  · exact absurd (hstate.symm.trans hplay) hs.2

end Bodied

/-! ### Loading a level -/

/-- The body of the player of a single player level. -/
theorem setupGame1_body (w : World K) : (setupGame1 c w).map = w.map ∧
    (setupGame1 c w).player.body = startBody c.libm c.fov ⟨2, 2⟩ ⟨1, 2⟩ := by
  unfold setupGame1
  dsimp only
  obtain ⟨hplayer, hmap⟩ := placeBots_spec c.libm c.fov _ ⟨1, 2⟩ _
  rw [hplayer, hmap]
  exact ⟨rfl, rfl⟩

theorem setupGame2_body (w : World K) : (setupGame2 c w).map = w.map ∧
    (setupGame2 c w).player.body = startBody c.libm c.fov ⟨2, 2⟩ ⟨1, 2⟩ := by
  unfold setupGame2 placePickups
  dsimp only
  obtain ⟨hplayer, hmap⟩ := placeBots_spec c.libm c.fov bots2 ⟨1, 2⟩ _
  rw [hplayer, hmap]
  exact ⟨rfl, body_switchGun _ 1⟩

/-- Where the two players of a multiplayer game start. -/
theorem spawn_eq (first : Bool) : (if first then (⟨2, 2⟩, ⟨1, 0⟩) else (⟨39, 17⟩, ⟨-1, 0⟩) :
    Vec K × Vec K) = (spawnPosition first, spawnDirection first) := by
  cases first <;> simp [spawnPosition, spawnCorner, spawnDirection]

theorem setupMultiplayer_body (player : ℕ) (w : World K) :
    (setupMultiplayer c player w).map = w.map ∧
      (setupMultiplayer c player w).player.body = startBody c.libm c.fov
        (spawnPosition (!decide (player = 2))) (spawnDirection (!decide (player = 2))) := by
  unfold setupMultiplayer
  simp only [spawn_eq]
  exact ⟨rfl, rfl⟩

/-- Loading one of the two single player levels. -/
theorem loadLevel_body {lvl : ℤ} (hlvl : lvl = 1 ∨ lvl = 2) {m : GameMap}
    (hm : c.maps lvl.toNat = some m) (g : Game K) :
    ∃ g', loadLevel c lvl 1 1 g = (true, g') ∧ g'.currLvl = lvl ∧ g'.world.map = m ∧
      g'.world.player.body = startBody c.libm c.fov ⟨2, 2⟩ ⟨1, 2⟩ := by
  unfold loadLevel
  rw [hm]
  rcases hlvl with rfl | rfl
  · exact ⟨_, rfl, rfl, (setupGame1_body _).1, (setupGame1_body _).2⟩
  · exact ⟨_, rfl, rfl, (setupGame2_body _).1, (setupGame2_body _).2⟩

/-- Loading the level of the multiplayer game. -/
theorem loadLevel_mp_body {m : GameMap} (hm : c.maps 3 = some m) (player : ℕ) (g : Game K) :
    let g' := (loadLevel c 3 2 player g).2
    g'.state = .mpGame ∧ g'.currLvl = -1 ∧ g'.world.map = m ∧
      g'.world.player.body = startBody c.libm c.fov (spawnPosition (!decide (player = 2)))
        (spawnDirection (!decide (player = 2))) := by
  intro g'
  have hg' : g' = (loadLevel c 3 2 player g).2 := rfl
  unfold loadLevel at hg'
  rw [show (3 : ℤ).toNat = 3 from rfl, hm] at hg'
  rw [hg']
  exact ⟨rfl, rfl, (setupMultiplayer_body _ _).1, (setupMultiplayer_body _ _).2⟩

namespace Bodied

variable {Q : GameMap → Body K → Prop} {g g' : Game K}

/-- **A single player level** starts at its start. -/
theorem gmInitGame (hQ : BodyRule c Q) {lvl : ℤ} (hlvl : lvl = 1 ∨ lvl = 2) (h : Bodied Q g) :
    Bodied Q (gmInitGame c lvl 1 1 g) := by
  unfold OperationMinix.gmInitGame
  cases hm : c.maps lvl.toNat with
  | none =>
    unfold loadLevel
    rw [hm]
    exact h.congr rfl rfl ⟨rfl, rfl⟩
  | some m =>
    obtain ⟨g', hload, hcurr, hmap, hbody⟩ := loadLevel_body hlvl hm
      { g with rtc := g.rtc.disable rtcUie }
    have hmem : lvl.toNat ∈ [1, 2] := by rcases hlvl with rfl | rfl <;> decide
    rw [hload]
    refine ⟨?_, fun _ => ?_⟩
    · show g'.currLvl = 1 ∨ g'.currLvl = 2
      rw [hcurr]
      exact hlvl
    · show Q g'.world.map g'.world.player.body
      rw [hmap, hbody]
      exact hQ.single lvl.toNat hmem m hm

/-- The end of the handshake starts the multiplayer level, or the screen is left. -/
theorem afterSync (hQ : BodyRule c Q) (h : Bodied Q g) : Bodied Q (afterSync c g) := by
  unfold OperationMinix.afterSync
  split
  · cases hm : c.maps 3 with
    | none =>
      refine h.congr ?_ ?_ ?_
      all_goals
        unfold loadLevel
        rw [show (3 : ℤ).toNat = 3 from rfl, hm]
      · rfl
      · rfl
      · exact ⟨rfl, rfl⟩
    | some m =>
      obtain ⟨hstate, hcurr, hmap, hbody⟩ := loadLevel_mp_body hm g.net.player g
      generalize (loadLevel c 3 2 g.net.player g).2 = g' at hstate hcurr hmap hbody
      refine ⟨?_, fun _ => ?_⟩
      · show LevelFits g'.state g'.currLvl
        rw [hstate]
        exact hcurr
      · show Q g'.world.map g'.world.player.body
        rw [hmap, hbody]
        exact hQ.multi m hm _
  · split
    · exact leave (s := .mainMenu) ⟨nofun, nofun⟩ rfl trivial
    · exact h

/-! ### A tick -/

theorem receiveStage (h : Bodied Q g) : Bodied Q (receiveStage c g) := by
  unfold OperationMinix.receiveStage
  split
  · next hst =>
    have hlvl : g.currLvl = -1 := by
      have hfits := h.level
      rwa [hst] at hfits
    have hsame := samePlayer_receive (c := c) g.net g.world
    have hw : (uartReceiveData (driveEnemy c) g.net g.world).2.2.state = .mpGame :=
      uartReceiveData_replica (driveEnemy c)
        (fun pkt w h => (state_driveEnemy c pkt w).trans h) g.net hst
    generalize uartReceiveData (driveEnemy c) g.net g.world = out at *
    obtain ⟨res, n, w⟩ := out
    dsimp only at hw hsame ⊢
    -- the other peer may be given up after the result it has announced
    have hdisconnect : ∀ g' : Game K, Bodied Q g' →
        Bodied Q (if g'.net.state = .disconnected then g'.setState .disconnect else g') := by
      intro g' hg'
      split
      · exact leave (s := .disconnect) ⟨nofun, nofun⟩ rfl trivial
      · exact hg'
    apply hdisconnect
    cases res with
    | loseGameErr => exact leave (s := .loseGame) ⟨nofun, nofun⟩ rfl (Or.inr hlvl)
    | winGameErr => exact leave (s := .winGame) ⟨nofun, nofun⟩ rfl (Or.inr hlvl)
    | ok => exact h.congr (hw.trans hst.symm) rfl hsame
  · exact h

theorem playStage (hQ : BodyRule c Q) (h : Bodied Q g) {t : Tick K}
    (hg : playStage c t g = .ok g') : Bodied Q g' := by
  rcases playStage_cases hg with ⟨hplay, rfl⟩ | ⟨-, n, -, rfl⟩ | ⟨-, rfl⟩
  · obtain ⟨hbody, hmap⟩ := body_simulate (c := c) t g.world
    refine ⟨?_, fun _ => ?_⟩
    · rw [show (g.inWorld (simulate c t)).state = g.state from state_simulate c t g.world]
      exact h.level
    · show Q (simulate c t g.world).map (simulate c t g.world).player.body
      rw [hbody, hmap]
      exact hQ.step _ _ (h.body hplay)
  · exact (h.congr rfl rfl ⟨rfl, rfl⟩ : Bodied Q { g with net := n }).afterSync hQ
  · exact h

theorem sendStage (h : Bodied Q g) : Bodied Q (sendStage g) := by
  obtain ⟨cs, hsend⟩ := sendStage_eq g
  rw [hsend]
  exact h.congr rfl rfl ⟨rfl, rfl⟩

/-- Drawing the game leaves it on, or asks for its end. -/
theorem renderGame (h : Bodied Q g) (hplay : Playing g) : Bodied Q (renderGame c g) := by
  obtain ⟨hlvl, hstate | hend⟩ := state_renderGame (c := c) g
  · exact h.congr hstate hlvl (bodies_renderGame g).samePlayer
  · have hfits := h.level
    rcases hplay with hst | hst
    · rw [hst] at hfits hend
      exact leave (s := .endSGame) ⟨nofun, nofun⟩ hend (by rw [hlvl]; exact hfits)
    · rw [hst] at hfits hend
      exact leave (s := .endMGame) ⟨nofun, nofun⟩ hend (by rw [hlvl]; exact hfits)

/-- A screen that is left with a click. -/
theorem onClick (h : Bodied Q g) {click : Game K → Game K}
    (hclick : ∀ g', g'.state = g.state → g'.currLvl = g.currLvl → Bodied Q g' →
      Bodied Q (click g')) : Bodied Q (onClick click g) := by
  unfold OperationMinix.onClick
  split
  · exact hclick _ rfl rfl (h.congr rfl rfl ⟨rfl, rfl⟩)
  · exact h

theorem renderWinLoseScreen (hQ : BodyRule c Q) (h : Bodied Q g)
    (hfits : (g.currLvl = 1 ∨ g.currLvl = 2) ∨ g.currLvl = -1) :
    Bodied Q (renderWinLoseScreen c g) := by
  apply h.onClick
  intro g' _ hlvl hg'
  rw [← hlvl] at hfits
  dsimp only
  split_ifs with hexit hlobby hnext hagain
  · exact leave (s := .mainMenu) ⟨nofun, nofun⟩ rfl trivial
  · exact leave (s := .mpMenu) ⟨nofun, nofun⟩ rfl trivial
  · refine hg'.gmInitGame hQ ?_
    rcases hfits with (hone | htwo) | hmp
    · exact Or.inr (by rw [hone]; rfl)
    · exact absurd htwo hnext.1
    · exact absurd ⟨hmp, hnext.2.2⟩ hlobby
  · refine hg'.gmInitGame hQ ?_
    rcases hfits with hsingle | hmp
    · exact hsingle
    · exact absurd ⟨hmp, hagain.2⟩ hlobby
  · exact hg'

theorem display (hQ : BodyRule c Q) (h : Bodied Q g) : Bodied Q (display c g) := by
  have hfits := h.level
  unfold OperationMinix.display
  split
  · next hst => exact h.renderGame (Or.inl hst)
  · next hst => exact h.renderGame (Or.inr hst)
  · apply h.onClick
    intro g' _ _ hg'
    split_ifs
    · exact hg'.gmInitGame hQ (Or.inl rfl)
    · exact leave (s := .mpMenu) ⟨nofun, nofun⟩ rfl trivial
    · exact leave (s := .exit) ⟨nofun, nofun⟩ rfl trivial
    · exact hg'
  · apply h.onClick
    intro g' _ _ hg'
    split_ifs
    · exact leave (s := .mainMenu) ⟨nofun, nofun⟩ rfl trivial
    · exact hg'
  · next hst =>
    rw [hst] at hfits
    exact h.renderWinLoseScreen hQ hfits
  · next hst =>
    rw [hst] at hfits
    exact h.renderWinLoseScreen hQ hfits
  · apply h.onClick
    intro g' _ _ hg'
    split_ifs
    · exact leave (s := .mainMenu) ⟨nofun, nofun⟩ rfl trivial
    · exact hg'
  · exact h

theorem updateGameState (h : Bodied Q g) : Bodied Q (updateGameState g) := by
  have hfits := h.level
  unfold OperationMinix.updateGameState
  split
  · next hst =>
    rw [hst] at hfits
    split_ifs
    · exact leave (s := .loseGame) ⟨nofun, nofun⟩ rfl (Or.inl hfits)
    · exact leave (s := .winGame) ⟨nofun, nofun⟩ rfl (Or.inl hfits)
    · exact h
  · next hst =>
    rw [hst] at hfits
    dsimp only
    split_ifs
    · exact leave (s := .loseGame) ⟨nofun, nofun⟩ rfl (Or.inr hfits)
    · exact leave (s := .winGame) ⟨nofun, nofun⟩ rfl (Or.inr hfits)
    · exact h
  · exact leave (s := .mainMenu) ⟨nofun, nofun⟩ rfl trivial
  · next hst =>
    rw [hst] at hfits
    exact leave (s := .loseGame) ⟨nofun, nofun⟩ rfl (Or.inr hfits)
  · exact h

/-- **One tick.** -/
theorem gameHandler (hQ : BodyRule c Q) (h : Bodied Q g) {t : Tick K}
    (hg : gameHandler c t g = .ok g') : Bodied Q g' := by
  obtain ⟨b, hb, rfl⟩ := gameHandler_ok hg
  obtain ⟨p, hp, rfl⟩ := beforeUpdate_ok hb
  have hdrawn := ((h.receiveStage.playStage hQ hp).sendStage).display hQ
  refine updateGameState ⟨hdrawn.level, fun hplay => ?_⟩
  exact hQ.mouse _ _ 0 (hdrawn.body hplay)

/-- **One step of the program.** -/
theorem step (hQ : BodyRule c Q) (h : Bodied Q g) {i : GameInput K}
    (hg : (gameMachine c).step g i = some g') : Bodied Q g' := by
  have hstep := hg
  simp only [gameMachine] at hg
  split at hg
  · cases hg
  · cases i with
    | mouse pos lb desl =>
      cases hg
      exact ⟨h.level, fun hplay => hQ.mouse _ _ _ (h.body hplay)⟩
    | kbd k =>
      cases hg
      exact ⟨h.level, fun hplay => hQ.key _ _ k (h.body hplay)⟩
    | recv e =>
      cases hg
      exact h.congr rfl rfl ⟨rfl, rfl⟩
    | rtc cause =>
      cases hg
      unfold rtcIh
      split_ifs <;> exact h.congr rfl rfl ⟨rfl, rfl⟩
    | tick t =>
      have hclock : Bodied Q (timerIntHandler g) := h.congr rfl rfl ⟨rfl, rfl⟩
      exact hclock.gameHandler hQ (gameHandler_of_tick hstep)

end Bodied

/-- **What the starts have, and the keys, the mouse and a step keep, holds in every game**: in
every state of every run of the program in which a game is on. -/
theorem body_always {Q : GameMap → Body K → Prop} (hQ : BodyRule c Q) {P : Game K → Prop}
    (hP : ∀ g, Q g.world.map g.world.player.body → P g) (w : World K) (rtc : Rtc)
    (is : List (GameInput K)) :
    (gameMachine c).Always (fun g => Playing g → P g) (Game.start w rtc) is :=
  Machine.always_of_step (J := Bodied Q) (fun g h hplay => hP g (h.body hplay))
    (fun _ _ _ h hg => h.step hQ hg) is (Bodied.leave (s := .mainMenu) ⟨nofun, nofun⟩ rfl trivial)

end Model

end OperationMinix
