import OperationMinix.Lib.VideoGraphics
import OperationMinix.Player.Ledger

/-!
# Health and armour

A bullet takes half of its damage from the armour, truncated towards zero, and the rest from
the health when the armour breaks; medkits and armour are cut at the maximum.  So both stay
between zero and their maximum, and the colour of the bar over a player is one of the six.

## Main definitions

* `Vitals` — health and armour are in range.
* `Everybody` — what holds of all players.
* `vitalsMachine` — shots, pickups, and everything else that happens to the players.
* `healthIdx` — the colour of the bar over a player.

## Main results

* `Vitals.hurt`, `Vitals.pickupHandler` — what a bullet and a pickup keep.
* `vitals_in_range` — **health and armour stay in range**, whoever shoots and picks up what.
-/

namespace OperationMinix

open Runs

set_option linter.unusedSectionVars false

/-! ### The bar over a player -/

/-- `health_colors`. -/
def healthColors : List Color := [0xff0d0d, 0xff4e11, 0xff8e15, 0xfab733, 0xacb334, 0x69b34c]

/-- `health_idx` of `render_player`. -/
def healthIdx (health maxHealth : ℤ) : ℤ :=
  let healthIdx := ⌈6 * (health : ℚ) / maxHealth⌉ - 1
  if healthIdx < 0 then 0 else healthIdx

theorem healthIdx_lt {health maxHealth : ℤ} (hle : health ≤ maxHealth) (hpos : 0 < maxHealth) :
    0 ≤ healthIdx health maxHealth ∧ healthIdx health maxHealth < healthColors.length := by
  have hmax : (0 : ℚ) < maxHealth := by exact_mod_cast hpos
  have hquot : 6 * (health : ℚ) / maxHealth ≤ (6 : ℤ) := by
    rw [div_le_iff₀ hmax]
    have hcast : (health : ℚ) ≤ maxHealth := by exact_mod_cast hle
    push_cast
    linarith
  have hceil := Int.ceil_le.mpr hquot
  unfold healthIdx
  dsimp only
  show _ ∧ _ < (6 : ℤ)
  split <;> omega

section

variable {K : Type*} [Field K] [LinearOrder K] [FloorRing K]

/-! ### One player -/

/-- Health and armour are in range. -/
structure Vitals (p : PlayerInfo K) : Prop where
  health_nonneg : 0 ≤ p.health
  health_le : p.health ≤ p.maxHealth
  armor_nonneg : 0 ≤ p.armor
  armor_le : p.armor ≤ p.maxArmor
  maxHealth_pos : 0 < p.maxHealth
  maxArmor_pos : 0 < p.maxArmor

/-- No gun of the player heals. -/
def GunsHurt (p : PlayerInfo K) : Prop := ∀ g ∈ p.guns, 0 ≤ g.gun.damage

/-- Half of the damage, taken from the armour and truncated, does not make it more. -/
theorem truncate_armor_le {armor damage : ℤ} (harmor : 0 ≤ armor) (hdamage : 0 ≤ damage) :
    truncate ((armor : ℚ) - 1 / 2 * damage) ≤ armor := by
  have hd : (0 : ℚ) ≤ damage := by exact_mod_cast hdamage
  unfold truncate
  split
  · refine Int.floor_le_iff.mpr ?_
    linarith
  · next hneg =>
    have hfloor : 0 ≤ ⌊-((armor : ℚ) - 1 / 2 * damage)⌋ := Int.floor_nonneg.mpr (by linarith)
    omega

namespace Vitals

variable {p q : PlayerInfo K}

theorem congr (h : Vitals p) (hhealth : q.health = p.health) (harmor : q.armor = p.armor)
    (hmaxHealth : q.maxHealth = p.maxHealth) (hmaxArmor : q.maxArmor = p.maxArmor) : Vitals q := by
  constructor
  · rw [hhealth]; exact h.health_nonneg
  · rw [hhealth, hmaxHealth]; exact h.health_le
  · rw [harmor]; exact h.armor_nonneg
  · rw [harmor, hmaxArmor]; exact h.armor_le
  · rw [hmaxHealth]; exact h.maxHealth_pos
  · rw [hmaxArmor]; exact h.maxArmor_pos

/-- The health after a hit of which nothing is kept off. -/
theorem lose (h : Vitals p) {damage : ℤ} (hdamage : 0 ≤ damage) :
    Vitals { p with health := max (p.health - damage) 0 } := by
  have hle := h.health_le
  have hpos := h.maxHealth_pos
  refine ⟨Int.le_max_right _ _, ?_, h.armor_nonneg, h.armor_le, hpos, h.maxArmor_pos⟩
  show max (p.health - damage) 0 ≤ p.maxHealth
  omega

/-- **A bullet.** -/
theorem hurt (h : Vitals p) {damage : ℤ} (hdamage : 0 ≤ damage) : Vitals (hurt damage p) := by
  have hle := truncate_armor_le h.armor_nonneg hdamage
  have harmor := h.armor_le
  unfold OperationMinix.hurt
  dsimp only
  split_ifs with hworn hbreaks
  · -- the armour breaks, and passes on what it could not take
    have hbroken : Vitals { p with armor := 0 } :=
      ⟨h.health_nonneg, h.health_le, Int.le_refl 0, h.maxArmor_pos.le, h.maxHealth_pos,
        h.maxArmor_pos⟩
    exact hbroken.lose (by omega)
  · exact ⟨h.health_nonneg, h.health_le, Int.not_lt.mp hbreaks, hle.trans harmor, h.maxHealth_pos,
      h.maxArmor_pos⟩
  · exact h.lose hdamage

theorem topUp_range (amount : ℕ) {limit value : ℤ} (hvalue : 0 ≤ value) (hlimit : value ≤ limit) :
    0 ≤ (topUp amount limit value).2 ∧ (topUp amount limit value).2 ≤ limit := by
  unfold topUp
  split
  · exact ⟨hvalue, hlimit⟩
  · dsimp only
    omega

/-- **A pickup.** -/
theorem pickupHandler (h : Vitals p) (d : PickupDetails) : Vitals (pickupHandler d p).2 := by
  cases d with
  | ammo packets ammoIndex => exact h.congr rfl rfl rfl rfl
  | medkit health =>
    obtain ⟨hnonneg, hle⟩ := topUp_range health h.health_nonneg h.health_le
    exact ⟨hnonneg, hle, h.armor_nonneg, h.armor_le, h.maxHealth_pos, h.maxArmor_pos⟩
  | armor armor =>
    obtain ⟨hnonneg, hle⟩ := topUp_range armor h.armor_nonneg h.armor_le
    exact ⟨h.health_nonneg, h.health_le, hnonneg, hle, h.maxHealth_pos, h.maxArmor_pos⟩

end Vitals

namespace GunsHurt

variable {p q : PlayerInfo K}

/-- A change to one gun. -/
theorem modify (h : GunsHurt p) {i : ℕ} {f : GunInstance → GunInstance}
    (hguns : q.guns = p.guns.modify i f) (hf : ∀ g ∈ p.guns[i]?, 0 ≤ (f g).gun.damage) :
    GunsHurt q := by
  intro g hg
  rw [hguns] at hg
  obtain ⟨j, hj⟩ := List.mem_iff_getElem?.mp hg
  have hall := forall_modify (l := p.guns) (i := i) (f := f) (Q := fun _ g => 0 ≤ g.gun.damage) hf
    (fun k _ x hx => h x (List.mem_of_getElem? hx))
  exact hall j g hj

theorem congr (h : GunsHurt p) (hguns : q.guns = p.guns) : GunsHurt q := by
  intro g hg
  rw [hguns] at hg
  exact h g hg

theorem modify_same (h : GunsHurt p) {i : ℕ} {f : GunInstance → GunInstance}
    (hguns : q.guns = p.guns.modify i f) (hf : ∀ g, (f g).gun = g.gun) : GunsHurt q :=
  h.modify hguns fun g hg => by rw [hf]; exact h g (List.mem_of_getElem? hg)

theorem gunInHand (h : GunsHurt p) : 0 ≤ p.gunInHand.gun.damage := by
  unfold PlayerInfo.gunInHand PlayerInfo.gunAt
  rw [List.getD_eq_getElem?_getD]
  cases hg : p.guns[p.gunIndex]? with
  | none => exact Int.le_refl 0
  | some g => exact h g (List.mem_of_getElem? hg)

theorem switchGun (h : GunsHurt p) (index : ℕ) : GunsHurt (switchGun index p) := by
  unfold OperationMinix.switchGun
  split
  · have haway : GunsHurt { p with guns := p.guns.modify p.gunIndex fun g =>
        { g with state := .inventory } } := h.modify_same rfl fun _ => rfl
    exact haway.modify_same rfl fun _ => rfl
  · exact h

theorem steer (h : GunsHurt p) (l : Libm K) (m : GameMap) : GunsHurt (steer l m p) := by
  obtain ⟨index, -, hguns⟩ := chosen_eq_switchGun p
  exact (h.switchGun index).congr ((steer_guns l m p).2.trans hguns)

theorem pickupHandler (h : GunsHurt p) (d : PickupDetails) : GunsHurt (pickupHandler d p).2 := by
  cases d with
  | ammo packets ammoIndex =>
    obtain ⟨i, hi⟩ := pickupAmmo_guns packets ammoIndex p
    exact h.modify_same hi fun g => (SameTiming.restock packets ammoIndex g).gun
  | medkit health => exact h.congr rfl
  | armor armor => exact h.congr rfl

end GunsHurt

/-- A player in range whose guns do not heal. -/
structure Sound (p : PlayerInfo K) : Prop where
  vitals : Vitals p
  guns : GunsHurt p

/-! ### Everybody -/

/-- It holds of the local player and of all enemies. -/
structure Everybody (P : PlayerInfo K → Prop) (w : World K) : Prop where
  player : P w.player
  enemies : ∀ p ∈ w.enemies, P p

namespace Everybody

variable {P Q : PlayerInfo K → Prop} {w v : World K}

theorem imp (h : Everybody P w) (hPQ : ∀ p, P p → Q p) : Everybody Q w :=
  ⟨hPQ _ h.player, fun p hp => hPQ p (h.enemies p hp)⟩

theorem congr (h : Everybody P w) (hplayer : v.player = w.player)
    (henemies : v.enemies = w.enemies) : Everybody P v :=
  ⟨by rw [hplayer]; exact h.player, by rw [henemies]; exact h.enemies⟩

theorem get (h : Everybody P w) {r : PlayerRef} (hr : w.Valid r) : P (w.get r) := by
  cases r with
  | player => exact h.player
  | enemy i =>
    have hi : i < w.enemies.length := hr
    have hget : w.get (.enemy i) = w.enemies[i] := by simp [World.get, List.getD, hi]
    rw [hget]
    exact h.enemies _ (List.getElem_mem hi)

/-- A change to one player. -/
theorem modify (h : Everybody P w) (r : PlayerRef) {f : PlayerInfo K → PlayerInfo K}
    (hf : w.Valid r → P (w.get r) → P (f (w.get r))) : Everybody P (w.modify r f) := by
  by_cases hr : w.Valid r
  · have hself := hf hr (h.get hr)
    rw [← World.get_modify_self hr f] at hself
    cases r with
    | player => exact ⟨hself, h.enemies⟩
    | enemy i =>
      refine ⟨h.player, fun p hp => ?_⟩
      obtain ⟨j, hj⟩ := List.mem_iff_getElem?.mp hp
      have hlt : j < w.enemies.length := by
        have hlen := (List.getElem?_eq_some_iff.mp hj).1
        rwa [World.enemies_length_modify w (.enemy i) f] at hlen
      have hget : (w.modify (.enemy i) f).get (.enemy j) = p := by
        simp [World.get, List.getD, hj]
      by_cases hij : j = i
      · subst hij
        rwa [hget] at hself
      · rw [World.get_modify_of_ne (by simp [hij])] at hget
        rw [← hget]
        exact h.get (r := .enemy j) hlt
  · rw [World.modify_of_not_valid hr]
    exact h

end Everybody

/-! ### What happens to the players -/

variable {w : World K}

/-- Bullets do not heal, whoever fires them. -/
theorem damage_nonneg (h : Everybody Sound w) (r : PlayerRef) :
    0 ≤ (w.get r).gunInHand.gun.damage := by
  by_cases hr : w.Valid r
  · exact (h.get hr).guns.gunInHand
  · cases r with
    | player => exact absurd trivial hr
    | enemy i =>
      have hi : w.enemies.length ≤ i := Nat.le_of_not_lt hr
      have hget : w.get (.enemy i) = .zero := by simp [World.get, List.getD, hi]
      rw [hget]
      exact Int.le_refl 0

namespace Everybody

theorem bullet (h : Everybody Sound w) (e : Env K) (ref : PlayerRef) (i : ℕ) :
    Everybody Sound (bullet e ref i w) := by
  have hdamage := damage_nonneg h ref
  rw [bullet_eq]
  cases followed e ref i w with
  | none => exact h
  | some target =>
    cases target with
    | none => exact h.congr rfl rfl
    | some r =>
      refine h.modify r fun _ hp => ⟨hp.vitals.hurt hdamage, ?_⟩
      obtain ⟨health, armor, hget⟩ := Wounded.hurt ((w.get ref).gunInHand.gun.damage) (w.get r)
      exact hp.guns.congr (by rw [show (w.get ref).gunAt (w.get ref).gunIndex =
        (w.get ref).gunInHand from rfl, hget])

/-- A change to the gun in hand that keeps the kind of the gun. -/
theorem modifyGun (h : Everybody Sound w) (ref : PlayerRef) {f : GunInstance → GunInstance}
    (hf : ∀ g, (f g).gun = g.gun) : Everybody Sound (w.modify ref fun p => p.modifyGun f) :=
  h.modify ref fun _ hp => ⟨hp.vitals.congr rfl rfl rfl rfl, hp.guns.modify_same rfl hf⟩

theorem fireLoop (e : Env K) (ref : PlayerRef) : ∀ (n i : ℕ) (w : World K), Everybody Sound w →
    Everybody Sound (fireLoop e ref n i w) := by
  intro n
  induction n with
  | zero => intro i w h; exact h
  | succ n ih =>
    intro i w h
    rw [OperationMinix.fireLoop]
    split
    · exact ih (i + 1) _ ((h.bullet e ref i).modifyGun ref fun _ => rfl)
    · exact h

/-- **A shot.** -/
theorem fire (h : Everybody Sound w) (e : Env K) (ref : PlayerRef) :
    Everybody Sound (fire e ref w).2 := by
  unfold OperationMinix.fire
  dsimp only
  split
  · exact h
  · exact fireLoop e ref _ _ _ (h.modifyGun ref fun _ => rfl)

theorem pickUp (h : Everybody Sound w) (ref : PlayerRef) : Everybody Sound (pickUp ref w) := by
  unfold OperationMinix.pickUp
  dsimp only
  split
  · refine (h.modify ref fun _ hp => ?_).congr rfl rfl
    unfold pickupIndex
    split
    · exact hp
    · exact ⟨hp.vitals.pickupHandler _, hp.guns.pickupHandler _⟩
  · exact h

/-- The end of a tick. -/
theorem finishTick (h : Everybody Sound w) (ref : PlayerRef) (shot : Bool) :
    Everybody Sound (finishTick ref shot w) := by
  have hanim : Everybody Sound (w.modify ref (animate w.timeCounter shot)) := by
    refine h.modify ref fun _ hp => ?_
    unfold animate
    split
    · exact hp
    · exact ⟨hp.vitals.congr rfl rfl rfl rfl, hp.guns.congr rfl⟩
  refine (hanim.modify ref fun _ hp => ⟨hp.vitals.congr rfl rfl rfl rfl, ?_⟩).congr rfl rfl
  refine hp.guns.modify rfl fun _ _ => ?_
  have hgun : ∀ (b : Bool) (g : GunInstance),
      (if b then { g with currAnim := 0 } else g).gun = g.gun := by
    intro b g
    cases b <;> rfl
  unfold updateGunState
  dsimp only
  rw [gunTransition_gun, hgun]
  exact hp.guns.gunInHand

/-- **A tick** of any player. -/
theorem tick (h : Everybody Sound w) (e : Env K) (ref : PlayerRef) :
    Everybody Sound (playerIntIh e ref w) := by
  have hsteer : Everybody Sound (w.modify ref (steer e.libm w.map)) := by
    refine h.modify ref fun _ hp => ⟨?_, hp.guns.steer _ _⟩
    obtain ⟨_, _, _, _, _, _, heq⟩ := steer_eq e.libm w.map (w.get ref)
    rw [heq]
    exact hp.vitals.congr rfl rfl rfl rfl
  have htrigger : Everybody Sound (atTrigger e ref w) := hsteer.pickUp ref
  have hshoot : Everybody Sound (shoot e ref (atTrigger e ref w)).2 := by
    unfold shoot
    split
    · exact htrigger.fire e ref
    · exact htrigger
  rw [playerIntIh_eq]
  exact hshoot.finishTick ref _

end Everybody

/-- What happens to the players: shots and pickups, and everything else. -/
inductive VitalsInput (K : Type*) where
  /-- `fire` of any player. -/
  | shot (e : Env K) (ref : PlayerRef)
  /-- A pickup of any kind and amount, for any player. -/
  | take (ref : PlayerRef) (details : PickupDetails)
  | life (input : ArsenalInput K)

/-- A player that a level sets up: in range, with guns that do not heal. -/
structure PlayerSetup.InRange (a : PlayerSetup K) : Prop where
  health : 0 ≤ a.health ∧ a.health ≤ a.maxHealth ∧ 0 < a.maxHealth
  armor : 0 ≤ a.armor ∧ a.armor ≤ a.maxArmor ∧ 0 < a.maxArmor
  guns : ∀ g ∈ a.guns, 0 ≤ g.gun.damage

instance (a : PlayerSetup K) : Decidable a.InRange :=
  decidable_of_iff ((0 ≤ a.health ∧ a.health ≤ a.maxHealth ∧ 0 < a.maxHealth) ∧
    (0 ≤ a.armor ∧ a.armor ≤ a.maxArmor ∧ 0 < a.maxArmor) ∧ ∀ g ∈ a.guns, 0 ≤ g.gun.damage)
    ⟨fun h => ⟨h.1, h.2.1, h.2.2⟩, fun h => ⟨h.health, h.armor, h.guns⟩⟩

/-- The life of all players. -/
def vitalsMachine : Machine (World K) (VitalsInput K) where
  step w
    | .shot e ref => some (fire e ref w).2
    | .take ref details => some (w.modify ref fun p => (pickupHandler details p).2)
    | .life (.stock map gunAnims pickups) => some { w with map, gunAnims, pickups }
    | .life (.create l fov a) => if a.InRange then some (initPlayer l fov a w) else none
    | .life input => (arsenalMachine .player).step w input

/-- A player that has just been created. -/
theorem sound_newPlayer {a : PlayerSetup K} (ha : a.InRange) (l : Libm K) (fov : ℤ) :
    Sound (newPlayer l fov a) := by
  obtain ⟨hhealth, hhealthLe, hhealthPos⟩ := ha.health
  obtain ⟨harmor, harmorLe, harmorPos⟩ := ha.armor
  refine ⟨⟨hhealth, hhealthLe, harmor, harmorLe, hhealthPos, harmorPos⟩, ?_⟩
  have hguns : GunsHurt { (PlayerInfo.zero : PlayerInfo K) with guns := a.guns } := ha.guns
  refine hguns.modify rfl fun g hg => ?_
  have hdamage : (firstGun a.type g).gun.damage = g.gun.damage := by
    unfold firstGun
    dsimp only
    split <;> rfl
  rw [hdamage]
  exact ha.guns g (List.mem_of_getElem? hg)

/-- **One step** in the life of the players. -/
theorem Everybody.step {v : World K} {input : VitalsInput K} (h : Everybody Sound w)
    (hstep : vitalsMachine.step w input = some v) : Everybody Sound v := by
  cases input with
  | shot e ref =>
    cases hstep
    exact h.fire e ref
  | take ref details =>
    cases hstep
    exact h.modify ref fun _ hp => ⟨hp.vitals.pickupHandler _, hp.guns.pickupHandler _⟩
  | life input =>
    cases input with
    | tick e r =>
      obtain ⟨-, hv⟩ := Option.ite_none_right_eq_some.mp hstep
      exact Option.some.inj hv ▸ h.tick e r
    | control r movm position direction =>
      cases hstep
      exact h.modify r fun _ hp => ⟨hp.vitals.congr rfl rfl rfl rfl, hp.guns.congr rfl⟩
    | clock timeCounter => cases hstep; exact h.congr rfl rfl
    | screen state invMenu => cases hstep; exact h.congr rfl rfl
    | chooseGun r index =>
      cases hstep
      refine h.modify r fun _ hp => ⟨?_, hp.guns.switchGun index⟩
      unfold switchGun
      split
      · exact hp.vitals.congr rfl rfl rfl rfl
      · exact hp.vitals
    | stock map gunAnims pickups => cases hstep; exact h.congr rfl rfl
    | create l fov a =>
      obtain ⟨ha, hv⟩ := Option.ite_none_right_eq_some.mp hstep
      obtain rfl := Option.some.inj hv
      have hnew := sound_newPlayer ha l fov
      unfold initPlayer
      split
      · exact ⟨hnew, h.enemies⟩
      · refine ⟨h.player, fun p hp => ?_⟩
        rcases List.mem_append.mp hp with hp | hp
        · exact h.enemies p hp
        · rw [List.mem_singleton.mp hp]
          exact hnew

/-- **Health and armour stay in range.**  If they are for every player, and no gun has a
negative damage, then they are after any run of shots and pickups by any players, and the
colour of the bar over a player is always one of the six. -/
theorem vitals_in_range (w : World K) (hvitals : Everybody Vitals w) (hguns : Everybody GunsHurt w)
    (is : List (VitalsInput K)) :
    vitalsMachine.Always (Everybody fun p => Vitals p ∧ 0 ≤ healthIdx p.health p.maxHealth ∧
      healthIdx p.health p.maxHealth < healthColors.length) w is := by
  have hsound : Everybody Sound w :=
    ⟨⟨hvitals.player, hguns.player⟩, fun p hp => ⟨hvitals.enemies p hp, hguns.enemies p hp⟩⟩
  refine Machine.always_of_step (fun v hv => hv.imp fun p hp => ⟨hp.vitals, ?_⟩)
    (fun v i u hv hu => Everybody.step hv hu) is hsound
  exact healthIdx_lt hp.vitals.health_le hp.vitals.maxHealth_pos

end

/-- A player in range and an enemy that shoot at each other, and take a medkit. -/
theorem vitals_in_range_duel :
    vitalsMachine.Always (Everybody fun p => Vitals p ∧ 0 ≤ healthIdx p.health p.maxHealth ∧
        healthIdx p.health p.maxHealth < healthColors.length)
      (initPlayer openField.libm 66 replicaSetup (initPlayer openField.libm 66 duelist emptyWorld))
      [.shot openField .player, .shot openField (.enemy 0), .take .player (.medkit 50)] := by
  have hplayer : Sound (newPlayer openField.libm 66 duelist) :=
    sound_newPlayer (by decide) openField.libm 66
  have hreplica : ∀ p ∈ [newPlayer openField.libm 66 replicaSetup], Sound p := by
    intro p hp
    rw [List.mem_singleton.mp hp]
    exact sound_newPlayer (by decide) openField.libm 66
  exact vitals_in_range _ ⟨hplayer.vitals, fun p hp => (hreplica p hp).vitals⟩
    ⟨hplayer.guns, fun p hp => (hreplica p hp).guns⟩ _

end OperationMinix
