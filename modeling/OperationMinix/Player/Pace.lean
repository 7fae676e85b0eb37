import OperationMinix.Player.Arsenal

/-!
# The rate of fire

The delay between two shots of a gun is kept by its state and the tick of its last
operation.  A gun that is put away forgets both: when it is taken in hand again it is
`INITIAL`, and only has to be charged.  A gun whose cooldown is longer than its charge may
so be fired again before the cooldown is over.

## Main definitions

* `fireMachine` — the ticks of a player, with anything in between, and a record of its
  shots.
* `RateLimited` — any two shots of one gun are apart by a number of ticks.
* `RestedSwitch` — no gun with a bullet left is taken in hand again before its cooldown would be
  over when it is charged.

## Main results

* `HoldsFire.tick` — what every state of a gun keeps back, tick by tick.
* `rate_limited` — **the cooldown is kept** in every run with such changes of guns.
* `rate_bounded` — in every run, shots are apart by the cooldown or by the time of a change
  and a charge.
-/

namespace OperationMinix

open Runs

set_option linter.unusedSectionVars false

/-! ### What a state keeps back -/

/-- The earliest tick, counted from a gun being taken in hand in that tick, in which it fires. -/
def Gun.warmUp (g : Gun) : ℕ := max g.chargeTime 1 + 1

/-- After tick `t`, a gun in hand does not fire before tick `next`. -/
def HoldsFire (next t : ℕ) (g : GunInstance) : Prop :=
  match g.state with
  | .inventory => True
  -- without a bullet it has to be reloaded before it is charged
  | .initial => g.currAmmo = 0 ∨ next ≤ t + 1 + g.gun.warmUp
  | .charging => next ≤ max (g.lastOpTick + g.gun.chargeTime) (t + 1) + 1
  | .ready => next ≤ t + 1
  | .cooldown => next ≤ g.lastOpTick + g.gun.cooldownTime + 1
  | .reloading => next ≤ g.lastOpTick + g.gun.reloadTime + 1
  | .noAmmo => True

theorem HoldsFire.mono {next next' t : ℕ} {g : GunInstance} (h : HoldsFire next t g)
    (hle : next' ≤ next) : HoldsFire next' t g := by
  unfold HoldsFire at h ⊢
  split at h <;> first | trivial | omega

/-- The two guns are alike for the clock, and the second one is empty if the first one is. -/
structure SameTiming (g g' : GunInstance) : Prop where
  gun : g'.gun = g.gun
  state : g'.state = g.state
  lastOpTick : g'.lastOpTick = g.lastOpTick
  empty : g.currAmmo = 0 → g'.currAmmo = 0

namespace SameTiming

variable {g g' g'' : GunInstance}

theorem refl (g : GunInstance) : SameTiming g g := ⟨rfl, rfl, rfl, id⟩

theorem trans (h : SameTiming g g') (h' : SameTiming g' g'') : SameTiming g g'' :=
  ⟨h'.gun.trans h.gun, h'.state.trans h.state, h'.lastOpTick.trans h.lastOpTick,
    fun h0 => h'.empty (h.empty h0)⟩

theorem holdsFire (h : SameTiming g g') {next t : ℕ} (hg : HoldsFire next t g) :
    HoldsFire next t g' := by
  unfold HoldsFire at hg ⊢
  rw [h.gun, h.state, h.lastOpTick]
  split
  case h_2 hst =>
    rw [hst] at hg
    exact hg.imp_left h.empty
  all_goals
    next hst =>
    rw [hst] at hg
    exact hg

theorem restock (packets ammoIndex : ℕ) (g : GunInstance) :
    SameTiming g (restock packets ammoIndex g) := by
  unfold OperationMinix.restock
  split <;> exact ⟨rfl, rfl, rfl, id⟩

end SameTiming

/-- **A tick without a shot.**  What is kept back is not forgotten, as long as a reload that
begins now would keep it back as well. -/
theorem HoldsFire.tick {next t : ℕ} {g : GunInstance} (h : HoldsFire next t g)
    (hnext : next ≤ t + g.gun.reloadTime + 1) :
    HoldsFire next (t + 1) (gunTransition (t + 1) false g) := by
  unfold HoldsFire at h
  unfold gunTransition
  cases hst : g.state with
  | inventory => simp [HoldsFire, hst]
  | initial =>
    rw [hst] at h
    dsimp only [Gun.warmUp] at h ⊢
    split_ifs
    · show next ≤ t + 1 + g.gun.reloadTime + 1
      omega
    · trivial
    · show next ≤ max (t + 1 + g.gun.chargeTime) (t + 1 + 1) + 1
      omega
  | charging =>
    rw [hst] at h
    dsimp only at h ⊢
    split_ifs
    · show next ≤ t + 1 + 1
      omega
    · simp only [HoldsFire, hst]
      omega
  | ready =>
    rw [hst] at h
    simp only [Bool.false_eq_true, if_false] at h ⊢
    split_ifs
    · show next ≤ t + 1 + g.gun.reloadTime + 1
      omega
    · trivial
    · simp only [HoldsFire, hst]
      omega
  | cooldown =>
    rw [hst] at h
    dsimp only at h ⊢
    split_ifs
    · show next ≤ t + 1 + 1
      omega
    · simp only [HoldsFire, hst]
      exact h
  | reloading =>
    rw [hst] at h
    dsimp only at h ⊢
    split_ifs
    · show next ≤ t + 1 + 1
      omega
    · simp only [HoldsFire, hst]
      exact h
  | noAmmo =>
    dsimp only
    split_ifs
    · show next ≤ t + 1 + g.gun.reloadTime + 1
      omega
    · simp [HoldsFire, hst]

/-- **A shot** in tick `t` is followed by a cooldown, or by a reload. -/
theorem holdsFire_of_shot {gap : ℕ} (t : ℕ) {g : GunInstance} (hst : g.state = .ready)
    (hcooldown : gap ≤ g.gun.cooldownTime) (hreload : gap ≤ g.gun.reloadTime + 1) :
    HoldsFire (t + gap) t (gunTransition t true g) := by
  unfold gunTransition
  simp only [hst, if_true]
  split_ifs
  · show t + gap ≤ t + g.gun.reloadTime + 1
    omega
  · trivial
  · show t + gap ≤ t + g.gun.cooldownTime + 1
    omega

section

variable {K : Type*} [Field K] [LinearOrder K] [FloorRing K]

/-! ### The guns in a tick -/

/-- The same gun is in hand, and all guns are alike for the clock. -/
structure Alike (p q : PlayerInfo K) : Prop where
  gunIndex : q.gunIndex = p.gunIndex
  guns : ∀ i, SameTiming (p.gunAt i) (q.gunAt i)

namespace Alike

variable {p q r : PlayerInfo K}

theorem trans (h : Alike p q) (h' : Alike q r) : Alike p r :=
  ⟨h'.gunIndex.trans h.gunIndex, fun i => (h.guns i).trans (h'.guns i)⟩

theorem of_eq (hindex : q.gunIndex = p.gunIndex) (hguns : q.guns = p.guns) : Alike p q := by
  refine ⟨hindex, fun i => ?_⟩
  unfold PlayerInfo.gunAt
  rw [hguns]
  exact .refl _

theorem inHand (h : Alike p q) : SameTiming p.gunInHand q.gunInHand := by
  have hgun := h.guns p.gunIndex
  unfold PlayerInfo.gunInHand
  rw [h.gunIndex]
  exact hgun

/-- A change to one gun that the clock does not see. -/
theorem modify (hindex : q.gunIndex = p.gunIndex) {i : ℕ} {f : GunInstance → GunInstance}
    (hguns : q.guns = p.guns.modify i f) (hf : ∀ g, SameTiming g (f g)) : Alike p q := by
  refine ⟨hindex, fun j => ?_⟩
  unfold PlayerInfo.gunAt
  rw [hguns, getD_modify]
  split
  · exact hf _
  · exact .refl _

theorem wounded (h : Wounded p q) : Alike p q := by
  obtain ⟨health, armor, rfl⟩ := h
  exact of_eq rfl rfl

theorem supplied {s : PickupStore K} (h : Supplied s p q) : Alike p q := by
  obtain ⟨health, armor, guns, rfl, rfl | ⟨-, -, packets, ammoIndex, i, -, rfl⟩⟩ := h
  · exact of_eq rfl rfl
  · exact modify rfl rfl (SameTiming.restock packets ammoIndex)

theorem fired (k : ℕ) (p : PlayerInfo K) : Alike p (spend k (startFireAnim p)) := by
  have hstart : Alike p (startFireAnim p) := modify rfl rfl fun g => ⟨rfl, rfl, rfl, id⟩
  refine hstart.trans (modify rfl rfl fun g => ⟨rfl, rfl, rfl, fun h0 => ?_⟩)
  show g.currAmmo - k = 0
  rw [h0, Nat.zero_sub]

end Alike

/-- The player after it has looked at its number keys; a bot has none. -/
def chosen (p : PlayerInfo K) : PlayerInfo K := if p.type = .bot then p else numberKeys p

/-- A tick begins with the choice of the gun. -/
theorem steer_guns (l : Libm K) (m : GameMap) (p : PlayerInfo K) :
    (steer l m p).gunIndex = (chosen p).gunIndex ∧ (steer l m p).guns = (chosen p).guns := by
  obtain ⟨position, direction, cameraPlane, movm, hmove⟩ := move_turn_eq l m p
  have hturn := SameControls.turn l p
  have hcontrols := hturn.trans (SameControls.move l m (turn l p))
  have hguns : (move l m (turn l p)).guns = p.guns := by rw [hmove]
  unfold steer chosen
  dsimp only
  rw [hcontrols.type]
  split
  · exact ⟨hcontrols.gunIndex, hguns⟩
  · obtain ⟨movm', hupdate⟩ := updatePlayerControls_eq (numberKeys (move l m (turn l p)))
    obtain ⟨hkeys, hindex⟩ := numberKeys_guns hcontrols.kbdState hguns hcontrols.gunIndex
    rw [hupdate]
    exact ⟨hindex, hkeys⟩

theorem alike_steer (l : Libm K) (m : GameMap) (p : PlayerInfo K) :
    Alike (chosen p) (steer l m p) :=
  .of_eq (steer_guns l m p).1 (steer_guns l m p).2

/-- The choice is a change of the gun, to the one in hand if no key is pressed. -/
theorem chosen_eq_switchGun (p : PlayerInfo K) :
    ∃ index, (chosen p).gunIndex = (switchGun index p).gunIndex ∧
      (chosen p).guns = (switchGun index p).guns := by
  have hsame : ∃ index, p.gunIndex = (switchGun index p).gunIndex ∧
      p.guns = (switchGun index p).guns := by
    refine ⟨p.gunIndex, ?_⟩
    unfold switchGun
    rw [if_neg (not_not.mpr rfl)]
    exact ⟨rfl, rfl⟩
  unfold chosen
  split
  · exact hsame
  · unfold numberKeys
    split
    · exact hsame
    · next i _ =>
      refine ⟨i - 1, ?_⟩
      unfold takeNumberKey switchGun
      dsimp only
      split <;> exact ⟨rfl, rfl⟩

/-- A change of the gun changes the state of a gun, and no more of it. -/
theorem gunAt_switchGun (index : ℕ) (p : PlayerInfo K) (i : ℕ) :
    ∃ state, (switchGun index p).gunAt i = { p.gunAt i with state } := by
  have hmodify : ∀ (l : List GunInstance) (j : ℕ) (s : GunState), ∃ state,
      (l.modify j fun g => { g with state := s }).getD i .zero =
        { l.getD i .zero with state } := by
    intro l j s
    rw [getD_modify]
    split
    · exact ⟨s, rfl⟩
    · exact ⟨_, rfl⟩
  unfold switchGun PlayerInfo.gunAt
  split
  · obtain ⟨_, hfirst⟩ := hmodify p.guns p.gunIndex .inventory
    obtain ⟨state, hsecond⟩ :=
      hmodify (p.guns.modify p.gunIndex fun g => { g with state := .inventory }) index .initial
    exact ⟨state, by rw [hsecond, hfirst]⟩
  · exact ⟨_, rfl⟩

theorem gun_switchGun (index : ℕ) (p : PlayerInfo K) (i : ℕ) :
    ((switchGun index p).gunAt i).gun = (p.gunAt i).gun := by
  obtain ⟨state, hgun⟩ := gunAt_switchGun index p i
  rw [hgun]

/-- What a tick does to the guns, after the choice of one: the gun in hand advances. -/
structure Ticked (t : ℕ) (shot : Bool) (p q : PlayerInfo K) : Prop where
  gunIndex : q.gunIndex = p.gunIndex
  others : ∀ i, i ≠ p.gunIndex → SameTiming (p.gunAt i) (q.gunAt i)
  inHand : ∃ g, SameTiming p.gunInHand g ∧ SameTiming (gunTransition t shot g) q.gunInHand
  ready : shot = true → p.gunInHand.state = .ready

theorem Alike.ticked {t : ℕ} {shot : Bool} {p q r : PlayerInfo K} (h : Alike p q)
    (h' : Ticked t shot q r) : Ticked t shot p r := by
  obtain ⟨g, hg, htransition⟩ := h'.inHand
  refine ⟨h'.gunIndex.trans h.gunIndex, fun i hi => ?_, ⟨g, h.inHand.trans hg, htransition⟩, ?_⟩
  · exact (h.guns i).trans (h'.others i (by rw [h.gunIndex]; exact hi))
  · intro hshot
    rw [← h.inHand.state]
    exact h'.ready hshot

/-- `update_gun_state` of the gun in hand. -/
theorem Ticked.advance {t : ℕ} {shot anim : Bool} {p : PlayerInfo K}
    (hready : shot = true → p.gunInHand.state = .ready) :
    Ticked t shot p (p.modifyGun fun _ =>
      gunTransition t shot (if anim then { p.gunInHand with currAnim := 0 } else p.gunInHand)) := by
  refine ⟨rfl, fun i hi => ?_, ?_, hready⟩
  · rw [gunAt_modifyGun, if_neg fun h => hi h.1]
    exact .refl _
  · rw [gunInHand_modifyGun]
    split
    · refine ⟨_, ?_, .refl _⟩
      split <;> exact ⟨rfl, rfl, rfl, id⟩
    · next hlt =>
      rw [gunInHand_of_not_lt hlt]
      exact ⟨.zero, .refl _, .refl _⟩

variable {ref : PlayerRef} {w : World K}

/-- The trigger is pulled with the guns as they were chosen. -/
theorem alike_atTrigger (e : Env K) (hr : w.Valid ref) :
    Alike (chosen (w.get ref)) ((atTrigger e ref w).get ref) := by
  have hsupplied := (pickUp_spec (World.valid_modify hr (steer e.libm w.map))).1
  rw [World.get_modify_self hr] at hsupplied
  exact (alike_steer e.libm w.map _).trans (.supplied hsupplied)

/-- The trigger itself. -/
theorem alike_shoot (e : Env K) (hr : w.Valid ref) :
    Alike (w.get ref) ((shoot e ref w).2.get ref) ∧
      ((shoot e ref w).1 = true → (w.get ref).gunInHand.state = .ready) := by
  have hsame : Alike (w.get ref) (w.get ref) := .of_eq rfl rfl
  unfold shoot
  split
  · by_cases hst : (w.get ref).gunInHand.state = .ready
    · exact ⟨(Alike.fired _ _).trans (.wounded (wounded_fire e hr hst)), fun _ => hst⟩
    · rw [fire_not_ready e hst]
      exact ⟨hsame, nofun⟩
  · exact ⟨hsame, nofun⟩

/-- The end of a tick is `update_gun_state` of the gun in hand. -/
theorem get_finishTick (shot : Bool) (hr : w.Valid ref) :
    ∃ (anim : Bool) (p : PlayerInfo K), p.gunIndex = (w.get ref).gunIndex ∧
      p.guns = (w.get ref).guns ∧
      (finishTick ref shot w).get ref = p.modifyGun fun _ => gunTransition w.timeCounter shot
        (if anim then { p.gunInHand with currAnim := 0 } else p.gunInHand) := by
  set v := w.modify ref (animate w.timeCounter shot) with hv
  have hclock : v.timeCounter = w.timeCounter := by cases ref <;> rfl
  have hself : v.get ref = animate w.timeCounter shot (w.get ref) := World.get_modify_self hr _
  obtain ⟨anim, hget⟩ : ∃ anim : Bool, (finishTick ref shot w).get ref =
      (v.get ref).modifyGun fun _ => gunTransition w.timeCounter shot
        (if anim then { (v.get ref).gunInHand with currAnim := 0 } else (v.get ref).gunInHand) := by
    unfold finishTick
    dsimp only
    rw [get_gunAnims, ← hv, World.get_modify_self (World.valid_modify hr _), hclock]
    exact ⟨_, rfl⟩
  refine ⟨anim, v.get ref, ?_, ?_, hget⟩
  · rw [hself]
    exact (SameControls.animate _ _ _).gunIndex
  · rw [hself]
    unfold animate
    split <;> rfl

/-- The end of a tick. -/
theorem ticked_finishTick (shot : Bool) (hr : w.Valid ref)
    (hready : shot = true → (w.get ref).gunInHand.state = .ready) :
    Ticked w.timeCounter shot (w.get ref) ((finishTick ref shot w).get ref) := by
  obtain ⟨anim, p, hindex, hguns, hget⟩ := get_finishTick shot hr
  have halike : Alike (w.get ref) p := .of_eq hindex hguns
  rw [hget]
  refine halike.ticked (.advance fun hshot => ?_)
  rw [halike.inHand.state]
  exact hready hshot

theorem timeCounter_modify (w : World K) (r : PlayerRef) (f : PlayerInfo K → PlayerInfo K) :
    (w.modify r f).timeCounter = w.timeCounter := by
  cases r <;> rfl

theorem timeCounter_atTrigger (e : Env K) (ref : PlayerRef) (w : World K) :
    (atTrigger e ref w).timeCounter = w.timeCounter := by
  unfold atTrigger pickUp
  dsimp only
  split
  · exact (timeCounter_modify _ ref _).trans (timeCounter_modify w ref _)
  · exact timeCounter_modify w ref _

theorem timeCounter_shoot (e : Env K) (hr : w.Valid ref) :
    (shoot e ref w).2.timeCounter = w.timeCounter := by
  unfold shoot
  split
  · by_cases hst : (w.get ref).gunInHand.state = .ready
    · exact (fire_spec e hr hst).timeCounter.trans (timeCounter_modify w ref _)
    · rw [fire_not_ready e hst]
  · rfl

theorem timeCounter_playerIntIh (e : Env K) (hr : w.Valid ref) :
    (playerIntIh e ref w).timeCounter = w.timeCounter := by
  rw [playerIntIh_eq]
  unfold finishTick
  dsimp only
  rw [timeCounter_modify, timeCounter_modify, timeCounter_shoot e (atTrigger_valid e hr),
    timeCounter_atTrigger]

/-- A tick of the player fires. -/
def firesIn (e : Env K) (ref : PlayerRef) (w : World K) : Bool :=
  (shoot e ref (atTrigger e ref w)).1

/-- **One tick**: the keys choose a gun, and the gun in hand advances. -/
theorem ticked_playerIntIh (e : Env K) (hr : w.Valid ref) :
    Ticked w.timeCounter (firesIn e ref w) (chosen (w.get ref))
      ((playerIntIh e ref w).get ref) := by
  have hr' := atTrigger_valid e hr
  have htrigger := alike_atTrigger e hr
  obtain ⟨hshoot, hready⟩ := alike_shoot e hr'
  have hclock : (shoot e ref (atTrigger e ref w)).2.timeCounter = w.timeCounter :=
    (timeCounter_shoot e hr').trans (timeCounter_atTrigger e ref w)
  refine (htrigger.trans hshoot).ticked ?_
  rw [playerIntIh_eq, ← hclock]
  refine ticked_finishTick _ ((World.SameControls.shoot e ref _).valid hr') fun hshot => ?_
  rw [hshoot.inHand.state]
  exact hready hshot

/-! ### What a player keeps back -/

/-- The shots of a player so far, gun and tick, the last one first, are apart by the gap of the
gun, and the gun in hand keeps it back after tick `t`. -/
structure Paces (gap : Gun → ℕ) (t : ℕ) (shots : List (ℕ × ℕ)) (p : PlayerInfo K) : Prop where
  kept : ∀ i, gap (p.gunAt i).gun ≤ (p.gunAt i).gun.cooldownTime ∧
    gap (p.gunAt i).gun ≤ (p.gunAt i).gun.reloadTime + 1
  past : ∀ shot ∈ shots, shot.2 ≤ t
  holds : ∀ shot ∈ shots, shot.1 = p.gunIndex →
    HoldsFire (shot.2 + gap p.gunInHand.gun) t p.gunInHand
  paced : shots.Pairwise fun new old =>
    new.1 = old.1 → old.2 + gap (p.gunAt new.1).gun ≤ new.2

/-- Gun `index` is not taken in hand again before its gap would be over when it is charged,
unless it has no bullet left and is to be reloaded. -/
def RestedFor (gap : Gun → ℕ) (t : ℕ) (shots : List (ℕ × ℕ)) (p : PlayerInfo K) (index : ℕ) :
    Prop :=
  index ≠ p.gunIndex → (p.gunAt index).currAmmo ≠ 0 → ∀ shot ∈ shots, shot.1 = index →
    shot.2 + gap (p.gunAt index).gun ≤ t + 1 + (p.gunAt index).gun.warmUp

namespace Paces

variable {gap : Gun → ℕ} {t : ℕ} {shots : List (ℕ × ℕ)} {p q : PlayerInfo K}

/-- The bounds on the gap only look at the guns. -/
theorem kept_of_gun (h : Paces gap t shots p) (hgun : ∀ i, (q.gunAt i).gun = (p.gunAt i).gun)
    (i : ℕ) : gap (q.gunAt i).gun ≤ (q.gunAt i).gun.cooldownTime ∧
      gap (q.gunAt i).gun ≤ (q.gunAt i).gun.reloadTime + 1 := by
  rw [hgun]
  exact h.kept i

/-- The shots stay apart as long as the guns are the same. -/
theorem paced_of_gun (h : Paces gap t shots p) (hgun : ∀ i, (q.gunAt i).gun = (p.gunAt i).gun) :
    shots.Pairwise fun new old => new.1 = old.1 → old.2 + gap (q.gunAt new.1).gun ≤ new.2 := by
  refine h.paced.imp fun {new old} hnew heq => ?_
  rw [hgun]
  exact hnew heq

theorem congr (h : Paces gap t shots p) (hpq : Alike p q) : Paces gap t shots q := by
  have hgun : ∀ i, (q.gunAt i).gun = (p.gunAt i).gun := fun i => (hpq.guns i).gun
  refine ⟨h.kept_of_gun hgun, h.past, fun shot hshot hi => ?_, h.paced_of_gun hgun⟩
  rw [hpq.inHand.gun]
  exact hpq.inHand.holdsFire (h.holds shot hshot (hi.trans hpq.gunIndex))

/-- A gun that is taken in hand is `INITIAL`, if it is there. -/
theorem state_switchGun {index : ℕ} (hne : p.gunIndex ≠ index) :
    (switchGun index p).gunIndex = index ∧
      ((switchGun index p).gunInHand.state = .initial ∨
        (switchGun index p).gunInHand.state = .inventory) := by
  unfold switchGun
  rw [if_pos hne]
  refine ⟨rfl, ?_⟩
  unfold PlayerInfo.gunInHand PlayerInfo.gunAt
  rw [getD_modify]
  split
  · exact Or.inl rfl
  · next hnot =>
    -- beyond the guns there is zeroed memory
    rw [List.getD_eq_default _ _ (Nat.le_of_not_lt fun hlt => hnot ⟨rfl, hlt⟩)]
    exact Or.inr rfl

/-- **A change of the gun.** -/
theorem switch (h : Paces gap t shots p) {index : ℕ} (hrested : RestedFor gap t shots p index) :
    Paces gap t shots (switchGun index p) := by
  refine ⟨h.kept_of_gun (gun_switchGun index p), h.past, fun shot hshot hi => ?_,
    h.paced_of_gun (gun_switchGun index p)⟩
  by_cases hne : p.gunIndex = index
  · have hsame : switchGun index p = p := by
      unfold switchGun
      rw [if_neg (not_not.mpr hne)]
    rw [hsame] at hi ⊢
    exact h.holds shot hshot hi
  · obtain ⟨hindex, hstate⟩ := state_switchGun hne
    have hgun : (switchGun index p).gunInHand.gun = (p.gunAt index).gun := by
      unfold PlayerInfo.gunInHand
      rw [hindex, gun_switchGun]
    have hammo : (switchGun index p).gunInHand.currAmmo = (p.gunAt index).currAmmo := by
      obtain ⟨state, hat⟩ := gunAt_switchGun index p index
      unfold PlayerInfo.gunInHand
      rw [hindex, hat]
    unfold HoldsFire
    rcases hstate with hstate | hstate
    · rw [hstate, hgun, hammo]
      by_cases hempty : (p.gunAt index).currAmmo = 0
      · exact Or.inl hempty
      · exact Or.inr (hrested (Ne.symm hne) hempty shot hshot (hi.trans hindex))
    · rw [hstate]
      trivial

/-- The gun of a player does not change in a tick. -/
theorem gun_ticked {shot : Bool} (h : Ticked t shot p q) (i : ℕ) :
    (q.gunAt i).gun = (p.gunAt i).gun := by
  by_cases hi : i = p.gunIndex
  · obtain ⟨g, hg, htransition⟩ := h.inHand
    have hgun : q.gunInHand.gun = p.gunInHand.gun := by
      rw [htransition.gun, gunTransition_gun, hg.gun]
    unfold PlayerInfo.gunInHand at hgun
    rwa [h.gunIndex, ← hi] at hgun
  · exact (h.others i hi).gun

/-- **A tick without a shot.** -/
theorem tick (h : Paces gap t shots p) (hpq : Ticked (t + 1) false p q) :
    Paces gap (t + 1) shots q := by
  refine ⟨h.kept_of_gun (gun_ticked hpq), fun shot hshot => Nat.le_succ_of_le (h.past shot hshot),
    fun shot hshot hi => ?_, h.paced_of_gun (gun_ticked hpq)⟩
  obtain ⟨g, hg, htransition⟩ := hpq.inHand
  have hholds := h.holds shot hshot (hi.trans hpq.gunIndex)
  have hpast := h.past shot hshot
  have hkept : gap p.gunInHand.gun ≤ p.gunInHand.gun.reloadTime + 1 := (h.kept p.gunIndex).2
  rw [htransition.gun, gunTransition_gun, hg.gun]
  refine htransition.holdsFire ((hg.holdsFire hholds).tick ?_)
  rw [hg.gun]
  omega

/-- **A tick with a shot.** -/
theorem shot (h : Paces gap t shots p) (hpq : Ticked (t + 1) true p q) :
    Paces gap (t + 1) ((p.gunIndex, t + 1) :: shots) q := by
  have hready := hpq.ready rfl
  have hdone : ∀ shot ∈ shots, shot.1 = p.gunIndex → shot.2 + gap p.gunInHand.gun ≤ t + 1 := by
    intro shot hshot hi
    have hholds := h.holds shot hshot hi
    unfold HoldsFire at hholds
    rwa [hready] at hholds
  obtain ⟨g, hg, htransition⟩ := hpq.inHand
  obtain ⟨hcooldown, hreload⟩ := h.kept p.gunIndex
  have hnew : HoldsFire (t + 1 + gap p.gunInHand.gun) (t + 1) q.gunInHand := by
    refine htransition.holdsFire (holdsFire_of_shot (t + 1) (hg.state.trans hready) ?_ ?_)
    · rw [hg.gun]
      exact hcooldown
    · rw [hg.gun]
      exact hreload
  have hgun : q.gunInHand.gun = p.gunInHand.gun := by
    rw [htransition.gun, gunTransition_gun, hg.gun]
  refine ⟨h.kept_of_gun (gun_ticked hpq), fun shot hshot => ?_, fun shot hshot hi => ?_, ?_⟩
  · rcases List.mem_cons.mp hshot with rfl | hshot
    · exact Nat.le_refl _
    · exact Nat.le_succ_of_le (h.past shot hshot)
  · rw [hgun]
    rcases List.mem_cons.mp hshot with rfl | hshot
    · exact hnew
    · refine hnew.mono ?_
      have hold := hdone shot hshot (hi.trans hpq.gunIndex)
      omega
  · refine List.pairwise_cons.mpr ⟨fun old hold heq => ?_, h.paced_of_gun (gun_ticked hpq)⟩
    rw [gun_ticked hpq]
    exact hdone old hold heq.symm

end Paces

/-! ### The ticks of a player, and what happens between them -/

/-- The world, with the shots of a player so far: gun and tick, the last one first. -/
structure Gunfight (K : Type*) where
  world : World K
  shots : List (ℕ × ℕ)

/-- What happens to a player whose ticks are counted. -/
inductive FightInput (K : Type*) where
  /-- A timer tick, and `player_int_ih` of the player. -/
  | tick (e : Env K)
  /-- Anything else, but for the clock and the ticks of the player. -/
  | between (i : ArsenalInput K)

/-- What may happen between two ticks of the player at `ref`. -/
def meanwhile (ref : PlayerRef) (w : World K) : ArsenalInput K → Option (World K)
  | .tick e r => if r = ref then none else (arsenalMachine ref).step w (.tick e r)
  | .clock _ => none
  | .stock map gunAnims pickups => some { w with map, gunAnims, pickups }
  | i => (arsenalMachine ref).step w i

/-- A timer tick. -/
def World.advance (w : World K) : World K := { w with timeCounter := w.timeCounter + 1 }

/-- The ticks of the player at `ref`, one for each timer tick, and what happens in between. -/
def fireMachine (ref : PlayerRef) : Machine (Gunfight K) (FightInput K) where
  step s
    | .tick e =>
      if s.world.Valid ref then
        let w := s.world.advance
        some
          { world := playerIntIh e ref w
            shots :=
              if firesIn e ref w then
                (((atTrigger e ref w).get ref).gunIndex, w.timeCounter) :: s.shots
              else s.shots }
      else none
    | .between i => (meanwhile ref s.world i).map fun world => { s with world }

/-- The rate of fire is limited: two shots of one gun are at least its cooldown apart. -/
def RateLimited (ref : PlayerRef) (s : Gunfight K) : Prop :=
  s.shots.Pairwise fun new old =>
    new.1 = old.1 → old.2 + ((s.world.get ref).gunAt new.1).gun.cooldownTime ≤ new.2

instance (ref : PlayerRef) : DecidablePred (RateLimited (K := K) ref) := fun s =>
  inferInstanceAs (Decidable (s.shots.Pairwise _))

/-- If the step takes a gun in hand again, its gap is over by the time it can be charged. -/
def RestedSwitch (gap : Gun → ℕ) (ref : PlayerRef) (s : Gunfight K) : FightInput K → Prop
  | .tick _ => RestedFor gap s.world.timeCounter s.shots (s.world.get ref)
      (chosen (s.world.get ref)).gunIndex
  | .between (.chooseGun r index) => r = ref →
      RestedFor gap s.world.timeCounter s.shots (s.world.get ref) index
  | _ => True

instance (gap : Gun → ℕ) (t : ℕ) (shots : List (ℕ × ℕ)) (p : PlayerInfo K) (index : ℕ) :
    Decidable (RestedFor gap t shots p index) :=
  inferInstanceAs (Decidable (_ → _ → ∀ _ ∈ _, _ → _))

instance (gap : Gun → ℕ) (ref : PlayerRef) (s : Gunfight K) :
    ∀ i, Decidable (RestedSwitch gap ref s i)
  | .tick _ => inferInstanceAs (Decidable (RestedFor _ _ _ _ _))
  | .between (.chooseGun _ _) => inferInstanceAs (Decidable (_ → RestedFor _ _ _ _ _))
  | .between (.tick _ _) => isTrue trivial
  | .between (.control _ _ _ _) => isTrue trivial
  | .between (.clock _) => isTrue trivial
  | .between (.screen _ _) => isTrue trivial
  | .between (.stock _ _ _) => isTrue trivial
  | .between (.create _ _ _) => isTrue trivial

/-- The player is there, and keeps its shots apart. -/
structure FightInv (gap : Gun → ℕ) (ref : PlayerRef) (s : Gunfight K) : Prop where
  valid : s.world.Valid ref
  paces : Paces gap s.world.timeCounter s.shots (s.world.get ref)

namespace FightInv

variable {gap : Gun → ℕ} {ref : PlayerRef} {s : Gunfight K}

theorem get_advance (w : World K) (r : PlayerRef) : w.advance.get r = w.get r := by
  cases r <;> rfl

theorem valid_advance {w : World K} {r : PlayerRef} (hr : w.Valid r) : w.advance.Valid r := by
  cases r <;> exact hr

/-- What happens elsewhere. -/
theorem elsewhere (h : FightInv gap ref s) {v : World K} (hr : v.Valid ref)
    (hget : Alike (s.world.get ref) (v.get ref)) (hclock : v.timeCounter = s.world.timeCounter) :
    FightInv gap ref { s with world := v } := by
  refine ⟨hr, ?_⟩
  show Paces gap v.timeCounter s.shots (v.get ref)
  rw [hclock]
  exact h.paces.congr hget

theorem modify (h : FightInv gap ref s) (r : PlayerRef) {f : PlayerInfo K → PlayerInfo K}
    (hf : ∀ p, Alike p (f p)) : FightInv gap ref { s with world := s.world.modify r f } := by
  refine h.elsewhere (World.valid_modify_any h.valid f) ?_ (timeCounter_modify _ r f)
  by_cases hr : ref = r
  · subst hr
    rw [World.get_modify_self h.valid]
    exact hf _
  · rw [World.get_modify_of_ne hr]
    exact .of_eq rfl rfl

/-- A tick of the player. -/
theorem tick (h : FightInv gap ref s) (e : Env K)
    (hrested : RestedFor gap s.world.timeCounter s.shots (s.world.get ref)
      (chosen (s.world.get ref)).gunIndex) :
    FightInv gap ref
      { world := playerIntIh e ref s.world.advance
        shots :=
          if firesIn e ref s.world.advance then
            (((atTrigger e ref s.world.advance).get ref).gunIndex,
              s.world.advance.timeCounter) :: s.shots
          else s.shots } := by
  have hr := valid_advance h.valid
  have hticked := ticked_playerIntIh e hr
  have hindex := (alike_atTrigger e hr).gunIndex
  rw [get_advance] at hticked hindex
  have hclock : s.world.advance.timeCounter = s.world.timeCounter + 1 := rfl
  -- the keys choose the gun
  have hchosen : Paces gap s.world.timeCounter s.shots (chosen (s.world.get ref)) := by
    obtain ⟨index, hi, hguns⟩ := chosen_eq_switchGun (s.world.get ref)
    have hswitch : (switchGun index (s.world.get ref)).gunIndex = index := by
      unfold switchGun
      split
      · rfl
      · next hne => exact not_not.mp hne
    rw [hi, hswitch] at hrested
    exact (h.paces.switch hrested).congr (.of_eq hi hguns)
  refine ⟨(sameControls_playerIntIh e ref _).valid (World.valid_modify hr _), ?_⟩
  dsimp only
  rw [timeCounter_playerIntIh e hr, hindex]
  rw [hclock] at hticked ⊢
  cases hfires : firesIn e ref s.world.advance with
  | false =>
    rw [hfires] at hticked
    rw [if_neg Bool.false_ne_true]
    exact hchosen.tick hticked
  | true =>
    rw [hfires] at hticked
    rw [if_pos rfl]
    exact hchosen.shot hticked

/-- **One step.** -/
theorem step {t : Gunfight K} {i : FightInput K} (h : FightInv gap ref s)
    (hrested : RestedSwitch gap ref s i) (hstep : (fireMachine ref).step s i = some t) :
    FightInv gap ref t := by
  cases i with
  | tick e =>
    obtain ⟨-, ht⟩ := Option.ite_none_right_eq_some.mp hstep
    exact Option.some.inj ht ▸ h.tick e hrested
  | between i =>
    obtain ⟨v, hv, rfl⟩ := Option.map_eq_some_iff.mp hstep
    cases i with
    | tick e r =>
      obtain ⟨hne, hv⟩ := Option.ite_none_left_eq_some.mp hv
      obtain ⟨hr, hv⟩ := Option.ite_none_right_eq_some.mp hv
      obtain rfl := Option.some.inj hv
      refine h.elsewhere ?_ (.wounded (wounded_playerIntIh_of_ne e (Ne.symm hne) hr))
        (timeCounter_playerIntIh e hr)
      exact (sameControls_playerIntIh e r _).valid (World.valid_modify_any h.valid _)
    | control r movm position direction =>
      cases hv
      exact h.modify r fun _ => .of_eq rfl rfl
    | clock timeCounter => cases hv
    | screen state invMenu =>
      cases hv
      exact h.elsewhere (by cases ref <;> exact h.valid) (by cases ref <;> exact .of_eq rfl rfl) rfl
    | chooseGun r index =>
      cases hv
      by_cases hr : r = ref
      · subst hr
        refine ⟨World.valid_modify_any h.valid _, ?_⟩
        show Paces gap (s.world.modify r _).timeCounter s.shots ((s.world.modify r _).get r)
        rw [timeCounter_modify, World.get_modify_self h.valid]
        exact h.paces.switch (hrested rfl)
      · refine h.elsewhere (World.valid_modify_any h.valid _) ?_ (timeCounter_modify _ _ _)
        rw [World.get_modify_of_ne (Ne.symm hr)]
        exact .of_eq rfl rfl
    | stock map gunAnims pickups =>
      cases hv
      exact h.elsewhere (by cases ref <;> exact h.valid) (by cases ref <;> exact .of_eq rfl rfl) rfl
    | create l fov a =>
      obtain ⟨ha, hv⟩ := Option.ite_none_left_eq_some.mp hv
      obtain rfl := Option.some.inj hv
      obtain ⟨hvalid, hget⟩ := initPlayer_spares l fov h.valid ha
      refine h.elsewhere hvalid (by rw [hget]; exact .of_eq rfl rfl) ?_
      unfold initPlayer
      split <;> rfl

/-- A gun of the table reloads no faster than it can be shot, with the cooldown of a bot too. -/
theorem cooldown_le {i : ℕ} (hi : i < gunTable.length) :
    (getGun i).cooldownTime ≤ (getGun i).reloadTime + 1 ∧ 30 ≤ (getGun i).reloadTime + 1 := by
  have htable : ∀ g ∈ gunTable, g.cooldownTime ≤ g.reloadTime + 1 ∧ 30 ≤ g.reloadTime + 1 := by
    decide
  unfold getGun
  rw [List.getD_eq_getElem _ _ hi]
  exact htable _ (List.getElem_mem hi)

/-- A player that has just been created has fired no shots. -/
theorem init (l : Libm K) (fov : ℤ) {a : PlayerSetup K} (w : World K)
    (hguns : ∀ g ∈ a.guns, ∃ i < gunTable.length, ∃ startAmmo startPackets,
      g = createGunInstance i startAmmo startPackets) (hgap : ∀ g, gap g ≤ g.cooldownTime) :
    FightInv gap (a.place w) ⟨initPlayer l fov a w, []⟩ := by
  have hnew : ∀ i, ((newPlayer l fov a).gunAt i).gun.cooldownTime ≤
      ((newPlayer l fov a).gunAt i).gun.reloadTime + 1 := by
    intro i
    show ((a.guns.modify 0 (firstGun a.type)).getD i .zero).gun.cooldownTime ≤
      ((a.guns.modify 0 (firstGun a.type)).getD i .zero).gun.reloadTime + 1
    rw [List.getD_eq_getElem?_getD, List.getElem?_modify]
    cases hg : a.guns[i]? with
    | none => exact Nat.zero_le _
    | some g =>
      obtain ⟨j, hj, startAmmo, startPackets, rfl⟩ := hguns g (List.mem_of_getElem? hg)
      obtain ⟨hcooldown, hbot⟩ := cooldown_le hj
      by_cases hi : 0 = i
      · subst hi
        simp only [firstGun, Option.map_eq_map, Option.map_some, Option.getD_some, if_true]
        split
        · exact hbot
        · exact hcooldown
      · simp only [hi, Option.map_eq_map, Option.map_some, Option.getD_some, if_false]
        exact hcooldown
  have hpaces : Paces gap (initPlayer l fov a w).timeCounter [] (newPlayer l fov a) :=
    ⟨fun i => ⟨hgap _, (hgap _).trans (hnew i)⟩, nofun, nofun, .nil⟩
  unfold PlayerSetup.place
  unfold initPlayer at hpaces ⊢
  split
  · next htype =>
    rw [if_pos htype] at hpaces
    exact ⟨trivial, hpaces⟩
  · next htype =>
    rw [if_neg htype] at hpaces
    refine ⟨?_, ?_⟩
    · show w.enemies.length < (w.enemies ++ [_]).length
      rw [List.length_append, List.length_singleton]
      exact Nat.lt_succ_self _
    · show Paces gap w.timeCounter []
        ((w.enemies ++ [newPlayer l fov a]).getD w.enemies.length .zero)
      rw [List.getD_eq_getElem _ _ (by simp), List.getElem_append_right (Nat.le_refl _)]
      simpa using hpaces

end FightInv

/-- **The rate of fire.**  Take a player that `init_player` creates with guns of the table, and
any run of its ticks, with anything in between.  If no gun with a bullet left is taken in hand again
before its cooldown would be over when it is charged, then any two shots of one gun are at least its
cooldown apart. -/
theorem rate_limited (l : Libm K) (fov : ℤ) (a : PlayerSetup K) (w : World K)
    (hguns : ∀ g ∈ a.guns, ∃ i < gunTable.length, ∃ startAmmo startPackets,
      g = createGunInstance i startAmmo startPackets) (is : List (FightInput K))
    (hrested : (fireMachine (a.place w)).Along (RestedSwitch Gun.cooldownTime (a.place w))
      ⟨initPlayer l fov a w, []⟩ is) :
    (fireMachine (a.place w)).Always (RateLimited (a.place w)) ⟨initPlayer l fov a w, []⟩ is := by
  have hinit : FightInv Gun.cooldownTime (a.place w) ⟨initPlayer l fov a w, []⟩ :=
    .init l fov w hguns fun _ => Nat.le_refl _
  exact Machine.always_of_along (fun s hs => hs.paces.paced)
    (fun s i t hs hi ht => FightInv.step hs hi ht) is _ hinit hrested

/-- What every gun keeps, whichever way it is taken in hand. -/
def Gun.gap (g : Gun) : ℕ := min g.cooldownTime (g.warmUp + 1)

/-- A change of guns takes a tick, and the charge. -/
theorem FightInv.rested {ref : PlayerRef} {s : Gunfight K} (h : FightInv Gun.gap ref s)
    (i : FightInput K) : RestedSwitch Gun.gap ref s i := by
  have hrested : ∀ index,
      RestedFor Gun.gap s.world.timeCounter s.shots (s.world.get ref) index := by
    intro index _ _ shot hshot _
    have hpast := h.paces.past shot hshot
    have hgap : ((s.world.get ref).gunAt index).gun.gap ≤
        ((s.world.get ref).gunAt index).gun.warmUp + 1 := Nat.min_le_right _ _
    omega
  cases i with
  | tick e => exact hrested _
  | between i =>
    cases i with
    | chooseGun r index => exact fun _ => hrested index
    | _ => trivial

/-- **In every run**, two shots of one gun are apart by its cooldown, or by the change to it
and its charge. -/
theorem rate_bounded (l : Libm K) (fov : ℤ) (a : PlayerSetup K) (w : World K)
    (hguns : ∀ g ∈ a.guns, ∃ i < gunTable.length, ∃ startAmmo startPackets,
      g = createGunInstance i startAmmo startPackets) (is : List (FightInput K)) :
    (fireMachine (a.place w)).Always (fun s => s.shots.Pairwise fun new old =>
      new.1 = old.1 → old.2 + ((s.world.get (a.place w)).gunAt new.1).gun.gap ≤ new.2)
      ⟨initPlayer l fov a w, []⟩ is := by
  have hinit : FightInv Gun.gap (a.place w) ⟨initPlayer l fov a w, []⟩ :=
    .init l fov w hguns fun _ => Nat.min_le_left _ _
  exact Machine.always_of_step (fun s hs => hs.paces.paced)
    (fun s i t hs ht => FightInv.step hs (hs.rested i) ht) is hinit

end

/-- The local player with the pistol and the rifle of the first level, in the middle of a game. -/
def duelist : PlayerSetup ℚ :=
  { type := .player, position := ⟨2, 2⟩, direction := ⟨-1, 0⟩, radius := 1 / 5
    health := 100, maxHealth := 100, armor := 0, maxArmor := 100
    guns := [createGunInstance 1 11 0, createGunInstance 0 30 0] }

/-- The button is pressed, and a tick passes; then it is released. -/
def click : List (FightInput ℚ) :=
  [.between (.control .player { Controls.zero with lb := true } ⟨2, 2⟩ ⟨-1, 0⟩), .tick openField,
    .between (.control .player .zero ⟨2, 2⟩ ⟨-1, 0⟩)]

/-- A number key is pressed, and a tick passes. -/
def pressNumber (i : ℕ) : List (FightInput ℚ) :=
  [.between (.control .player { Controls.zero with
      kbdState := { (Controls.zero : Controls ℚ).kbdState with
        numsPress := (List.replicate 10 false).set i true } } ⟨2, 2⟩ ⟨-1, 0⟩), .tick openField]

/-- The player waits until its pistol is charged, shoots, and takes the other gun and this one
again; then it waits for the charge, and shoots. -/
def quickDraw : List (FightInput ℚ) :=
  List.replicate 11 (.tick openField) ++ click ++ pressNumber 2 ++ pressNumber 1 ++
    List.replicate 10 (.tick openField) ++ click

/-- The shots of a quick draw are thirteen ticks apart, the cooldown is fifteen. -/
theorem quickDraw_not_rateLimited :
    ¬ (fireMachine .player).Always (RateLimited .player)
      ⟨initPlayer openField.libm 66 duelist { emptyWorld with state := .game }, []⟩ quickDraw := by
  decide +kernel

/-- With three ticks between the two changes of the gun, the shots are far enough apart. -/
theorem rate_limited_patient :
    (fireMachine .player).Always (RateLimited .player)
      ⟨initPlayer openField.libm 66 duelist { emptyWorld with state := .game }, []⟩
      (List.replicate 11 (.tick openField) ++ click ++ [.between (.chooseGun .player 1)] ++
        List.replicate 3 (.tick openField) ++ [.between (.chooseGun .player 0)] ++
        List.replicate 11 (.tick openField) ++ click) := by
  have hguns : ∀ g ∈ duelist.guns, ∃ i < gunTable.length, ∃ startAmmo startPackets,
      g = createGunInstance i startAmmo startPackets := by
    intro g hg
    simp only [duelist, List.mem_cons, List.not_mem_nil, or_false] at hg
    rcases hg with rfl | rfl
    · exact ⟨1, by decide, _, _, rfl⟩
    · exact ⟨0, by decide, _, _, rfl⟩
  refine rate_limited openField.libm 66 duelist { emptyWorld with state := .game } hguns _ ?_
  decide +kernel

end OperationMinix
