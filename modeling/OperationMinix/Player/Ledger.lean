import OperationMinix.Player.Aiming
import OperationMinix.Player.Pace

/-!
# The rounds of a gun

The rounds of a gun are those in its magazine and those in its packets.  A reload empties a
packet into the magazine and forgets what the magazine held: no round is lost because a gun
that reloads has none left, which is one of the invariants of the guns of a player.

## Main definitions

* `rounds` — what a gun holds.
* `spentOn`, `gainedBy` — the bullets that a step fires, and the rounds that it picks up.

## Main results

* `rounds_gunTransition` — `update_gun_state` neither makes rounds nor loses any.
* `rounds_playerIntIh` — **the balance of a tick.**
* `ammo_conserved` — **the balance of every step and of every run.**
-/

namespace OperationMinix

open Runs

set_option linter.unusedSectionVars false

/-- What a gun holds, in the magazine and in packets. -/
def rounds (g : GunInstance) : ℕ := g.currAmmo + g.currPackets * g.gun.ammoPerPacket

/-- What a box of ammunition adds to the rounds of a gun that takes it. -/
def restockGain (packets : ℕ) (g : GunInstance) : ℕ :=
  (min g.gun.maxPackets (g.currPackets + packets) - g.currPackets) * g.gun.ammoPerPacket

/-- The two guns hold the same. -/
structure SameStock (g g' : GunInstance) : Prop where
  gun : g'.gun = g.gun
  currAmmo : g'.currAmmo = g.currAmmo
  currPackets : g'.currPackets = g.currPackets

namespace SameStock

variable {g g' g'' : GunInstance}

theorem refl (g : GunInstance) : SameStock g g := ⟨rfl, rfl, rfl⟩

theorem trans (h : SameStock g g') (h' : SameStock g' g'') : SameStock g g'' :=
  ⟨h'.gun.trans h.gun, h'.currAmmo.trans h.currAmmo, h'.currPackets.trans h.currPackets⟩

theorem rounds (h : SameStock g g') : rounds g' = rounds g := by
  unfold OperationMinix.rounds
  rw [h.gun, h.currAmmo, h.currPackets]

theorem restockGain (h : SameStock g g') (packets : ℕ) :
    restockGain packets g' = restockGain packets g := by
  unfold OperationMinix.restockGain
  rw [h.gun, h.currPackets]

end SameStock

/-- **`update_gun_state` neither makes rounds nor loses any**: a gun that reloads is empty. -/
theorem rounds_gunTransition (t : ℕ) (shot : Bool) {g : GunInstance} (h : GunHalf g) :
    rounds (gunTransition t shot g) = rounds g := by
  unfold gunTransition
  cases hst : g.state with
  | reloading =>
    obtain ⟨hempty, hleft⟩ := h.reloading hst
    dsimp only
    split
    · -- a packet goes into the empty magazine
      obtain ⟨n, hn⟩ := Nat.exists_eq_succ_of_ne_zero (Nat.ne_of_gt hleft)
      rw [reloadGun, if_pos hleft]
      simp only [rounds, hempty, hn, Nat.succ_sub_one, Nat.succ_mul]
      omega
    · rfl
  | initial => dsimp only; split_ifs <;> rfl
  | charging => dsimp only; split_ifs <;> rfl
  | ready => dsimp only; split_ifs <;> rfl
  | cooldown => dsimp only; split_ifs <;> rfl
  | noAmmo => dsimp only; split_ifs <;> rfl
  | inventory => rfl

/-- A box that is taken adds its rounds. -/
theorem rounds_restock {g : GunInstance} (htable : FromTable g) {packets ammoIndex : ℕ}
    (hfits : (PickupDetails.ammo packets ammoIndex).Fits) (hindex : g.gun.ammoIndex = ammoIndex)
    (hroom : g.currPackets < g.gun.maxPackets) :
    rounds (restock packets ammoIndex g) = rounds g + restockGain packets g := by
  subst hindex
  have hsum := htable.fits hfits
  have hshort : ushort (g.currPackets + packets) = g.currPackets + packets := by
    unfold ushort
    omega
  have hmin : min (g.currPackets + packets) g.gun.maxPackets =
      g.currPackets + (min g.gun.maxPackets (g.currPackets + packets) - g.currPackets) := by
    omega
  rw [restock, if_neg (by simp; omega), hshort]
  simp only [rounds, restockGain, hmin, Nat.add_mul]
  omega

section

variable {K : Type*} [Field K] [LinearOrder K] [FloorRing K]

/-! ### Choosing a gun -/

theorem stock_switchGun (index : ℕ) (p : PlayerInfo K) (i : ℕ) :
    SameStock (p.gunAt i) ((switchGun index p).gunAt i) := by
  obtain ⟨state, hgun⟩ := gunAt_switchGun index p i
  rw [hgun]
  exact ⟨rfl, rfl, rfl⟩

theorem stock_steer (l : Libm K) (m : GameMap) (p : PlayerInfo K) (i : ℕ) :
    SameStock (p.gunAt i) ((steer l m p).gunAt i) := by
  obtain ⟨index, -, hguns⟩ := chosen_eq_switchGun p
  have hsteer : (steer l m p).guns = (switchGun index p).guns := (steer_guns l m p).2.trans hguns
  have hgun : (steer l m p).gunAt i = (switchGun index p).gunAt i := by
    unfold PlayerInfo.gunAt
    rw [hsteer]
  rw [hgun]
  exact stock_switchGun index p i

/-! ### Boxes of ammunition -/

/-- The gun that a box of ammunition is for: the first one that uses it. -/
def ammoGun (ammoIndex : ℕ) (p : PlayerInfo K) : Option ℕ :=
  (p.guns.take p.inventorySize).findIdx? fun g => g.gun.ammoIndex = ammoIndex

/-- The box of ammunition that a player takes where it stands. -/
def boxTaken (s : PickupStore K) (p : PlayerInfo K) : Option (ℕ × ℕ) :=
  if checkPlayerPickupCollision s p > 0 then
    match s.pickups[checkPlayerPickupCollision s p]? with
    | some pickup => match pickup.details with
      | .ammo packets ammoIndex =>
        if (pickupHandler pickup.details p).1 then some (packets, ammoIndex) else none
      | _ => none
    | none => none
  else none

/-- What the player gains for gun `i` where it stands. -/
def boxGain (s : PickupStore K) (p : PlayerInfo K) (i : ℕ) : ℕ :=
  match boxTaken s p with
  | some (packets, ammoIndex) =>
    if ammoGun ammoIndex p = some i then restockGain packets (p.gunAt i) else 0
  | none => 0

/-- `pickup_ammo` of the guns: the first one that uses the ammunition takes it if it has room. -/
theorem pickupAmmoGuns_cases (packets ammoIndex : ℕ) : ∀ guns : List GunInstance,
    (guns.findIdx? fun g => g.gun.ammoIndex = ammoIndex) = none ∧
        pickupAmmoGuns packets ammoIndex guns = (false, guns) ∨
      ∃ i g, (guns.findIdx? fun g => g.gun.ammoIndex = ammoIndex) = some i ∧ guns[i]? = some g ∧
        g.gun.ammoIndex = ammoIndex ∧
        pickupAmmoGuns packets ammoIndex guns =
          if g.currPackets < g.gun.maxPackets then
            (true, guns.modify i (restock packets ammoIndex))
          else (false, guns) := by
  intro guns
  induction guns with
  | nil => exact Or.inl ⟨rfl, rfl⟩
  | cons g guns ih =>
    by_cases hg : g.gun.ammoIndex = ammoIndex
    · refine Or.inr ⟨0, g, by simp [List.findIdx?_cons, hg], rfl, hg, ?_⟩
      rw [pickupAmmoGuns, if_pos hg]
      by_cases hroom : g.currPackets < g.gun.maxPackets
      · have hmin : ∀ a b : ℕ, (if a > b then b else a) = min a b := by
          intro a b
          split <;> omega
        rw [if_neg (Nat.not_le_of_lt hroom), if_pos hroom]
        simp [restock, hg, Nat.not_le_of_lt hroom, hmin]
      · rw [if_pos (Nat.le_of_not_lt hroom), if_neg hroom]
    · rw [pickupAmmoGuns, if_neg hg, List.findIdx?_cons]
      rcases ih with ⟨hnone, heq⟩ | ⟨i, h, hi, hget, hindex, heq⟩
      · exact Or.inl ⟨by simp [hg, hnone], by rw [heq]⟩
      · refine Or.inr ⟨i + 1, h, by simp [hg, hi], hget, hindex, ?_⟩
        rw [heq]
        split <;> rfl

/-- `pickup_ammo` of a player. -/
theorem pickupAmmo_cases (packets ammoIndex : ℕ) (p : PlayerInfo K) :
    ammoGun ammoIndex p = none ∧ pickupAmmo packets ammoIndex p = (false, p) ∨
      ∃ i g, ammoGun ammoIndex p = some i ∧ p.guns[i]? = some g ∧
        g.gun.ammoIndex = ammoIndex ∧
        pickupAmmo packets ammoIndex p =
          if g.currPackets < g.gun.maxPackets then
            (true, { p with guns := p.guns.modify i (restock packets ammoIndex) })
          else (false, p) := by
  have hsame : ({ p with guns := p.guns.take p.inventorySize ++ p.guns.drop p.inventorySize } :
      PlayerInfo K) = p := by
    rw [List.take_append_drop]
  unfold pickupAmmo
  dsimp only
  rcases pickupAmmoGuns_cases packets ammoIndex (p.guns.take p.inventorySize) with
    ⟨hnone, heq⟩ | ⟨i, g, hi, hget, hindex, heq⟩
  · refine Or.inl ⟨hnone, ?_⟩
    rw [heq, hsame]
  · have hlt : i < p.inventorySize := by
      have hlen := (List.getElem?_eq_some_iff.mp hget).1
      rw [List.length_take] at hlen
      omega
    rw [List.getElem?_take_of_lt hlt] at hget
    refine Or.inr ⟨i, g, hi, hget, hindex, ?_⟩
    rw [heq]
    split
    · rw [← List.take_modify, ← List.drop_modify_of_lt _ _ _ _ hlt, List.take_append_drop]
    · rw [hsame]

/-- The rounds after a box of ammunition. -/
theorem rounds_pickupAmmo {p : PlayerInfo K} (h : Equipped p) {packets ammoIndex : ℕ}
    (hfits : (PickupDetails.ammo packets ammoIndex).Fits) (i : ℕ) :
    rounds ((pickupAmmo packets ammoIndex p).2.gunAt i) = rounds (p.gunAt i) +
      if (pickupAmmo packets ammoIndex p).1 = true ∧ ammoGun ammoIndex p = some i then
        restockGain packets (p.gunAt i)
      else 0 := by
  rcases pickupAmmo_cases packets ammoIndex p with ⟨-, heq⟩ | ⟨j, g, hj, hget, hindex, heq⟩
  · rw [heq]
    simp
  · rw [heq, hj]
    by_cases hroom : g.currPackets < g.gun.maxPackets
    · rw [if_pos hroom]
      have hafter : ({ p with guns := p.guns.modify j (restock packets ammoIndex) } :
          PlayerInfo K).gunAt i =
            if i = j ∧ i < p.guns.length then restock packets ammoIndex (p.gunAt i)
            else p.gunAt i := getD_modify p.guns j i _ .zero
      have hlt := (List.getElem?_eq_some_iff.mp hget).1
      rw [hafter]
      by_cases hij : i = j
      · subst hij
        have hgun : p.gunAt i = g := by simp [PlayerInfo.gunAt, List.getD, hget]
        rw [if_pos ⟨rfl, hlt⟩, if_pos ⟨rfl, rfl⟩, hgun]
        exact rounds_restock (h i g hget).2 hfits hindex hroom
      · rw [if_neg fun hi => hij hi.1, if_neg (by simp [Ne.symm hij])]
        rfl
    · rw [if_neg hroom]
      simp

/-- **The rounds after `pickup_index`.** -/
theorem rounds_pickUp {ref : PlayerRef} {w : World K} (hr : w.Valid ref)
    (h : Equipped (w.get ref)) (hfits : w.pickups.Fits) (i : ℕ) :
    rounds (((pickUp ref w).get ref).gunAt i) =
      rounds ((w.get ref).gunAt i) + boxGain w.pickups (w.get ref) i := by
  unfold pickUp boxGain boxTaken
  dsimp only
  split
  · next hidx =>
    have hget : ∀ (q : PlayerInfo K) (s : PickupStore K),
        ({ w.modify ref fun _ => q with pickups := s } : World K).get ref = q := by
      intro q s
      have hself := World.get_modify_self hr fun _ => q
      cases ref <;> exact hself
    rw [hget]
    unfold pickupIndex
    cases hp : w.pickups.pickups[checkPlayerPickupCollision w.pickups (w.get ref)]? with
    | none => rfl
    | some pickup =>
      cases hd : pickup.details with
      | ammo packets ammoIndex =>
        have hbox : (PickupDetails.ammo packets ammoIndex).Fits :=
          hd ▸ hfits pickup (List.mem_of_getElem? hp)
        simp only [hd, pickupHandler]
        rw [rounds_pickupAmmo h hbox i]
        cases (pickupAmmo packets ammoIndex (w.get ref)).1 with
        | false => simp
        | true => simp
      | medkit health => simp only [hd]; rfl
      | armor armor => simp only [hd]; rfl
  · rfl

/-! ### Shots -/

/-- The bullets that leave the gun in hand when the trigger may be pulled. -/
def bulletsFired (e : Env K) (ref : PlayerRef) (w : World K) : ℕ :=
  if wantsToShoot w (w.get ref) then (shotBullets e ref w).length else 0

variable {ref : PlayerRef} {w : World K}

theorem length_bullets (e : Env K) : ∀ (n i : ℕ) (w : World K), w.Valid ref →
    (bullets e ref n i w).length = min n (w.get ref).gunInHand.currAmmo := by
  intro n
  induction n with
  | zero => intro i w _; simp [bullets]
  | succ n ih =>
    intro i w hr
    rw [bullets]
    split
    · next hammo =>
      have hbullet : Volley ref 0 w (bullet e ref i w) := Volley.strike ref _ _ _ w
      have hone := hbullet.trans (Volley.spend (hbullet.valid hr) 1)
      have hself := hone.players ref
      rw [if_pos rfl] at hself
      have hpos : 0 < (w.get ref).gunInHand.currAmmo := hammo
      have hrest := ih (i + 1) _ (hone.valid hr)
      rw [hself.gunInHand, gunInHand_spend] at hrest
      rw [List.length_cons]
      refine (congrArg (· + 1) hrest).trans ?_
      omega
    · next hammo =>
      have hzero : (w.get ref).gunInHand.currAmmo = 0 := Nat.eq_zero_of_not_pos hammo
      rw [hzero, Nat.min_zero]
      rfl

theorem length_shotBullets (e : Env K) (hr : w.Valid ref)
    (hst : (w.get ref).gunInHand.state = .ready) :
    (shotBullets e ref w).length =
      min (w.get ref).gunInHand.gun.ammoPerFire (w.get ref).gunInHand.currAmmo := by
  have hlength := length_bullets e (w.get ref).gunInHand.gun.ammoPerFire 0 _
    (World.valid_modify hr startFireAnim)
  rw [World.get_modify_self hr, (gunInHand_startFireAnim _).1] at hlength
  have hshot : shotBullets e ref w =
      bullets e ref (w.get ref).gunInHand.gun.ammoPerFire 0 (w.modify ref startFireAnim) :=
    if_neg (not_not.mpr hst)
  rw [hshot]
  exact hlength

/-- The rounds after bullets have left the gun in hand. -/
theorem rounds_spend {p : PlayerInfo K} (hlt : p.gunIndex < p.guns.length) {k : ℕ}
    (hk : k ≤ p.gunInHand.currAmmo) (i : ℕ) :
    rounds ((spend k (startFireAnim p)).gunAt i) + (if i = p.gunIndex then k else 0) =
      rounds (p.gunAt i) := by
  have hlen : (startFireAnim p).guns.length = p.guns.length := List.length_modify _ _ _
  rw [spend, gunAt_modifyGun, startFireAnim, gunAt_modifyGun]
  change rounds (if i = p.gunIndex ∧ i < (startFireAnim p).guns.length then _ else _) + _ = _
  rw [hlen]
  by_cases hi : i = p.gunIndex
  · subst hi
    have hammo : k ≤ (p.gunAt p.gunIndex).currAmmo := hk
    simp only [hlt, and_self, if_true, rounds]
    omega
  · simp [hi]

/-- **The rounds after the trigger.** -/
theorem rounds_shoot (e : Env K) (hr : w.Valid ref) (i : ℕ) :
    rounds (((shoot e ref w).2.get ref).gunAt i) +
        (if i = (w.get ref).gunIndex then bulletsFired e ref w else 0) =
      rounds ((w.get ref).gunAt i) := by
  unfold shoot bulletsFired
  split
  · by_cases hst : (w.get ref).gunInHand.state = .ready
    · have hlt : (w.get ref).gunIndex < (w.get ref).guns.length := by
        by_contra hnot
        rw [gunInHand_of_not_lt hnot] at hst
        cases hst
      obtain ⟨health, armor, hget⟩ := wounded_fire e hr hst
      rw [hget, length_shotBullets e hr hst]
      exact rounds_spend hlt (Nat.min_le_right _ _) i
    · have hnone : shotBullets e ref w = [] := if_pos hst
      rw [fire_not_ready e hst, hnone]
      simp
  · simp

/-- The end of a tick. -/
theorem rounds_finishTick (shot : Bool) (hr : w.Valid ref) (h : HalfEquipped (w.get ref)) (i : ℕ) :
    rounds (((finishTick ref shot w).get ref).gunAt i) = rounds ((w.get ref).gunAt i) := by
  obtain ⟨anim, p, hindex, hguns, hget⟩ := get_finishTick shot hr
  have hsame : (w.get ref).gunAt i = p.gunAt i := by
    unfold PlayerInfo.gunAt
    rw [hguns]
  rw [hget, gunAt_modifyGun, hsame]
  split
  · next hi =>
    obtain ⟨rfl, hlt⟩ := hi
    have hp : p.guns[p.gunIndex]? = some p.gunInHand := by
      simp [PlayerInfo.gunInHand, PlayerInfo.gunAt, List.getD, hlt]
    have hhalf : GunHalf p.gunInHand :=
      ((h.congr hguns hindex) p.gunIndex p.gunInHand hp).1.1 rfl
    rw [rounds_gunTransition _ _ (hhalf.anim anim)]
    split <;> rfl
  · rfl

/-! ### The balance -/

/-- **The balance of a tick.** -/
theorem rounds_playerIntIh (e : Env K) (hr : w.Valid ref) (h : Equipped (w.get ref))
    (hfits : w.pickups.Fits) (i : ℕ) :
    rounds (((playerIntIh e ref w).get ref).gunAt i) +
        (if i = ((atTrigger e ref w).get ref).gunIndex then bulletsFired e ref (atTrigger e ref w)
          else 0) =
      rounds ((w.get ref).gunAt i) +
        boxGain w.pickups (steer e.libm w.map (w.get ref)) i := by
  have hr' := atTrigger_valid e hr
  have hself := World.get_modify_self hr (steer e.libm w.map)
  have hsteer : Equipped ((w.modify ref (steer e.libm w.map)).get ref) := by
    rw [hself]
    exact h.steer e.libm w.map
  have hpick := rounds_pickUp (World.valid_modify hr _) hsteer
    (by rw [pickups_modify]; exact hfits) i
  rw [hself, pickups_modify, (stock_steer e.libm w.map (w.get ref) i).rounds] at hpick
  have hshoot := rounds_shoot e hr' i
  have hfinish := rounds_finishTick (shoot e ref (atTrigger e ref w)).1
    ((World.SameControls.shoot e ref _).valid hr')
    (halfEquipped_shoot e hr' (equipped_atTrigger e hr h hfits)) i
  rw [playerIntIh_eq, hfinish, hshoot]
  exact hpick

/-- The bullets that a step fires from gun `i` of the player at `ref`. -/
def spentOn (ref : PlayerRef) (i : ℕ) (w : World K) : ArsenalInput K → ℕ
  | .tick e r =>
    if r = ref ∧ i = ((atTrigger e ref w).get ref).gunIndex then
      bulletsFired e ref (atTrigger e ref w)
    else 0
  | _ => 0

/-- The rounds that a step picks up for gun `i` of the player at `ref`, where the keys of the
tick have led it. -/
def gainedBy (ref : PlayerRef) (i : ℕ) (w : World K) : ArsenalInput K → ℕ
  | .tick e r => if r = ref then boxGain w.pickups (steer e.libm w.map (w.get ref)) i else 0
  | _ => 0

/-- The rounds of every gun change by the bullets that the step fires and the boxes that it
takes, and by nothing else. -/
def Balanced (ref : PlayerRef) (w : World K) (input : ArsenalInput K) : Prop :=
  ∀ v, (arsenalMachine ref).step w input = some v → ∀ i,
    rounds ((v.get ref).gunAt i) + spentOn ref i w input =
      rounds ((w.get ref).gunAt i) + gainedBy ref i w input

/-- A player whose guns hold the same is in balance. -/
theorem rounds_congr {p q : PlayerInfo K} (hguns : q.guns = p.guns) (i : ℕ) :
    rounds (q.gunAt i) = rounds (p.gunAt i) := by
  unfold PlayerInfo.gunAt
  rw [hguns]

theorem rounds_modify {r : PlayerRef} (hr : w.Valid ref) {f : PlayerInfo K → PlayerInfo K} {i : ℕ}
    (hf : ∀ p : PlayerInfo K, rounds ((f p).gunAt i) = rounds (p.gunAt i)) :
    rounds (((w.modify r f).get ref).gunAt i) = rounds ((w.get ref).gunAt i) := by
  by_cases hs : ref = r
  · subst hs
    rw [World.get_modify_self hr]
    exact hf _
  · rw [World.get_modify_of_ne hs]

/-- **Every step is in balance.** -/
theorem ArsenalInv.balanced (h : ArsenalInv ref w) (input : ArsenalInput K) :
    Balanced ref w input := by
  intro v hstep i
  cases input with
  | tick e r =>
    obtain ⟨hr, hv⟩ := Option.ite_none_right_eq_some.mp hstep
    obtain rfl := Option.some.inj hv
    by_cases hs : r = ref
    · subst hs
      simp only [spentOn, gainedBy, true_and, if_true]
      exact rounds_playerIntIh e hr h.equipped h.fits i
    · obtain ⟨health, armor, hget⟩ := wounded_playerIntIh_of_ne e (Ne.symm hs) hr
      simp only [spentOn, gainedBy, hs, false_and, if_false, Nat.add_zero]
      rw [hget]
      exact rounds_congr rfl i
  | control r movm position direction =>
    cases hstep
    exact rounds_modify h.valid fun p => rounds_congr rfl i
  | clock timeCounter => cases hstep; cases ref <;> rfl
  | screen state invMenu => cases hstep; cases ref <;> rfl
  | chooseGun r index =>
    cases hstep
    exact rounds_modify h.valid fun p => (stock_switchGun index p i).rounds
  | stock map gunAnims pickups =>
    obtain ⟨-, hv⟩ := Option.ite_none_right_eq_some.mp hstep
    cases hv
    cases ref <;> rfl
  | create l fov a =>
    obtain ⟨ha, hv⟩ := Option.ite_none_left_eq_some.mp hstep
    obtain rfl := Option.some.inj hv
    simp only [spentOn, gainedBy, Nat.add_zero]
    rw [(initPlayer_spares l fov h.valid ha).2]

/-- **Ammunition is conserved.**  Take a player that `init_player` creates with guns from
`create_gun_instance`, on a map whose boxes of ammunition fit.  Every step of every run
changes the rounds of each of its guns by the bullets that are fired from it and by the boxes
that are taken for it, and so does the run as a whole. -/
theorem ammo_conserved (l : Libm K) (fov : ℤ) (a : PlayerSetup K) (w : World K)
    (hguns : ∀ g ∈ a.guns, ∃ i startAmmo startPackets,
      g = createGunInstance i startAmmo startPackets) (hfits : w.pickups.Fits)
    (is : List (ArsenalInput K)) :
    (arsenalMachine (a.place w)).Along (Balanced (a.place w)) (initPlayer l fov a w) is ∧
      ∀ v, (arsenalMachine (a.place w)).run (initPlayer l fov a w) is = some v → ∀ i,
        rounds ((v.get (a.place w)).gunAt i) +
            (arsenalMachine (a.place w)).tally (spentOn (a.place w) i) (initPlayer l fov a w) is =
          rounds (((initPlayer l fov a w).get (a.place w)).gunAt i) +
            (arsenalMachine (a.place w)).tally (gainedBy (a.place w) i)
              (initPlayer l fov a w) is := by
  have hinit := ArsenalInv.init l fov hguns hfits
  constructor
  · exact Machine.along_of_step (fun v i hv => hv.balanced i)
      (fun v i u hv hu => ArsenalInv.step hv hu) is _ hinit
  · intro v hv i
    have hstep : ∀ (u : World K) (input : ArsenalInput K) (t : World K), ArsenalInv (a.place w) u →
        (arsenalMachine (a.place w)).step u input = some t →
        rounds ((t.get (a.place w)).gunAt i) + spentOn (a.place w) i u input =
          rounds ((u.get (a.place w)).gunAt i) + gainedBy (a.place w) i u input :=
      fun u input t hu ht => hu.balanced input t ht i
    exact Machine.balance (fun u input t hu ht => ArsenalInv.step hu ht) hstep is _ _ hinit hv

end

/-- The pickups of a level with one box of ammunition, which lies where the replica starts. -/
def boxAtStart : PickupStore ℚ :=
  let box : Pickup ℚ :=
    { details := .ammo 1 0, pickedUp := false, collider := ⟨replicaSetup.position, 1 / 2⟩
      animation := { framesPerSprite := 1, curFrame := 0, numFig := 1, state := .progress } }
  (addPickup box box ⟨[], initCollisionTable 42 20⟩).2

/-- Ticks in which a gun is charged, fires, reloads and fires again. -/
def twoShots : List (ArsenalInput ℚ) :=
  [.tick openField (.enemy 0), .clock 20, .tick openField (.enemy 0), .clock 21,
    .tick openField (.enemy 0), .clock 200, .tick openField (.enemy 0), .clock 201,
    .tick openField (.enemy 0)]

/-- The replica of the multiplayer level starts with one round, on a box of ammunition: it takes
the box, fires the round, empties the packet into the magazine and fires again. -/
theorem ammo_conserved_replica :
    let a := { replicaSetup with guns := [createGunInstance 0 1 0] }
    let w := initPlayer openField.libm 66 a { emptyWorld with pickups := boxAtStart }
    ((arsenalMachine (.enemy 0)).Along (Balanced (.enemy 0)) w twoShots ∧
      ∀ v, (arsenalMachine (.enemy 0)).run w twoShots = some v → ∀ i,
        rounds ((v.get (.enemy 0)).gunAt i) +
            (arsenalMachine (.enemy 0)).tally (spentOn (.enemy 0) i) w twoShots =
          rounds ((w.get (.enemy 0)).gunAt i) +
            (arsenalMachine (.enemy 0)).tally (gainedBy (.enemy 0) i) w twoShots) ∧
    ((arsenalMachine (.enemy 0)).run w twoShots).map
        (fun v =>
          (v.pickups.pickups[1]?.map Pickup.pickedUp, rounds ((v.get (.enemy 0)).gunAt 0))) =
      some (some true, 29) ∧
    (arsenalMachine (.enemy 0)).tally (spentOn (.enemy 0) 0) w twoShots = 2 ∧
    (arsenalMachine (.enemy 0)).tally (gainedBy (.enemy 0) 0) w twoShots = 30 := by
  have hguns : ∀ g ∈ [createGunInstance 0 1 0], ∃ i startAmmo startPackets,
      g = createGunInstance i startAmmo startPackets := by
    intro g hg
    rw [List.mem_singleton.mp hg]
    exact ⟨_, _, _, rfl⟩
  refine ⟨?_, ?_, ?_, ?_⟩
  · exact ammo_conserved openField.libm 66
      { replicaSetup with guns := [createGunInstance 0 1 0] }
      { emptyWorld with pickups := boxAtStart } hguns (by decide) twoShots
  all_goals decide +kernel

end OperationMinix
