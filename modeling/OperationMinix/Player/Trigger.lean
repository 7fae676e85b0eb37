import OperationMinix.Player.World

/-!
# What a tick does to the guns and to the others

The trigger of a player is pulled in the middle of its tick: after it has moved,
taken a number key and picked up what it touches, and before its animations and
its gun advance.  A pull of the trigger spends ammunition of the gun in hand and
may take health or armour from players; nothing else of a player changes.

Whether a shot goes off is decided by the gun alone when the player is not the
local one.  Who is dead takes no part in it either: the dead are hit by nobody,
but they pull the trigger like the living.

## Main definitions

* `Loaded` — the gun in hand goes off when the trigger is pulled.
* `Spares` — no bullet is spent and nobody is hurt.
* `atTrigger` — the world at the moment the trigger is pulled.

## Main results

* `fireLoop_spec`, `pickUp_spec` — all that a shot and a pickup change.
* `spares_fire_iff` — **a shot spares everybody exactly when the gun is not loaded.**
* `health_playerIntIh_dead` — a tick does not change the health of the dead, unless they
  pick something up.
* `harmless_of_spent` — a tick without a loaded gun and without a pickup is harmless.
-/

namespace OperationMinix

set_option linter.unusedSectionVars false

section Model

variable {K : Type*} [Field K] [LinearOrder K] [FloorRing K]

/-! ### Definitions -/

/-- The gun in hand. -/
def PlayerInfo.gunInHand (p : PlayerInfo K) : GunInstance := p.gunAt p.gunIndex

/-- The gun in hand goes off when the trigger is pulled, and costs a bullet. -/
def Loaded (p : PlayerInfo K) : Prop :=
  p.gunInHand.state = .ready ∧ 0 < p.gunInHand.gun.ammoPerFire ∧ 0 < p.gunInHand.currAmmo

instance (p : PlayerInfo K) : Decidable (Loaded p) := inferInstanceAs (Decidable (_ ∧ _))

/-- From `w` to `v`, the player at `ref` has spent no bullet, and nobody has lost
health or armour. -/
structure Spares (ref : PlayerRef) (w v : World K) : Prop where
  ammo : ∀ i, ((v.get ref).gunAt i).currAmmo = ((w.get ref).gunAt i).currAmmo
  health : ∀ s, (v.get s).health = (w.get s).health
  armor : ∀ s, (v.get s).armor = (w.get s).armor

/-- The world in the tick of a player at the moment the trigger is pulled. -/
def atTrigger (e : Env K) (ref : PlayerRef) (w : World K) : World K :=
  pickUp ref (w.modify ref (steer e.libm w.map))

theorem playerIntIh_eq (e : Env K) (ref : PlayerRef) (w : World K) :
    playerIntIh e ref w = finishTick ref (shoot e ref (atTrigger e ref w)).1
      (shoot e ref (atTrigger e ref w)).2 := rfl

/-! ### Shots -/

/-- The player after bullets that hit it: only health and armour have changed. -/
def Wounded (p q : PlayerInfo K) : Prop :=
  ∃ health armor, q = { p with health := health, armor := armor }

namespace Wounded

variable {p q r : PlayerInfo K}

theorem refl (p : PlayerInfo K) : Wounded p p := ⟨p.health, p.armor, rfl⟩

theorem trans (h : Wounded p q) (h' : Wounded q r) : Wounded p r := by
  obtain ⟨health, armor, rfl⟩ := h
  obtain ⟨health', armor', rfl⟩ := h'
  exact ⟨health', armor', rfl⟩

theorem hurt (damage : ℤ) (p : PlayerInfo K) : Wounded p (hurt damage p) := by
  unfold OperationMinix.hurt
  dsimp only
  split_ifs <;> exact ⟨_, _, rfl⟩

theorem modifyGun (h : Wounded p q) (f : GunInstance → GunInstance) :
    Wounded (p.modifyGun f) (q.modifyGun f) := by
  obtain ⟨health, armor, rfl⟩ := h
  exact ⟨health, armor, rfl⟩

end Wounded

/-- Bullets leave the gun in hand. -/
def spend (k : ℕ) (p : PlayerInfo K) : PlayerInfo K :=
  p.modifyGun fun g => { g with currAmmo := g.currAmmo - k }

theorem spend_zero (p : PlayerInfo K) : spend 0 p = p := by
  show { p with guns := p.guns.modify p.gunIndex id } = p
  rw [List.modify_id]

theorem spend_spend (k l : ℕ) (p : PlayerInfo K) : spend l (spend k p) = spend (k + l) p := by
  simp [spend, PlayerInfo.modifyGun, List.modify_modify_eq, Function.comp_def, Nat.sub_sub]

/-- From `w` to `v`, the player at `ref` has fired `k` bullets: all that can have
changed besides are the healths and armours. -/
structure Volley (ref : PlayerRef) (k : ℕ) (w v : World K) : Prop where
  players : ∀ s, Wounded (if s = ref then spend k (w.get s) else w.get s) (v.get s)
  enemies : v.enemies.length = w.enemies.length
  pickups : v.pickups = w.pickups
  map : v.map = w.map
  gunAnims : v.gunAnims = w.gunAnims
  timeCounter : v.timeCounter = w.timeCounter

/-- A list with a default beyond its end, after a change to one element. -/
theorem getD_modify {A : Type*} (l : List A) (i j : ℕ) (f : A → A) (d : A) :
    (l.modify i f).getD j d = if j = i ∧ j < l.length then f (l.getD j d) else l.getD j d := by
  rw [List.getD_eq_getElem?_getD, List.getD_eq_getElem?_getD, List.getElem?_modify]
  by_cases hj : j < l.length
  · by_cases hij : j = i
    · simp [hij, hij ▸ hj]
    · simp [hij, Ne.symm hij, hj]
  · simp [hj]

theorem gunAt_modifyGun (p : PlayerInfo K) (f : GunInstance → GunInstance) (i : ℕ) :
    (p.modifyGun f).gunAt i =
      if i = p.gunIndex ∧ i < p.guns.length then f (p.gunAt i) else p.gunAt i :=
  getD_modify p.guns p.gunIndex i f .zero

namespace Volley

variable {ref : PlayerRef} {k l : ℕ} {w v u : World K}

theorem refl (ref : PlayerRef) (w : World K) : Volley ref 0 w w := by
  refine ⟨fun s => ?_, rfl, rfl, rfl, rfl, rfl⟩
  split
  · rw [spend_zero]
    exact .refl _
  · exact .refl _

theorem trans (h : Volley ref k w v) (h' : Volley ref l v u) : Volley ref (k + l) w u := by
  refine ⟨fun s => ?_, h'.enemies.trans h.enemies, h'.pickups.trans h.pickups,
    h'.map.trans h.map, h'.gunAnims.trans h.gunAnims, h'.timeCounter.trans h.timeCounter⟩
  have h1 := h.players s
  have h2 := h'.players s
  split
  · next hs =>
    rw [if_pos hs] at h1 h2
    have := h1.modifyGun fun g => { g with currAmmo := g.currAmmo - l }
    rw [← spend_spend]
    exact Wounded.trans this h2
  · next hs =>
    rw [if_neg hs] at h1 h2
    exact h1.trans h2

theorem valid (h : Volley ref k w v) (hr : w.Valid ref) : v.Valid ref := by
  cases ref with
  | player => trivial
  | enemy i => exact hr.trans_eq h.enemies.symm

theorem strike (ref : PlayerRef) (damage : ℤ) (hit : Bool) (target : Option PlayerRef)
    (w : World K) : Volley ref 0 w (strike damage hit target w) := by
  unfold OperationMinix.strike
  split
  · cases target with
    | none =>
      obtain ⟨hp, -, -, -, -, -⟩ := refl ref w
      exact ⟨fun s => by cases s <;> exact hp _, rfl, rfl, rfl, rfl, rfl⟩
    | some r =>
      refine ⟨fun s => ?_, ?_, ?_, ?_, ?_, ?_⟩
      · have hself : (if s = ref then spend 0 (w.get s) else w.get s) = w.get s := by
          rw [spend_zero, ite_self]
        rw [hself]
        show Wounded (w.get s) ((w.modify r (hurt damage)).get s)
        by_cases hs : s = r
        · by_cases hr : w.Valid r
          · rw [hs, World.get_modify_self hr]
            exact .hurt damage _
          · rw [World.modify_of_not_valid hr]
            exact .refl _
        · rw [World.get_modify_of_ne hs]
          exact .refl _
      · exact World.enemies_length_modify w r _
      all_goals cases r <;> rfl
  · exact refl ref w

/-- The bullet is taken from the gun. -/
theorem spend (hr : w.Valid ref) (k : ℕ) : Volley ref k w (w.modify ref (spend k)) := by
  refine ⟨fun s => ?_, World.enemies_length_modify w ref _, ?_, ?_, ?_, ?_⟩
  · by_cases hs : s = ref
    · rw [if_pos hs, hs, World.get_modify_self hr]
      exact .refl _
    · rw [if_neg hs, World.get_modify_of_ne hs]
      exact .refl _
  all_goals cases ref <;> rfl

end Volley

theorem gunInHand_modifyGun (p : PlayerInfo K) (f : GunInstance → GunInstance) :
    (p.modifyGun f).gunInHand =
      if p.gunIndex < p.guns.length then f p.gunInHand else p.gunInHand := by
  show (p.modifyGun f).gunAt p.gunIndex = _
  rw [gunAt_modifyGun]
  simp [PlayerInfo.gunInHand]

/-- A gun that is not there is empty. -/
theorem gunInHand_of_not_lt {p : PlayerInfo K} (h : ¬ p.gunIndex < p.guns.length) :
    p.gunInHand = .zero := by
  simp [PlayerInfo.gunInHand, PlayerInfo.gunAt, List.getD, h]

theorem gunInHand_spend (k : ℕ) (p : PlayerInfo K) :
    (spend k p).gunInHand.currAmmo = p.gunInHand.currAmmo - k := by
  rw [spend, gunInHand_modifyGun]
  split
  · rfl
  · next h =>
    rw [gunInHand_of_not_lt h]
    exact (Nat.zero_sub k).symm

theorem Wounded.gunInHand {p q : PlayerInfo K} (h : Wounded p q) : q.gunInHand = p.gunInHand := by
  obtain ⟨health, armor, rfl⟩ := h
  rfl

/-- **What a shot does**: it spends as many bullets as the gun fires, or all there
are. -/
theorem fireLoop_spec (e : Env K) (ref : PlayerRef) : ∀ (n i : ℕ) (w : World K), w.Valid ref →
    Volley ref (min n (w.get ref).gunInHand.currAmmo) w (fireLoop e ref n i w) := by
  intro n
  induction n with
  | zero => intro i w _; rw [Nat.zero_min]; exact Volley.refl ref w
  | succ n ih =>
    intro i w hr
    unfold fireLoop
    split
    · next hammo =>
      have hbullet : Volley ref 0 w (bullet e ref i w) := Volley.strike ref _ _ _ w
      have hone := hbullet.trans (Volley.spend (hbullet.valid hr) 1)
      have hrest := ih (i + 1) _ (hone.valid hr)
      have hleft : (((bullet e ref i w).modify ref (spend 1)).get ref).gunInHand.currAmmo =
          (w.get ref).gunInHand.currAmmo - 1 := by
        have := hone.players ref
        rw [if_pos rfl] at this
        rw [this.gunInHand, gunInHand_spend]
      rw [hleft] at hrest
      have hcount : min (n + 1) (w.get ref).gunInHand.currAmmo =
          0 + 1 + min n ((w.get ref).gunInHand.currAmmo - 1) := by
        have : 0 < (w.get ref).gunInHand.currAmmo := hammo
        omega
      rw [hcount]
      exact hone.trans hrest
    · next hammo =>
      have : (w.get ref).gunInHand.currAmmo = 0 := Nat.eq_zero_of_not_pos hammo
      rw [this, Nat.min_zero]
      exact Volley.refl ref w

/-- A shot that costs nothing does nothing. -/
theorem fireLoop_empty (e : Env K) (ref : PlayerRef) {n : ℕ} (i : ℕ) {w : World K}
    (h : n = 0 ∨ (w.get ref).gunInHand.currAmmo = 0) : fireLoop e ref n i w = w := by
  cases n with
  | zero => rfl
  | succ n =>
    unfold fireLoop
    rw [if_neg]
    rcases h with h | h
    · cases h
    · exact Nat.not_lt_of_le (Nat.le_of_eq h)

/-- The gun in hand shows its firing animation. -/
def startFireAnim (p : PlayerInfo K) : PlayerInfo K :=
  p.modifyGun fun g => { g with currAnim := 1 }

/-- The animation changes nothing of the gun that decides about a shot. -/
theorem gunInHand_startFireAnim (p : PlayerInfo K) :
    (startFireAnim p).gunInHand.currAmmo = p.gunInHand.currAmmo ∧
      (startFireAnim p).gunInHand.gun = p.gunInHand.gun := by
  rw [startFireAnim, gunInHand_modifyGun]
  split
  · exact ⟨rfl, rfl⟩
  · exact ⟨rfl, rfl⟩

/-- `fire` at a gun that is ready. -/
theorem fire_ready (e : Env K) {ref : PlayerRef} {w : World K}
    (h : (w.get ref).gunInHand.state = .ready) : fire e ref w =
      (true, fireLoop e ref (w.get ref).gunInHand.gun.ammoPerFire 0 (w.modify ref startFireAnim)) :=
  if_neg (not_not.mpr h)

/-- `fire` at any other gun. -/
theorem fire_not_ready (e : Env K) {ref : PlayerRef} {w : World K}
    (h : (w.get ref).gunInHand.state ≠ .ready) : fire e ref w = (false, w) := if_pos h

/-- **What `fire` does** to a gun that is ready. -/
theorem fire_spec (e : Env K) {ref : PlayerRef} {w : World K} (hr : w.Valid ref)
    (h : (w.get ref).gunInHand.state = .ready) :
    Volley ref (min (w.get ref).gunInHand.gun.ammoPerFire (w.get ref).gunInHand.currAmmo)
      (w.modify ref startFireAnim) (fire e ref w).2 := by
  have hr' : (w.modify ref startFireAnim).Valid ref := World.valid_modify hr _
  have hloop := fireLoop_spec e ref (w.get ref).gunInHand.gun.ammoPerFire 0 _ hr'
  rw [World.get_modify_self hr, (gunInHand_startFireAnim _).1] at hloop
  rw [fire_ready e h]
  exact hloop

/-- What `fire` does to the one who fires. -/
theorem wounded_fire (e : Env K) {ref : PlayerRef} {w : World K} (hr : w.Valid ref)
    (h : (w.get ref).gunInHand.state = .ready) :
    Wounded (OperationMinix.spend
        (min (w.get ref).gunInHand.gun.ammoPerFire (w.get ref).gunInHand.currAmmo)
        (startFireAnim (w.get ref)))
      ((fire e ref w).2.get ref) := by
  have hvolley := (fire_spec e hr h).players ref
  rwa [if_pos rfl, World.get_modify_self hr] at hvolley

/-- The gun and the bullets in it after `fire`. -/
theorem ammo_fire (e : Env K) {ref : PlayerRef} {w : World K} (hr : w.Valid ref)
    (h : (w.get ref).gunInHand.state = .ready) :
    ((fire e ref w).2.get ref).gunIndex = (w.get ref).gunIndex ∧
      ((fire e ref w).2.get ref).gunInHand.currAmmo = (w.get ref).gunInHand.currAmmo -
        min (w.get ref).gunInHand.gun.ammoPerFire (w.get ref).gunInHand.currAmmo := by
  have hleft := wounded_fire e hr h
  constructor
  · obtain ⟨health, armor, hget⟩ := hleft
    rw [hget]
    rfl
  · rw [hleft.gunInHand, gunInHand_spend, (gunInHand_startFireAnim _).1]

/-! ### When a shot spares everybody -/

/-- The animation of the gun costs nothing. -/
theorem spares_startFireAnim {ref : PlayerRef} {w : World K} (hr : w.Valid ref) :
    Spares ref w (w.modify ref startFireAnim) := by
  have hother : ∀ s, ((w.modify ref startFireAnim).get s).health = (w.get s).health ∧
      ((w.modify ref startFireAnim).get s).armor = (w.get s).armor := by
    intro s
    by_cases hs : s = ref
    · rw [hs, World.get_modify_self hr]
      exact ⟨rfl, rfl⟩
    · rw [World.get_modify_of_ne hs]
      exact ⟨rfl, rfl⟩
  refine ⟨fun i => ?_, fun s => (hother s).1, fun s => (hother s).2⟩
  rw [World.get_modify_self hr, startFireAnim, gunAt_modifyGun]
  split <;> rfl

/-- **A shot spares everybody exactly when the gun is not loaded.** -/
theorem spares_fire_iff (e : Env K) {ref : PlayerRef} {w : World K} (hr : w.Valid ref) :
    Spares ref w (fire e ref w).2 ↔ ¬ Loaded (w.get ref) := by
  by_cases hready : (w.get ref).gunInHand.state = .ready
  · constructor
    · -- a loaded gun spends a bullet
      rintro hspares ⟨-, hfire, hammo⟩
      obtain ⟨hindex, hleft⟩ := ammo_fire e hr hready
      have hkept : ((fire e ref w).2.get ref).gunInHand.currAmmo =
          (w.get ref).gunInHand.currAmmo := by
        rw [PlayerInfo.gunInHand, hindex]
        exact hspares.ammo _
      omega
    · intro hload
      have hempty : (w.get ref).gunInHand.gun.ammoPerFire = 0 ∨
          ((w.modify ref startFireAnim).get ref).gunInHand.currAmmo = 0 := by
        rw [World.get_modify_self hr, (gunInHand_startFireAnim _).1]
        by_contra h
        rw [not_or] at h
        exact hload ⟨hready, Nat.pos_of_ne_zero h.1, Nat.pos_of_ne_zero h.2⟩
      rw [fire_ready e hready, fireLoop_empty e ref 0 hempty]
      exact spares_startFireAnim hr
  · rw [fire_not_ready e hready]
    exact iff_of_true ⟨fun _ => rfl, fun _ => rfl, fun _ => rfl⟩ fun h => hready h.1

/-- Everybody but the local player pulls the trigger in every tick. -/
theorem shoot_eq_fire (e : Env K) {ref : PlayerRef} {w : World K}
    (h : (w.get ref).type ≠ .player) : shoot e ref w = fire e ref w :=
  if_pos (by simp [wantsToShoot, h])

/-! ### Pickups -/

/-- What a box of ammunition does to a gun: one that it is not for, or that needs none,
stays as it is. -/
def restock (packets ammoIndex : ℕ) (g : GunInstance) : GunInstance :=
  if g.gun.ammoIndex ≠ ammoIndex ∨ g.currPackets ≥ g.gun.maxPackets then g
  else { g with currPackets := min (ushort (g.currPackets + packets)) g.gun.maxPackets }

/-- A box of ammunition restocks at most one gun, and none if it is not taken. -/
theorem pickupAmmoGuns_spec (packets ammoIndex : ℕ) : ∀ guns : List GunInstance,
    (∃ i, (pickupAmmoGuns packets ammoIndex guns).2 = guns.modify i (restock packets ammoIndex)) ∧
      ((pickupAmmoGuns packets ammoIndex guns).1 = false →
        (pickupAmmoGuns packets ammoIndex guns).2 = guns) := by
  intro guns
  induction guns with
  | nil => exact ⟨⟨0, rfl⟩, fun _ => rfl⟩
  | cons g guns ih =>
    obtain ⟨⟨i, hi⟩, hfalse⟩ := ih
    unfold pickupAmmoGuns
    split_ifs with hindex hfull
    · refine ⟨⟨0, ?_⟩, fun _ => rfl⟩
      simp [restock, hfull]
    · refine ⟨⟨0, ?_⟩, nofun⟩
      have hmin : ∀ a b : ℕ, (if a > b then b else a) = min a b := by
        intro a b
        split <;> omega
      simp [restock, hindex, hfull, hmin]
    · refine ⟨⟨i + 1, ?_⟩, fun h => ?_⟩
      · simp [hi]
      · exact congrArg (g :: ·) (hfalse h)

/-- The player after a pickup: only health, armour and one gun have changed. -/
def Supplied (s : PickupStore K) (p q : PlayerInfo K) : Prop :=
  ∃ health armor guns, q = { p with health := health, armor := armor, guns := guns } ∧
    (guns = p.guns ∨ ∃ pickup ∈ s.pickups, ∃ packets ammoIndex i,
      pickup.details = .ammo packets ammoIndex ∧ guns = p.guns.modify i (restock packets ammoIndex))

/-- What a handler does to the guns. -/
theorem pickupAmmo_guns (packets ammoIndex : ℕ) (p : PlayerInfo K) :
    ∃ i, (pickupAmmo packets ammoIndex p).2.guns = p.guns.modify i (restock packets ammoIndex) := by
  obtain ⟨⟨i, hi⟩, -⟩ := pickupAmmoGuns_spec packets ammoIndex (p.guns.take p.inventorySize)
  unfold pickupAmmo
  dsimp only
  rw [hi]
  by_cases hlt : i < p.inventorySize
  · refine ⟨i, ?_⟩
    rw [← List.take_modify, ← List.drop_modify_of_lt _ _ _ _ hlt, List.take_append_drop]
  · refine ⟨p.guns.length, ?_⟩
    rw [List.modify_eq_self (by rw [List.length_take]; omega), List.take_append_drop,
      List.modify_eq_self (Nat.le_refl _)]

/-- A handler that has no effect leaves the player as it is. -/
theorem pickupHandler_of_false {d : PickupDetails} {p : PlayerInfo K}
    (h : (pickupHandler d p).1 = false) : (pickupHandler d p).2 = p := by
  have htop : ∀ (amount : ℕ) (limit value : ℤ), (topUp amount limit value).1 = false →
      (topUp amount limit value).2 = value := by
    intro amount limit value
    unfold topUp
    split_ifs <;> simp
  cases d with
  | ammo packets ammoIndex =>
    obtain ⟨-, hfalse⟩ := pickupAmmoGuns_spec packets ammoIndex (p.guns.take p.inventorySize)
    show (pickupAmmo packets ammoIndex p).2 = p
    unfold pickupAmmo
    dsimp only
    rw [hfalse h, List.take_append_drop]
  | medkit health =>
    show { p with health := (topUp health p.maxHealth p.health).2 } = p
    rw [htop _ _ _ h]
  | armor armor =>
    show { p with armor := (topUp armor p.maxArmor p.armor).2 } = p
    rw [htop _ _ _ h]

theorem supplied_pickupHandler {s : PickupStore K} {pickup : Pickup K} (hs : pickup ∈ s.pickups)
    (p : PlayerInfo K) : Supplied s p (pickupHandler pickup.details p).2 := by
  cases hd : pickup.details with
  | ammo packets ammoIndex =>
    obtain ⟨i, hi⟩ := pickupAmmo_guns packets ammoIndex p
    exact ⟨_, _, _, rfl, Or.inr ⟨pickup, hs, packets, ammoIndex, i, hd, hi⟩⟩
  | medkit health => exact ⟨_, _, _, rfl, Or.inl rfl⟩
  | armor armor => exact ⟨_, _, _, rfl, Or.inl rfl⟩

theorem Supplied.refl (s : PickupStore K) (p : PlayerInfo K) : Supplied s p p :=
  ⟨p.health, p.armor, p.guns, rfl, Or.inl rfl⟩

theorem supplied_pickupIndex (p : PlayerInfo K) (index : ℕ) (s : PickupStore K) :
    Supplied s p (pickupIndex p index s).1 := by
  unfold pickupIndex
  split
  · exact .refl s p
  · next pickup hp => exact supplied_pickupHandler (List.mem_of_getElem? hp) p

/-- **What a tick picks up** changes the player alone. -/
theorem pickUp_spec {ref : PlayerRef} {w : World K} (hr : w.Valid ref) :
    Supplied w.pickups (w.get ref) ((pickUp ref w).get ref) ∧
      (∀ s, s ≠ ref → (pickUp ref w).get s = w.get s) ∧
      (pickUp ref w).enemies.length = w.enemies.length := by
  unfold pickUp
  dsimp only
  split
  · set index := checkPlayerPickupCollision w.pickups (w.get ref)
    have hself : Supplied w.pickups (w.get ref)
        ((w.modify ref fun _ => (pickupIndex (w.get ref) index w.pickups).1).get ref) := by
      rw [World.get_modify_self hr]
      exact supplied_pickupIndex _ _ _
    have hother : ∀ s, s ≠ ref →
        (w.modify ref fun _ => (pickupIndex (w.get ref) index w.pickups).1).get s = w.get s :=
      fun s hs => World.get_modify_of_ne hs _
    refine ⟨?_, fun s hs => ?_, World.enemies_length_modify w ref _⟩
    · cases ref <;> exact hself
    · cases s <;> exact hother _ hs
  · exact ⟨.refl _ _, fun _ _ => rfl, rfl⟩

/-- The player, where it stands, takes a pickup with effect. -/
def Takes (s : PickupStore K) (p : PlayerInfo K) : Prop :=
  0 < checkPlayerPickupCollision s p ∧
    ∃ pickup ∈ s.pickups[checkPlayerPickupCollision s p]?, (pickupHandler pickup.details p).1 = true

instance (s : PickupStore K) (p : PlayerInfo K) : Decidable (Takes s p) :=
  inferInstanceAs (Decidable (_ ∧ _))

theorem World.modify_get (w : World K) (ref : PlayerRef) :
    w.modify ref (fun _ => w.get ref) = w := by
  cases ref with
  | player => rfl
  | enemy i =>
    have henemies : w.enemies.modify i (fun _ => w.enemies.getD i .zero) = w.enemies := by
      apply List.ext_getElem?
      intro j
      rw [List.getElem?_modify, List.getD_eq_getElem?_getD]
      by_cases hij : i = j
      · subst hij
        cases w.enemies[i]? <;> simp
      · simp [hij]
    show { w with enemies := w.enemies.modify i fun _ => w.enemies.getD i .zero } = w
    rw [henemies]

/-- A tick that takes no pickup with effect picks up nothing. -/
theorem pickUp_of_not_takes {ref : PlayerRef} {w : World K} (h : ¬ Takes w.pickups (w.get ref)) :
    pickUp ref w = w := by
  unfold pickUp
  dsimp only
  split
  · next hidx =>
    have hindex : pickupIndex (w.get ref) (checkPlayerPickupCollision w.pickups (w.get ref))
        w.pickups = (w.get ref, w.pickups) := by
      unfold pickupIndex
      split
      · rfl
      · next pickup hp =>
        have hfalse : (pickupHandler pickup.details (w.get ref)).1 = false := by
          by_contra htrue
          exact h ⟨hidx, pickup, hp, by simpa using htrue⟩
        dsimp only
        rw [pickupHandler_of_false hfalse, hfalse]
        rfl
    rw [hindex]
    show { w.modify ref fun _ => w.get ref with pickups := w.pickups } = w
    rw [World.modify_get]
  · rfl

/-! ### From the start of the tick to the trigger -/

/-- Whether a gun is loaded is seen from the guns alone. -/
theorem loaded_congr {p q : PlayerInfo K} (hguns : q.guns = p.guns)
    (hindex : q.gunIndex = p.gunIndex) : Loaded q ↔ Loaded p := by
  unfold Loaded PlayerInfo.gunInHand PlayerInfo.gunAt
  rw [hguns, hindex]

/-- A pickup does not load the gun. -/
theorem Supplied.loaded_iff {s : PickupStore K} {p q : PlayerInfo K} (h : Supplied s p q) :
    Loaded q ↔ Loaded p := by
  obtain ⟨health, armor, guns, rfl, rfl | ⟨-, -, packets, index, i, -, rfl⟩⟩ := h
  · exact loaded_congr rfl rfl
  · have hgun : ∀ g, (restock packets index g).state = g.state ∧
        (restock packets index g).gun = g.gun ∧
        (restock packets index g).currAmmo = g.currAmmo := by
      intro g
      unfold restock
      split <;> exact ⟨rfl, rfl, rfl⟩
    unfold Loaded PlayerInfo.gunInHand PlayerInfo.gunAt
    rw [getD_modify]
    split
    · obtain ⟨hstate, hkind, hammo⟩ := hgun (p.guns.getD p.gunIndex .zero)
      rw [hstate, hkind, hammo]
    · rfl

/-- The number keys look at the keyboard and the guns alone. -/
theorem numberKeys_guns {p q : PlayerInfo K} (hkbd : q.movm.kbdState = p.movm.kbdState)
    (hguns : q.guns = p.guns) (hindex : q.gunIndex = p.gunIndex) :
    (numberKeys q).guns = (numberKeys p).guns ∧
      (numberKeys q).gunIndex = (numberKeys p).gunIndex := by
  unfold numberKeys
  rw [hkbd]
  split
  · exact ⟨hguns, hindex⟩
  · next i _ =>
    unfold takeNumberKey switchGun
    dsimp only
    rw [hindex, hguns]
    split <;> exact ⟨rfl, rfl⟩

theorem move_turn_eq (l : Libm K) (m : GameMap) (p : PlayerInfo K) :
    ∃ position direction cameraPlane movm,
      move l m (turn l p) = { p with position, direction, cameraPlane, movm } := by
  unfold move turn
  dsimp only
  split_ifs <;> exact ⟨_, _, _, _, rfl⟩

theorem numberKeys_eq (p : PlayerInfo K) :
    ∃ movm gunIndex guns, numberKeys p = { p with movm, gunIndex, guns } := by
  unfold numberKeys
  split
  · exact ⟨_, _, _, rfl⟩
  · unfold takeNumberKey switchGun
    dsimp only
    split <;> exact ⟨_, _, _, rfl⟩

theorem updatePlayerControls_eq (p : PlayerInfo K) :
    ∃ movm, updatePlayerControls p = { p with movm } := by
  unfold updatePlayerControls
  dsimp only
  split <;> exact ⟨_, rfl⟩

/-- **What the keys and the move can change** of a player. -/
theorem steer_eq (l : Libm K) (m : GameMap) (p : PlayerInfo K) :
    ∃ position direction cameraPlane movm gunIndex guns, steer l m p =
      { p with position, direction, cameraPlane, movm, gunIndex, guns } := by
  obtain ⟨position, direction, cameraPlane, movm, hmove⟩ := move_turn_eq l m p
  obtain ⟨movm', gunIndex, guns, hkeys⟩ := numberKeys_eq (move l m (turn l p))
  obtain ⟨movm'', hcontrols⟩ := updatePlayerControls_eq (numberKeys (move l m (turn l p)))
  unfold steer
  dsimp only
  split
  · rw [hmove]
    exact ⟨_, _, _, _, _, _, rfl⟩
  · rw [hcontrols, hkeys, hmove]
    exact ⟨_, _, _, _, _, _, rfl⟩

theorem steer_type (l : Libm K) (m : GameMap) (p : PlayerInfo K) :
    (steer l m p).type = p.type := by
  obtain ⟨_, _, _, _, _, _, h⟩ := steer_eq l m p
  rw [h]

theorem steer_health (l : Libm K) (m : GameMap) (p : PlayerInfo K) :
    (steer l m p).health = p.health ∧ (steer l m p).armor = p.armor := by
  obtain ⟨_, _, _, _, _, _, h⟩ := steer_eq l m p
  rw [h]
  exact ⟨rfl, rfl⟩

/-- At the trigger, the player is still of its type. -/
theorem atTrigger_type (e : Env K) {ref : PlayerRef} {w : World K} (hr : w.Valid ref) :
    ((atTrigger e ref w).get ref).type = (w.get ref).type := by
  have hr' := World.valid_modify hr (steer e.libm w.map)
  obtain ⟨health, armor, guns, hget, -⟩ := (pickUp_spec hr').1
  rw [atTrigger, hget, World.get_modify_self hr]
  exact steer_type _ _ _

theorem atTrigger_valid (e : Env K) {ref : PlayerRef} {w : World K} (hr : w.Valid ref) :
    (atTrigger e ref w).Valid ref :=
  (World.SameControls.pickUp ref _).valid (World.valid_modify hr (steer e.libm w.map))

/-- At the trigger, the gun of a player with keys is the one of the number keys. -/
theorem loaded_atTrigger (e : Env K) {ref : PlayerRef} {w : World K} (hr : w.Valid ref)
    (htype : (w.get ref).type ≠ .bot) :
    Loaded ((atTrigger e ref w).get ref) ↔ Loaded (numberKeys (w.get ref)) := by
  have hr' := World.valid_modify hr (steer e.libm w.map)
  rw [atTrigger, (pickUp_spec hr').1.loaded_iff, World.get_modify_self hr]
  have hturn := SameControls.turn e.libm (w.get ref)
  have hmove := hturn.trans (SameControls.move e.libm w.map (turn e.libm (w.get ref)))
  have hmoved : (move e.libm w.map (turn e.libm (w.get ref))).guns = (w.get ref).guns := by
    obtain ⟨_, _, _, _, h⟩ := move_turn_eq e.libm w.map (w.get ref)
    rw [h]
  obtain ⟨hguns, hindex⟩ := numberKeys_guns hmove.kbdState hmoved hmove.gunIndex
  obtain ⟨movm, hcontrols⟩ := updatePlayerControls_eq
    (numberKeys (move e.libm w.map (turn e.libm (w.get ref))))
  unfold steer
  dsimp only
  rw [if_neg (by rw [hmove.type]; exact htype)]
  rw [hcontrols]
  exact loaded_congr hguns hindex

/-! ### The dead -/

/-- A target that is found is alive. -/
theorem target_alive (l : Libm K) (w : World K) (ply : PlayerInfo K) :
    ∀ (rs : List PlayerRef) (a : Aim K), (∀ r, a.target = some r → 0 < (w.get r).health) →
      ∀ r, (rs.foldl (aimAt l w ply) a).target = some r → 0 < (w.get r).health := by
  intro rs
  induction rs with
  | nil => intro a h; exact h
  | cons r rs ih =>
    intro a h
    apply ih
    intro t ht
    unfold aimAt at ht
    dsimp only at ht
    split at ht
    · next hseen =>
      obtain rfl : r = t := Option.some.inj ht
      exact hseen.1
    · exact h t ht

/-- A bullet changes its target alone. -/
theorem strike_of_ne (damage : ℤ) (hit : Bool) {target : Option PlayerRef} {s : PlayerRef}
    (hs : ∀ r, target = some r → s ≠ r) (w : World K) :
    (strike damage hit target w).get s = w.get s := by
  unfold strike
  split
  · cases target with
    | none => cases s <;> rfl
    | some r => exact World.get_modify_of_ne (hs r rfl) _
  · rfl

/-- No bullet hits the dead. -/
theorem bullet_dead (e : Env K) (ref : PlayerRef) (i : ℕ) {w : World K} {s : PlayerRef}
    (hs : (w.get s).health ≤ 0) : (bullet e ref i w).get s = w.get s := by
  have halive := target_alive e.libm w (w.get ref) (targets w (w.get ref))
    { hit := e.unassignedHit w i, target := none, dist := -1 } nofun
  unfold bullet
  apply strike_of_ne
  rintro r hr rfl
  exact absurd (halive s hr) (not_lt_of_ge hs)

/-- A change of the guns is no change of the healths. -/
theorem health_modify (w : World K) (ref : PlayerRef) {f : PlayerInfo K → PlayerInfo K}
    (hf : ∀ p, (f p).health = p.health ∧ (f p).armor = p.armor) (s : PlayerRef) :
    ((w.modify ref f).get s).health = (w.get s).health ∧
      ((w.modify ref f).get s).armor = (w.get s).armor := by
  by_cases hs : s = ref
  · subst hs
    by_cases hr : w.Valid s
    · rw [World.get_modify_self hr]
      exact hf _
    · rw [World.modify_of_not_valid hr]
      exact ⟨rfl, rfl⟩
  · rw [World.get_modify_of_ne hs]
    exact ⟨rfl, rfl⟩

/-- A shot does not change the health of the dead. -/
theorem health_fireLoop_dead (e : Env K) (ref : PlayerRef) {s : PlayerRef} :
    ∀ (n i : ℕ) (w : World K), (w.get s).health ≤ 0 →
      ((fireLoop e ref n i w).get s).health = (w.get s).health := by
  intro n
  induction n with
  | zero => intro i w _; rfl
  | succ n ih =>
    intro i w hs
    unfold fireLoop
    split
    · have hbullet := bullet_dead e ref i hs
      have hspend := (health_modify (bullet e ref i w) ref (f := spend 1)
        (fun _ => ⟨rfl, rfl⟩) s).1
      rw [hbullet] at hspend
      exact (ih (i + 1) _ (hspend.le.trans hs)).trans hspend
    · rfl

theorem health_shoot_dead (e : Env K) (ref : PlayerRef) {w : World K} {s : PlayerRef}
    (hs : (w.get s).health ≤ 0) : ((shoot e ref w).2.get s).health = (w.get s).health := by
  unfold shoot
  split
  · by_cases hready : (w.get ref).gunInHand.state = .ready
    · have hanim := (health_modify w ref (f := startFireAnim)
        (fun _ => ⟨rfl, rfl⟩) s).1
      rw [fire_ready e hready]
      exact (health_fireLoop_dead e ref _ 0 _ (by rw [hanim]; exact hs)).trans hanim
    · rw [fire_not_ready e hready]
  · rfl

theorem animate_health (t : ℕ) (shot : Bool) (p : PlayerInfo K) :
    (animate t shot p).health = p.health ∧ (animate t shot p).armor = p.armor := by
  unfold animate
  split <;> exact ⟨rfl, rfl⟩

/-- The end of a tick heals and hurts nobody. -/
theorem health_finishTick (ref : PlayerRef) (shot : Bool) (w : World K) (s : PlayerRef) :
    ((finishTick ref shot w).get s).health = (w.get s).health ∧
      ((finishTick ref shot w).get s).armor = (w.get s).armor := by
  have hanim := health_modify w ref (animate_health w.timeCounter shot) s
  have hgun : ∀ (v : World K) (g : GunInstance),
      ((v.modify ref fun p => p.modifyGun fun _ => g).get s).health = (v.get s).health ∧
      ((v.modify ref fun p => p.modifyGun fun _ => g).get s).armor = (v.get s).armor :=
    fun v g => health_modify v ref (f := fun p => p.modifyGun fun _ => g) (fun _ => ⟨rfl, rfl⟩) s
  unfold finishTick
  dsimp only
  constructor
  · refine Eq.trans ?_ hanim.1
    cases s <;> exact (hgun _ _).1
  · refine Eq.trans ?_ hanim.2
    cases s <;> exact (hgun _ _).2

/-- **A tick does not change the health of the dead**, unless it is their own and they
take a pickup. -/
theorem health_playerIntIh_dead (e : Env K) (ref : PlayerRef) {w : World K} {s : PlayerRef}
    (hs : (w.get s).health ≤ 0)
    (htakes : s = ref → ¬ Takes w.pickups (steer e.libm w.map (w.get ref))) (hr : w.Valid ref) :
    ((playerIntIh e ref w).get s).health = (w.get s).health := by
  have hsteer := (health_modify w ref (steer_health e.libm w.map) s).1
  have htrigger : ((atTrigger e ref w).get s).health = (w.get s).health := by
    by_cases hsr : s = ref
    · have hpick : ¬ Takes (w.modify ref (steer e.libm w.map)).pickups
          ((w.modify ref (steer e.libm w.map)).get ref) := by
        rw [World.get_modify_self hr]
        cases ref <;> exact htakes hsr
      rw [atTrigger, pickUp_of_not_takes hpick]
      exact hsteer
    · rw [atTrigger, (pickUp_spec (World.valid_modify hr _)).2.1 s hsr]
      exact hsteer
  rw [playerIntIh_eq, (health_finishTick ref _ _ s).1]
  rw [health_shoot_dead e ref (by rw [htrigger]; exact hs), htrigger]

/-! ### Harmless ticks -/

/-- The tick of the player at `ref` harms nobody: it spends no bullet, no other player
loses health or armour, and no pickup goes. -/
structure Harmless (e : Env K) (ref : PlayerRef) (w : World K) : Prop where
  bullets : ∀ i, (((shoot e ref (atTrigger e ref w)).2.get ref).gunAt i).currAmmo =
    (((atTrigger e ref w).get ref).gunAt i).currAmmo
  others : ∀ s, s ≠ ref → ((playerIntIh e ref w).get s).health = (w.get s).health ∧
    ((playerIntIh e ref w).get s).armor = (w.get s).armor
  pickups : (playerIntIh e ref w).pickups = w.pickups

/-- The player has, after its keys and its move, no loaded gun in hand and no pickup to
take. -/
def Spent (e : Env K) (ref : PlayerRef) (w : World K) : Prop :=
  ¬ Loaded (steer e.libm w.map (w.get ref)) ∧
    ¬ Takes w.pickups (steer e.libm w.map (w.get ref))

instance (e : Env K) (ref : PlayerRef) (w : World K) : Decidable (Spent e ref w) :=
  inferInstanceAs (Decidable (_ ∧ _))

theorem pickups_modify (w : World K) (ref : PlayerRef) (f : PlayerInfo K → PlayerInfo K) :
    (w.modify ref f).pickups = w.pickups := by
  cases ref <;> rfl

theorem pickups_shoot (e : Env K) {ref : PlayerRef} {w : World K} (hr : w.Valid ref) :
    (shoot e ref w).2.pickups = w.pickups := by
  unfold shoot
  split
  · by_cases hready : (w.get ref).gunInHand.state = .ready
    · rw [(fire_spec e hr hready).pickups, pickups_modify]
    · rw [fire_not_ready e hready]
  · rfl

theorem pickups_finishTick (ref : PlayerRef) (shot : Bool) (w : World K) :
    (finishTick ref shot w).pickups = w.pickups := by
  unfold finishTick
  dsimp only
  rw [pickups_modify, pickups_modify]

/-- **A tick of a spent player is harmless.** -/
theorem harmless_of_spent (e : Env K) {ref : PlayerRef} {w : World K} (hr : w.Valid ref)
    (h : Spent e ref w) : Harmless e ref w := by
  have hr' := World.valid_modify hr (steer e.libm w.map)
  have htrigger : atTrigger e ref w = w.modify ref (steer e.libm w.map) := by
    apply pickUp_of_not_takes
    rw [pickups_modify, World.get_modify_self hr]
    exact h.2
  have hload : ¬ Loaded ((atTrigger e ref w).get ref) := by
    rw [htrigger, World.get_modify_self hr]
    exact h.1
  have hspares : Spares ref (atTrigger e ref w) (shoot e ref (atTrigger e ref w)).2 := by
    unfold shoot
    split
    · exact (spares_fire_iff e (atTrigger_valid e hr)).mpr hload
    · exact ⟨fun _ => rfl, fun _ => rfl, fun _ => rfl⟩
  refine ⟨hspares.ammo, fun s hs => ?_, ?_⟩
  · have hget : (atTrigger e ref w).get s = w.get s := by
      rw [htrigger, World.get_modify_of_ne hs]
    rw [playerIntIh_eq, (health_finishTick ref _ _ s).1, (health_finishTick ref _ _ s).2,
      hspares.health, hspares.armor, hget]
    exact ⟨rfl, rfl⟩
  · rw [playerIntIh_eq, pickups_finishTick, pickups_shoot e (atTrigger_valid e hr), htrigger,
      pickups_modify]

end Model

end OperationMinix
