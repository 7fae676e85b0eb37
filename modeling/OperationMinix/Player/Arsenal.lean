import OperationMinix.Player.Trigger
import OperationMinix.Runs.Machine
import Mathlib.Data.List.GetD

/-!
# The guns of a player between its ticks

A gun has seven states, and four functions change them: `switch_gun`, `fire`, the pickups
and `update_gun_state`, in this order within a tick.  A shot may leave a gun `READY`
without a bullet, which is put right only at the end of the tick, so there are two
invariants: `GunOk`, between ticks, and `GunHalf`, of the gun in hand after its shot.

What happens between the ticks of a player is not restricted: the controls change, the
clock is set, other players make their ticks and hit this one, the gun menu chooses a
gun, and a new level brings other pickups.

## Main definitions

* `GunOk`, `Armed` — the invariant of a gun, and of all guns of a player.
* `arsenalMachine` — everything that happens to a player after its creation.

## Main results

* `gunTransition_ok` — **`update_gun_state` restores the invariant.**
* `guns_ok` — **the guns are in order between any two ticks**, and every shot costs a
  bullet.
-/

namespace OperationMinix

open Runs

set_option linter.unusedSectionVars false

/-! ### The invariants of a gun -/

/-- A gun between two ticks. -/
structure GunOk (inHand : Prop) (g : GunInstance) : Prop where
  inventory : g.state = .inventory ↔ ¬ inHand
  loaded : g.state = .charging ∨ g.state = .ready ∨ g.state = .cooldown → 0 < g.currAmmo
  reloading : g.state = .reloading → g.currAmmo = 0 ∧ 0 < g.currPackets
  noAmmo : g.state = .noAmmo → g.currAmmo = 0
  ammo : g.currAmmo ≤ g.gun.ammoPerPacket
  packets : g.currPackets ≤ g.gun.maxPackets

/-- The gun in hand after a shot: the magazine of a `READY` gun may be empty. -/
structure GunHalf (g : GunInstance) : Prop where
  inHand : g.state ≠ .inventory
  loaded : g.state = .charging ∨ g.state = .cooldown → 0 < g.currAmmo
  reloading : g.state = .reloading → g.currAmmo = 0 ∧ 0 < g.currPackets
  noAmmo : g.state = .noAmmo → g.currAmmo = 0
  ammo : g.currAmmo ≤ g.gun.ammoPerPacket
  packets : g.currPackets ≤ g.gun.maxPackets

/-- The gun is one of the table; the gun of a bot differs from it in cooldown and range. -/
def FromTable (g : GunInstance) : Prop :=
  ∃ i, g.gun.ammoPerPacket = (getGun i).ammoPerPacket ∧
    g.gun.ammoPerFire = (getGun i).ammoPerFire ∧ g.gun.maxPackets = (getGun i).maxPackets ∧
    g.gun.ammoIndex = (getGun i).ammoIndex

/-- The packets of a box and those a gun has fit into an `unsigned short`. -/
def PickupDetails.Fits : PickupDetails → Prop
  | .ammo packets ammoIndex =>
    ∀ gun ∈ gunTable, gun.ammoIndex = ammoIndex → packets ≤ 65535 - gun.maxPackets
  | _ => True

instance : ∀ d : PickupDetails, Decidable d.Fits
  | .ammo _ _ => inferInstanceAs (Decidable (∀ _ ∈ gunTable, _ → _))
  | .medkit _ => isTrue trivial
  | .armor _ => isTrue trivial

theorem getGun_mem (i : ℕ) : getGun i ∈ Gun.zero :: gunTable := by
  unfold getGun
  by_cases hi : i < gunTable.length
  · rw [List.getD_eq_getElem _ _ hi]
    exact List.mem_cons_of_mem _ (List.getElem_mem hi)
  · rw [List.getD_eq_default _ _ (Nat.le_of_not_lt hi)]
    exact List.mem_cons_self

namespace FromTable

variable {g : GunInstance}

/-- A gun that takes packets has bullets in them. -/
theorem ammoPerPacket_pos (h : FromTable g) (hmax : 0 < g.gun.maxPackets) :
    0 < g.gun.ammoPerPacket := by
  obtain ⟨i, hammo, -, hpackets, -⟩ := h
  have htable : ∀ gun ∈ Gun.zero :: gunTable, 0 < gun.maxPackets → 0 < gun.ammoPerPacket := by
    decide
  rw [hammo]
  rw [hpackets] at hmax
  exact htable _ (getGun_mem i) hmax

/-- A gun that holds bullets fires them. -/
theorem ammoPerFire_pos (h : FromTable g) (hammo : 0 < g.gun.ammoPerPacket) :
    0 < g.gun.ammoPerFire := by
  obtain ⟨i, hpacket, hfire, -, -⟩ := h
  have htable : ∀ gun ∈ Gun.zero :: gunTable, 0 < gun.ammoPerPacket → 0 < gun.ammoPerFire := by
    decide
  rw [hfire]
  rw [hpacket] at hammo
  exact htable _ (getGun_mem i) hammo

/-- A box that fits a gun of the table does not overflow the packets. -/
theorem fits (h : FromTable g) {packets : ℕ}
    (hfits : (PickupDetails.ammo packets g.gun.ammoIndex).Fits) :
    packets + g.gun.maxPackets ≤ 65535 := by
  obtain ⟨i, -, -, hmax, hindex⟩ := h
  have htable : ∀ gun ∈ Gun.zero :: gunTable, ∃ gun' ∈ gunTable,
      gun'.ammoIndex = gun.ammoIndex ∧ gun.maxPackets ≤ gun'.maxPackets ∧
        gun'.maxPackets ≤ 65535 := by
    decide
  obtain ⟨gun, hgun, hindex', hle, hsmall⟩ := htable _ (getGun_mem i)
  have := hfits gun hgun (hindex'.trans hindex.symm)
  omega

theorem createGunInstance (i startAmmo startPackets : ℕ) :
    FromTable (createGunInstance i startAmmo startPackets) := ⟨i, rfl, rfl, rfl, rfl⟩

end FromTable

namespace GunOk

variable {inHand inHand' : Prop} {g : GunInstance}

theorem congr (h : GunOk inHand g) (hiff : inHand ↔ inHand') : GunOk inHand' g :=
  ⟨h.inventory.trans hiff.not, h.loaded, h.reloading, h.noAmmo, h.ammo, h.packets⟩

theorem half (h : GunOk True g) : GunHalf g := by
  refine ⟨fun hst => h.inventory.mp hst trivial, ?_, h.reloading, h.noAmmo, h.ammo, h.packets⟩
  rintro (hst | hst)
  · exact h.loaded (Or.inl hst)
  · exact h.loaded (Or.inr (Or.inr hst))

/-- A gun that is put away, or taken in hand. -/
theorem setState (h : GunOk inHand g) {s : GunState} (hs : s = .inventory ∨ s = .initial)
    (hhand : s = .inventory ↔ ¬ inHand') : GunOk inHand' { g with state := s } := by
  refine ⟨hhand, ?_, ?_, ?_, h.ammo, h.packets⟩
  all_goals rcases hs with rfl | rfl <;> simp

theorem createGunInstance (i startAmmo startPackets : ℕ) :
    GunOk False (createGunInstance i startAmmo startPackets) := by
  refine ⟨by simp [OperationMinix.createGunInstance], ?_, nofun, nofun, ?_, ?_⟩
  · rintro (h | h | h) <;> cases h
  · dsimp only [OperationMinix.createGunInstance]
    split <;> omega
  · dsimp only [OperationMinix.createGunInstance]
    split <;> omega

/-- A box of ammunition never takes packets away. -/
theorem restock (h : GunOk inHand g) (htable : FromTable g) {packets ammoIndex : ℕ}
    (hfits : (PickupDetails.ammo packets ammoIndex).Fits) :
    GunOk inHand (OperationMinix.restock packets ammoIndex g) := by
  unfold OperationMinix.restock
  split
  · exact h
  · next hneeds =>
    rw [not_or, not_not] at hneeds
    obtain ⟨rfl, hroom⟩ := hneeds
    have hsum := htable.fits hfits
    have hshort : ushort (g.currPackets + packets) = g.currPackets + packets := by
      unfold ushort
      omega
    rw [hshort]
    refine ⟨h.inventory, h.loaded, fun hst => ⟨(h.reloading hst).1, ?_⟩, h.noAmmo, h.ammo,
      Nat.min_le_right _ _⟩
    have := (h.reloading hst).2
    show 0 < min (g.currPackets + packets) g.gun.maxPackets
    omega

end GunOk

/-- A shot of a gun that is ready. -/
theorem GunHalf.fire {g : GunInstance} (h : GunHalf g) (hst : g.state = .ready) (k : ℕ) :
    GunHalf { g with currAnim := 1, currAmmo := g.currAmmo - k } := by
  have hammo := h.ammo
  refine ⟨h.inHand, ?_, ?_, ?_, ?_, h.packets⟩
  · rintro (h | h) <;> cases hst.symm.trans h
  · intro h; cases hst.symm.trans h
  · intro h; cases hst.symm.trans h
  · show g.currAmmo - k ≤ g.gun.ammoPerPacket
    omega

/-- The animation of a gun is none of its business. -/
theorem GunHalf.anim {g : GunInstance} (h : GunHalf g) (b : Bool) :
    GunHalf (if b then { g with currAnim := 0 } else g) := by
  split
  · exact ⟨h.inHand, h.loaded, h.reloading, h.noAmmo, h.ammo, h.packets⟩
  · exact h

theorem gunTransition_gun (t : ℕ) (shot : Bool) (g : GunInstance) :
    (gunTransition t shot g).gun = g.gun := by
  have hreload : (reloadGun g).gun = g.gun := by
    unfold reloadGun
    split <;> rfl
  unfold gunTransition
  cases g.state <;> dsimp only <;> split_ifs <;> first | rfl | exact hreload

/-- What a gun in hand in a given state has. -/
def GunState.Admits (ammo packets : ℕ) : GunState → Prop
  | .inventory => False
  | .initial => True
  | .charging => 0 < ammo
  | .ready => 0 < ammo
  | .cooldown => 0 < ammo
  | .reloading => ammo = 0 ∧ 0 < packets
  | .noAmmo => ammo = 0

theorem GunOk.of_admits {g : GunInstance} (hs : g.state.Admits g.currAmmo g.currPackets)
    (hammo : g.currAmmo ≤ g.gun.ammoPerPacket) (hpackets : g.currPackets ≤ g.gun.maxPackets) :
    GunOk True g := by
  unfold GunState.Admits at hs
  cases hst : g.state <;> rw [hst] at hs <;> constructor <;> simp_all

/-- **`update_gun_state` restores the invariant**, whatever the clock says. -/
theorem gunTransition_ok (t : ℕ) (shot : Bool) {g : GunInstance} (h : GunHalf g)
    (htable : FromTable g) : GunOk True (gunTransition t shot g) := by
  have hammo := h.ammo
  have hpackets := h.packets
  unfold gunTransition
  cases hst : g.state with
  | inventory => exact absurd hst h.inHand
  | initial =>
    dsimp only
    split_ifs with hempty hleft
    · exact .of_admits (And.intro hempty hleft) hammo hpackets
    · exact .of_admits hempty hammo hpackets
    · exact .of_admits (Nat.pos_of_ne_zero hempty) hammo hpackets
  | charging =>
    have hloaded := h.loaded (Or.inl hst)
    dsimp only
    split
    · exact .of_admits hloaded hammo hpackets
    · exact .of_admits (by rw [hst]; exact hloaded) hammo hpackets
  | ready =>
    -- the shot may have emptied the magazine
    dsimp only
    split_ifs with hempty hleft hshot
    · exact .of_admits (And.intro hempty (Nat.pos_of_ne_zero hleft)) hammo hpackets
    · exact .of_admits hempty hammo hpackets
    · exact .of_admits (Nat.pos_of_ne_zero hempty) hammo hpackets
    · exact .of_admits (by rw [hst]; exact Nat.pos_of_ne_zero hempty) hammo hpackets
  | cooldown =>
    have hloaded := h.loaded (Or.inr hst)
    dsimp only
    split
    · exact .of_admits hloaded hammo hpackets
    · exact .of_admits (by rw [hst]; exact hloaded) hammo hpackets
  | reloading =>
    obtain ⟨hempty, hleft⟩ := h.reloading hst
    dsimp only
    split
    · -- the magazine is filled, and holds a bullet
      have hmagazine := htable.ammoPerPacket_pos (Nat.lt_of_lt_of_le hleft hpackets)
      rw [show reloadGun g = { g with
        currPackets := g.currPackets - 1, currAmmo := g.gun.ammoPerPacket } from if_pos hleft]
      exact .of_admits hmagazine (Nat.le_refl _) ((Nat.sub_le _ _).trans hpackets)
    · exact .of_admits (by rw [hst]; exact And.intro hempty hleft) hammo hpackets
  | noAmmo =>
    have hempty := h.noAmmo hst
    dsimp only
    split
    · next hleft =>
      exact .of_admits (And.intro hempty (Nat.pos_of_ne_zero hleft)) hammo hpackets
    · exact .of_admits (by rw [hst]; exact hempty) hammo hpackets

/-! ### All guns of a player -/

/-- What holds of the elements of a list after one of them has changed. -/
theorem forall_modify {α : Type*} {l : List α} {i : ℕ} {f : α → α} {Q : ℕ → α → Prop}
    (hi : ∀ x ∈ l[i]?, Q i (f x)) (hj : ∀ j, j ≠ i → ∀ x ∈ l[j]?, Q j x) :
    ∀ j, ∀ x ∈ (l.modify i f)[j]?, Q j x := by
  intro j x hx
  rw [List.getElem?_modify] at hx
  obtain ⟨y, hy, hxy⟩ := Option.map_eq_some_iff.mp hx
  by_cases hij : i = j
  · subst hij
    rw [if_pos rfl] at hxy
    exact hxy ▸ hi y hy
  · rw [if_neg hij] at hxy
    exact hxy ▸ hj j (Ne.symm hij) y hy

section Model

variable {K : Type*} [Field K] [LinearOrder K] [FloorRing K]

/-- **The guns of a player are in order.** -/
def Armed (p : PlayerInfo K) : Prop := ∀ i, ∀ g ∈ p.guns[i]?, GunOk (i = p.gunIndex) g

/-- The guns of a player, all of the table, are in order. -/
def Equipped (p : PlayerInfo K) : Prop :=
  ∀ i, ∀ g ∈ p.guns[i]?, GunOk (i = p.gunIndex) g ∧ FromTable g

/-- The same, but for the gun in hand, which has just been shot. -/
def HalfEquipped (p : PlayerInfo K) : Prop :=
  ∀ i, ∀ g ∈ p.guns[i]?, ((i = p.gunIndex → GunHalf g) ∧ (i ≠ p.gunIndex → GunOk False g)) ∧
    FromTable g

namespace Equipped

variable {p q : PlayerInfo K}

theorem armed (h : Equipped p) : Armed p := fun i g hg => (h i g hg).1

theorem congr (h : Equipped p) (hguns : q.guns = p.guns) (hindex : q.gunIndex = p.gunIndex) :
    Equipped q := by
  intro i g hg
  rw [hguns] at hg
  rw [hindex]
  exact h i g hg

/-- The gun in hand, if there is one. -/
theorem gunInHand (h : Equipped p) (hi : p.gunIndex < p.guns.length) :
    GunOk True p.gunInHand ∧ FromTable p.gunInHand := by
  have hg : p.guns[p.gunIndex]? = some p.gunInHand := by
    simp [PlayerInfo.gunInHand, PlayerInfo.gunAt, List.getD, hi]
  obtain ⟨hok, htable⟩ := h p.gunIndex _ hg
  exact ⟨hok.congr (by simp), htable⟩

theorem switchGun (h : Equipped p) (index : ℕ) : Equipped (switchGun index p) := by
  unfold OperationMinix.switchGun
  split
  · next hne =>
    -- the gun that is put away, and then the one that is taken
    have haway : ∀ j : ℕ, ∀ g ∈ (p.guns.modify p.gunIndex fun g =>
        { g with state := .inventory })[j]?, GunOk False g ∧ FromTable g := by
      apply forall_modify (Q := fun _ g => GunOk False g ∧ FromTable g)
      · intro g hg
        exact ⟨(h _ g hg).1.setState (Or.inl rfl) (by simp), (h _ g hg).2⟩
      · intro j hj g hg
        exact ⟨(h j g hg).1.congr (by simp [hj]), (h j g hg).2⟩
    apply forall_modify
    · intro g hg
      exact ⟨(haway index g hg).1.setState (Or.inr rfl) (by simp), (haway index g hg).2⟩
    · intro j hj g hg
      exact ⟨(haway j g hg).1.congr (by simp [hj]), (haway j g hg).2⟩
  · exact h

theorem numberKeys (h : Equipped p) : Equipped (numberKeys p) := by
  unfold OperationMinix.numberKeys
  split
  · exact h
  · next i _ =>
    apply Equipped.switchGun
    exact h.congr rfl rfl

/-- What a player does to its guns before it picks something up. -/
theorem steer (h : Equipped p) (l : Libm K) (m : GameMap) : Equipped (steer l m p) := by
  have hmove : Equipped (move l m (turn l p)) := by
    obtain ⟨_, _, _, _, heq⟩ := move_turn_eq l m p
    rw [heq]
    exact h.congr rfl rfl
  unfold OperationMinix.steer
  dsimp only
  split
  · exact hmove
  · obtain ⟨movm, heq⟩ := updatePlayerControls_eq (OperationMinix.numberKeys (move l m (turn l p)))
    rw [heq]
    exact hmove.numberKeys.congr rfl rfl

theorem supplied {s : PickupStore K} (h : Equipped p)
    (hfits : ∀ pickup ∈ s.pickups, pickup.details.Fits) (hq : Supplied s p q) : Equipped q := by
  obtain ⟨health, armor, guns, rfl, rfl | ⟨pickup, hp, packets, ammoIndex, i, hd, rfl⟩⟩ := hq
  · exact h.congr rfl rfl
  · have hbox : (PickupDetails.ammo packets ammoIndex).Fits := hd ▸ hfits pickup hp
    have hgun : ∀ g, (OperationMinix.restock packets ammoIndex g).gun = g.gun := by
      intro g
      unfold OperationMinix.restock
      split <;> rfl
    apply forall_modify
    · intro g hg
      obtain ⟨hok, htable⟩ := h i g hg
      exact ⟨hok.restock htable hbox, by unfold FromTable; rw [hgun]; exact htable⟩
    · intro j _ g hg
      exact h j g hg

theorem half (h : Equipped p) : HalfEquipped p := by
  intro i g hg
  obtain ⟨hok, htable⟩ := h i g hg
  exact ⟨⟨fun hi => (hok.congr (by simp [hi])).half, fun hi => hok.congr (by simp [hi])⟩, htable⟩

end Equipped

namespace HalfEquipped

variable {p q : PlayerInfo K}

theorem congr (h : HalfEquipped p) (hguns : q.guns = p.guns) (hindex : q.gunIndex = p.gunIndex) :
    HalfEquipped q := by
  intro i g hg
  rw [hguns] at hg
  rw [hindex]
  exact h i g hg

/-- The end of the tick: the gun in hand advances. -/
theorem finish (h : HalfEquipped p) (t : ℕ) (shot anim : Bool) :
    Equipped (p.modifyGun fun _ =>
      gunTransition t shot (if anim then { p.gunInHand with currAnim := 0 } else p.gunInHand)) := by
  apply forall_modify
  · intro g hg
    obtain rfl : p.gunInHand = g := by
      simp [PlayerInfo.gunInHand, PlayerInfo.gunAt, List.getD, Option.mem_def.mp hg]
    obtain ⟨⟨hhalf, -⟩, htable⟩ := h _ _ hg
    have hgun : (gunTransition t shot
        (if anim then { p.gunInHand with currAnim := 0 } else p.gunInHand)).gun =
          p.gunInHand.gun := by
      rw [gunTransition_gun]
      split <;> rfl
    have hanim : FromTable (if anim then { p.gunInHand with currAnim := 0 } else p.gunInHand) := by
      split <;> exact htable
    refine ⟨(gunTransition_ok t shot ((hhalf rfl).anim anim) hanim).congr (iff_of_true trivial rfl),
      ?_⟩
    unfold FromTable
    rw [hgun]
    exact htable
  · intro j hj g hg
    obtain ⟨⟨-, hok⟩, htable⟩ := h j g hg
    exact ⟨(hok hj).congr (iff_of_false id hj), htable⟩

end HalfEquipped

/-- The shot of a gun that is ready. -/
theorem Equipped.shoot {p : PlayerInfo K} (h : Equipped p) (hst : p.gunInHand.state = .ready)
    (k : ℕ) : HalfEquipped (spend k (startFireAnim p)) := by
  have hguns : (spend k (startFireAnim p)).guns = p.guns.modify p.gunIndex fun g =>
      { g with currAnim := 1, currAmmo := g.currAmmo - k } := by
    simp [spend, startFireAnim, PlayerInfo.modifyGun, List.modify_modify_eq, Function.comp_def]
  unfold HalfEquipped
  rw [hguns]
  apply forall_modify
  · intro g hg
    obtain rfl : p.gunInHand = g := by
      simp [PlayerInfo.gunInHand, PlayerInfo.gunAt, List.getD, Option.mem_def.mp hg]
    obtain ⟨hok, htable⟩ := h _ _ hg
    exact ⟨⟨fun _ => (hok.congr (by simp)).half.fire hst k, fun hne => absurd rfl hne⟩, htable⟩
  · intro j hj g hg
    exact h.half j g hg

/-! ### One tick -/

/-- The boxes on the map hold no more packets than fit. -/
def PickupStore.Fits (s : PickupStore K) : Prop := ∀ pickup ∈ s.pickups, pickup.details.Fits

instance (s : PickupStore K) : Decidable s.Fits := inferInstanceAs (Decidable (∀ _ ∈ _, _))

/-- A pickup that is taken stays what it was. -/
theorem fits_pickupIndex {s : PickupStore K} (h : s.Fits) (p : PlayerInfo K) (index : ℕ) :
    (pickupIndex p index s).2.Fits := by
  have hdelete : (deletePickup index s).Fits := by
    unfold deletePickup
    split
    · exact h
    · next pickup hp =>
      intro q hq
      rcases List.mem_or_eq_of_mem_set hq with hq | rfl
      · exact h q hq
      · exact h pickup (List.mem_of_getElem? hp)
  unfold pickupIndex
  split
  · exact h
  · dsimp only
    split
    · exact hdelete
    · exact h

theorem fits_pickUp {ref : PlayerRef} {w : World K} (h : w.pickups.Fits) :
    (pickUp ref w).pickups.Fits := by
  unfold pickUp
  dsimp only
  split
  · exact fits_pickupIndex h _ _
  · exact h

variable {ref : PlayerRef} {w : World K}

theorem fits_playerIntIh (e : Env K) (hr : w.Valid ref) (h : w.pickups.Fits) :
    (playerIntIh e ref w).pickups.Fits := by
  rw [playerIntIh_eq, pickups_finishTick, pickups_shoot e (atTrigger_valid e hr)]
  apply fits_pickUp
  rw [pickups_modify]
  exact h

/-- The guns at the moment the trigger is pulled. -/
theorem equipped_atTrigger (e : Env K) (hr : w.Valid ref) (h : Equipped (w.get ref))
    (hfits : w.pickups.Fits) : Equipped ((atTrigger e ref w).get ref) := by
  have hsteer : Equipped ((w.modify ref (steer e.libm w.map)).get ref) := by
    rw [World.get_modify_self hr]
    exact h.steer e.libm w.map
  refine hsteer.supplied ?_ (pickUp_spec (World.valid_modify hr _)).1
  rw [pickups_modify]
  exact hfits

/-- The guns after the shot. -/
theorem halfEquipped_shoot (e : Env K) (hr : w.Valid ref) (h : Equipped (w.get ref)) :
    HalfEquipped ((shoot e ref w).2.get ref) := by
  unfold shoot
  split
  · by_cases hst : (w.get ref).gunInHand.state = .ready
    · obtain ⟨health, armor, hget⟩ := wounded_fire e hr hst
      rw [hget]
      exact (h.shoot hst _).congr rfl rfl
    · rw [fire_not_ready e hst]
      exact h.half
  · exact h.half

theorem get_gunAnims (w : World K) (gunAnims : GunAnims) (s : PlayerRef) :
    ({ w with gunAnims } : World K).get s = w.get s := by
  cases s <;> rfl

/-- The guns at the end of the tick. -/
theorem equipped_finishTick (shot : Bool) (hr : w.Valid ref) (h : HalfEquipped (w.get ref)) :
    Equipped ((finishTick ref shot w).get ref) := by
  have hanim : HalfEquipped ((w.modify ref (animate w.timeCounter shot)).get ref) := by
    rw [World.get_modify_self hr]
    refine h.congr ?_ (SameControls.animate _ _ _).gunIndex
    unfold animate
    split <;> rfl
  unfold finishTick
  dsimp only
  rw [get_gunAnims, World.get_modify_self (World.valid_modify hr _)]
  exact hanim.finish _ _ _

/-- **One tick** of the player keeps its guns in order. -/
theorem equipped_playerIntIh (e : Env K) (hr : w.Valid ref) (h : Equipped (w.get ref))
    (hfits : w.pickups.Fits) : Equipped ((playerIntIh e ref w).get ref) := by
  have hr' := atTrigger_valid e hr
  have hshot := halfEquipped_shoot e hr' (equipped_atTrigger e hr h hfits)
  rw [playerIntIh_eq]
  exact equipped_finishTick _ ((World.SameControls.shoot e ref _).valid hr') hshot

/-- The tick of another player can only hit this one. -/
theorem wounded_playerIntIh_of_ne (e : Env K) {s : PlayerRef} (hs : s ≠ ref) (hr : w.Valid ref) :
    Wounded (w.get s) ((playerIntIh e ref w).get s) := by
  have hr' := atTrigger_valid e hr
  have htrigger : (atTrigger e ref w).get s = w.get s := by
    rw [atTrigger, (pickUp_spec (World.valid_modify hr _)).2.1 s hs, World.get_modify_of_ne hs]
  have hshot : Wounded (w.get s) ((shoot e ref (atTrigger e ref w)).2.get s) := by
    rw [← htrigger]
    unfold shoot
    split
    · by_cases hst : ((atTrigger e ref w).get ref).gunInHand.state = .ready
      · have hvolley := (fire_spec e hr' hst).players s
        rw [if_neg hs, World.get_modify_of_ne hs] at hvolley
        exact hvolley
      · rw [fire_not_ready e hst]
        exact .refl _
    · exact .refl _
  have hfinish : ∀ (shot : Bool) (v : World K), (finishTick ref shot v).get s = v.get s := by
    intro shot v
    unfold finishTick
    dsimp only
    rw [get_gunAnims, World.get_modify_of_ne hs, World.get_modify_of_ne hs]
  rw [playerIntIh_eq, hfinish]
  exact hshot

/-- So it does not touch the guns. -/
theorem equipped_playerIntIh_of_ne (e : Env K) {s : PlayerRef} (hs : s ≠ ref) (hr : w.Valid ref)
    (h : Equipped (w.get s)) : Equipped ((playerIntIh e ref w).get s) := by
  obtain ⟨health, armor, hget⟩ := wounded_playerIntIh_of_ne e hs hr
  rw [hget]
  exact h.congr rfl rfl

/-- A shot of guns in order costs a bullet. -/
theorem equipped_spends (e : Env K) (hr : w.Valid ref) (h : Equipped (w.get ref))
    (hshot : (shoot e ref w).1 = true) :
    ((shoot e ref w).2.get ref).gunInHand.currAmmo < (w.get ref).gunInHand.currAmmo := by
  unfold shoot at hshot ⊢
  split at hshot
  · next hwants =>
    rw [if_pos hwants]
    by_cases hst : (w.get ref).gunInHand.state = .ready
    · have hlt : (w.get ref).gunIndex < (w.get ref).guns.length := by
        by_contra hnot
        rw [gunInHand_of_not_lt hnot] at hst
        cases hst
      obtain ⟨hok, htable⟩ := h.gunInHand hlt
      have hammo := hok.loaded (Or.inr (Or.inl hst))
      have hfire := htable.ammoPerFire_pos (Nat.lt_of_lt_of_le hammo hok.ammo)
      rw [(ammo_fire e hr hst).2]
      omega
    · rw [fire_not_ready e hst] at hshot
      cases hshot
  · cases hshot

/-! ### Everything that happens to a player -/

/-- What happens in the life of a player. -/
inductive ArsenalInput (K : Type*) where
  /-- `player_int_ih` of any player. -/
  | tick (e : Env K) (ref : PlayerRef)
  /-- New controls, and where a player is told to be and to look. -/
  | control (ref : PlayerRef) (movm : Controls K) (position direction : Vec K)
  | clock (timeCounter : ℕ)
  | screen (state : GameState) (invMenu : MenuState)
  /-- A gun is chosen in the gun menu. -/
  | chooseGun (ref : PlayerRef) (index : ℕ)
  /-- Other walls, animations and pickups; the boxes fit the guns. -/
  | stock (map : GameMap) (gunAnims : GunAnims) (pickups : PickupStore K)
  /-- `init_player` of another player. -/
  | create (l : Libm K) (fov : ℤ) (a : PlayerSetup K)

instance (w : World K) : ∀ r : PlayerRef, Decidable (w.Valid r)
  | .player => isTrue trivial
  | .enemy i => inferInstanceAs (Decidable (i < w.enemies.length))

/-- The life of the player at `ref`. -/
def arsenalMachine (ref : PlayerRef) : Machine (World K) (ArsenalInput K) where
  step w
    | .tick e r => if w.Valid r then some (playerIntIh e r w) else none
    | .control r movm position direction =>
      some (w.modify r fun p => { p with movm, position, direction })
    | .clock timeCounter => some { w with timeCounter }
    | .screen state invMenu => some { w with state, invMenu }
    | .chooseGun r index => some (w.modify r (switchGun index))
    | .stock map gunAnims pickups =>
      if pickups.Fits then some { w with map, gunAnims, pickups } else none
    | .create l fov a =>
      if a.type = .player ∧ ref = .player then none else some (initPlayer l fov a w)

/-- The creation of another player leaves this one alone. -/
theorem initPlayer_spares (l : Libm K) (fov : ℤ) {a : PlayerSetup K} (hr : w.Valid ref)
    (ha : ¬ (a.type = .player ∧ ref = .player)) :
    (initPlayer l fov a w).Valid ref ∧ (initPlayer l fov a w).get ref = w.get ref := by
  unfold initPlayer
  split
  · next htype =>
    cases ref with
    | player => exact absurd ⟨htype, rfl⟩ ha
    | enemy i => exact ⟨hr, rfl⟩
  · cases ref with
    | player => exact ⟨trivial, rfl⟩
    | enemy i =>
      have hi : i < w.enemies.length := hr
      refine ⟨?_, ?_⟩
      · show i < (w.enemies ++ [_]).length
        rw [List.length_append]
        omega
      · show (w.enemies ++ [newPlayer l fov a]).getD i .zero = w.enemies.getD i .zero
        simp [List.getD, List.getElem?_append_left hi]

/-- A change to any player leaves every player in its place. -/
theorem World.valid_modify_any {r : PlayerRef} (hr : w.Valid ref)
    (f : PlayerInfo K → PlayerInfo K) : (w.modify r f).Valid ref := by
  cases ref with
  | player => trivial
  | enemy i => exact hr.trans_eq (World.enemies_length_modify w r f).symm

/-- The place `init_player` puts its player. -/
def PlayerSetup.place (a : PlayerSetup K) (w : World K) : PlayerRef :=
  if a.type = .player then .player else .enemy w.enemies.length

/-- If the tick of the player at `ref` fires, it costs a bullet. -/
def FiringSpends (ref : PlayerRef) (w : World K) : ArsenalInput K → Prop
  | .tick e r => r = ref → (shoot e ref (atTrigger e ref w)).1 = true →
    ((shoot e ref (atTrigger e ref w)).2.get ref).gunInHand.currAmmo <
      ((atTrigger e ref w).get ref).gunInHand.currAmmo
  | _ => True

/-- The player is there, its guns are in order, and the boxes on the map fit them. -/
structure ArsenalInv (ref : PlayerRef) (w : World K) : Prop where
  valid : w.Valid ref
  equipped : Equipped (w.get ref)
  fits : w.pickups.Fits

namespace ArsenalInv

theorem congr {v : World K} (h : ArsenalInv ref w) (hget : v.get ref = w.get ref)
    (hlen : v.enemies.length = w.enemies.length) (hpick : v.pickups = w.pickups) :
    ArsenalInv ref v := by
  refine ⟨?_, by rw [hget]; exact h.equipped, by rw [hpick]; exact h.fits⟩
  cases ref with
  | player => trivial
  | enemy i => exact h.valid.trans_eq hlen.symm

theorem modify (h : ArsenalInv ref w) (r : PlayerRef) {f : PlayerInfo K → PlayerInfo K}
    (hf : Equipped (w.get ref) → Equipped (f (w.get ref))) : ArsenalInv ref (w.modify r f) := by
  refine ⟨World.valid_modify_any h.valid f, ?_, by rw [pickups_modify]; exact h.fits⟩
  · by_cases hr : ref = r
    · subst hr
      rw [World.get_modify_self h.valid]
      exact hf h.equipped
    · rw [World.get_modify_of_ne hr]
      exact h.equipped

/-- The tick of any player. -/
theorem tick (h : ArsenalInv ref w) (e : Env K) {r : PlayerRef} (hr : w.Valid r) :
    ArsenalInv ref (playerIntIh e r w) := by
  have hlen : (playerIntIh e r w).enemies.length = w.enemies.length :=
    (sameControls_playerIntIh e r w).enemies.trans (World.enemies_length_modify w r _)
  refine ⟨?_, ?_, fits_playerIntIh e hr h.fits⟩
  · cases ref with
    | player => trivial
    | enemy i => exact h.valid.trans_eq hlen.symm
  · by_cases hs : ref = r
    · subst hs
      exact equipped_playerIntIh e hr h.equipped h.fits
    · exact equipped_playerIntIh_of_ne e hs hr h.equipped

/-- Another player is created. -/
theorem create (h : ArsenalInv ref w) (l : Libm K) (fov : ℤ) {a : PlayerSetup K}
    (ha : ¬ (a.type = .player ∧ ref = .player)) : ArsenalInv ref (initPlayer l fov a w) := by
  obtain ⟨hvalid, hget⟩ := initPlayer_spares l fov h.valid ha
  refine ⟨hvalid, by rw [hget]; exact h.equipped, ?_⟩
  unfold initPlayer
  split <;> exact h.fits

/-- **One step** in the life of a player. -/
theorem step {v : World K} {i : ArsenalInput K} (h : ArsenalInv ref w)
    (hstep : (arsenalMachine ref).step w i = some v) : ArsenalInv ref v := by
  cases i with
  | tick e r =>
    obtain ⟨hr, hv⟩ := Option.ite_none_right_eq_some.mp hstep
    exact Option.some.inj hv ▸ h.tick e hr
  | control r movm position direction =>
    cases hstep
    exact h.modify r fun hequipped => hequipped.congr rfl rfl
  | clock timeCounter => cases hstep; exact h.congr (by cases ref <;> rfl) rfl rfl
  | screen state invMenu => cases hstep; exact h.congr (by cases ref <;> rfl) rfl rfl
  | chooseGun r index =>
    cases hstep
    exact h.modify r fun hequipped => hequipped.switchGun index
  | stock map gunAnims pickups =>
    obtain ⟨hfits, hv⟩ := Option.ite_none_right_eq_some.mp hstep
    cases hv
    refine ⟨?_, ?_, hfits⟩
    · cases ref <;> exact h.valid
    · cases ref <;> exact h.equipped
  | create l fov a =>
    obtain ⟨ha, hv⟩ := Option.ite_none_left_eq_some.mp hstep
    exact Option.some.inj hv ▸ h.create l fov ha

/-- A player that has just been created. -/
theorem init (l : Libm K) (fov : ℤ) {a : PlayerSetup K}
    (hguns : ∀ g ∈ a.guns, ∃ i startAmmo startPackets,
      g = createGunInstance i startAmmo startPackets) (hfits : w.pickups.Fits) :
    ArsenalInv (a.place w) (initPlayer l fov a w) := by
  have hall : ∀ i : ℕ, ∀ g ∈ a.guns[i]?, GunOk False g ∧ FromTable g := by
    intro i g hg
    obtain ⟨j, startAmmo, startPackets, rfl⟩ := hguns g (List.mem_of_getElem? hg)
    exact ⟨.createGunInstance _ _ _, .createGunInstance _ _ _⟩
  have hnew : Equipped (newPlayer l fov a) := by
    apply forall_modify
    · intro g hg
      obtain ⟨hok, htable⟩ := hall 0 g hg
      have htaken : GunOk (0 = (newPlayer l fov a).gunIndex) { g with state := .initial } :=
        hok.setState (Or.inr rfl) (iff_of_false nofun (not_not.mpr rfl))
      unfold firstGun
      dsimp only
      split
      · exact ⟨⟨htaken.inventory, htaken.loaded, htaken.reloading, htaken.noAmmo, htaken.ammo,
          htaken.packets⟩, htable⟩
      · exact ⟨htaken, htable⟩
    · intro i hi g hg
      obtain ⟨hok, htable⟩ := hall i g hg
      exact ⟨hok.congr (iff_of_false id hi), htable⟩
  unfold PlayerSetup.place initPlayer
  split
  · exact ⟨trivial, hnew, hfits⟩
  · refine ⟨?_, ?_, hfits⟩
    · show w.enemies.length < (w.enemies ++ [_]).length
      rw [List.length_append, List.length_singleton]
      exact Nat.lt_succ_self _
    · show Equipped ((w.enemies ++ [newPlayer l fov a]).getD w.enemies.length .zero)
      rw [List.getD_eq_getElem _ _ (by simp), List.getElem_append_right (Nat.le_refl _)]
      simpa using hnew

end ArsenalInv

/-- **The guns are in order.**  Take a player that `init_player` creates with guns from
`create_gun_instance`, on a map whose boxes of ammunition fit.  Whatever happens to it
then, between any two steps each of its guns is `INVENTORY` exactly when it is not the
one in hand, has bullets when it is `CHARGING`, `READY` or `COOLDOWN`, none but a packet
when it is `RELOADING`, and none when it has `NO_AMMO`, and holds no more than its
magazine and its packets.  Every `fire` that returns `true` costs a bullet. -/
theorem guns_ok (l : Libm K) (fov : ℤ) (a : PlayerSetup K) (w : World K)
    (hguns : ∀ g ∈ a.guns, ∃ i startAmmo startPackets,
      g = createGunInstance i startAmmo startPackets) (hfits : w.pickups.Fits)
    (is : List (ArsenalInput K)) :
    (arsenalMachine (a.place w)).Always (fun v => Armed (v.get (a.place w)))
        (initPlayer l fov a w) is ∧
      (arsenalMachine (a.place w)).Along (FiringSpends (a.place w)) (initPlayer l fov a w) is := by
  have hinit := ArsenalInv.init l fov hguns hfits
  constructor
  · exact Machine.always_of_step (fun v hv => hv.equipped.armed)
      (fun v i u hv hu => ArsenalInv.step hv hu) is hinit
  · refine Machine.along_of_step ?_ (fun v i u hv hu => ArsenalInv.step hv hu) is _ hinit
    intro v i hv
    cases i with
    | tick e r =>
      rintro rfl hshot
      exact equipped_spends e (atTrigger_valid e hv.valid)
        (equipped_atTrigger e hv.valid hv.equipped hv.fits) hshot
    | control r movm position direction => trivial
    | clock timeCounter => trivial
    | screen state invMenu => trivial
    | chooseGun r index => trivial
    | stock map gunAnims pickups => trivial
    | create l fov a => trivial

end Model

/-- The replica of the multiplayer level makes a tick, and changes its gun before the
next. -/
theorem guns_ok_replica :
    let life : List (ArsenalInput ℚ) := [.tick openField (.enemy 0), .clock 20,
      .chooseGun (.enemy 0) 1, .tick openField (.enemy 0)]
    let w := initPlayer openField.libm 66 replicaSetup emptyWorld
    (arsenalMachine (.enemy 0)).Always (fun v => Armed (v.get (.enemy 0))) w life ∧
      (arsenalMachine (.enemy 0)).Along (FiringSpends (.enemy 0)) w life := by
  have hguns : ∀ g ∈ (replicaSetup).guns, ∃ i startAmmo startPackets,
      g = createGunInstance i startAmmo startPackets := by
    intro g hg
    simp only [replicaSetup, List.mem_cons, List.not_mem_nil, or_false] at hg
    rcases hg with rfl | rfl | rfl <;> exact ⟨_, _, _, rfl⟩
  exact guns_ok openField.libm 66 replicaSetup emptyWorld hguns (by decide) _

end OperationMinix
