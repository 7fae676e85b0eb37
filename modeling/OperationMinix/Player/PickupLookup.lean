import Mathlib.Data.List.MinMax
import OperationMinix.Player.PickupTable

/-!
# Looking a pickup up

Instead of going through all pickups, `check_player_pickup_collision` goes through those
listed in the cell of the player.  Two things keep this from being the same.

A pickup is listed where its circle properly overlaps a cell, but it is touched on the
rim as well.  A player on the rim can stand in a cell that the circle has only this one
point in common with.

The entry of a pickup that is removed becomes a `0`, and the loop looks at slot `0` for
it.  The slot is never assigned, and whatever it holds can be closer than all pickups.

## Main definitions

* `pickupCalls` — pickups are added and deleted, in any order.
* `FindsClosest` — what the lookup finds is the closest pickup of all.
* `SeesRim`, `PassesHoles` — the two things that are needed for it.

## Main results

* `check_eq_argmin` — what is found is the first of the closest entries.
* `findsClosest_iff` — **exactly when the table answers like all pickups do.**
-/

namespace OperationMinix

open Runs

set_option linter.unusedSectionVars false

section Model

variable {K : Type*} [Field K] [LinearOrder K] [FloorRing K]

/-! ### Definitions -/

/-- The point is on the map. -/
def OnMap (width height : ℕ) (p : Vec K) : Prop :=
  (0 ≤ p.x ∧ p.x < width) ∧ (0 ≤ p.y ∧ p.y < height)

instance (width height : ℕ) (p : Vec K) : Decidable (OnMap width height p) :=
  inferInstanceAs (Decidable ((_ ∧ _) ∧ (_ ∧ _)))

/-- What happens to the pickups. -/
inductive PickupCall (K : Type*) where
  /-- `add_pickup`; `slot` is what the unassigned slot `0` holds. -/
  | add (slot pickup : Pickup K)
  /-- `delete_pickup`. -/
  | delete (index : ℕ)

/-- The pickup is on the map, and its radius is at most `1`, as `add_collision` demands. -/
def Placeable (width height : ℕ) (pickup : Pickup K) : Prop :=
  OnMap width height pickup.collider.center ∧
    0 < pickup.collider.radius ∧ pickup.collider.radius ≤ 1

instance (width height : ℕ) (pickup : Pickup K) : Decidable (Placeable width height pickup) :=
  inferInstanceAs (Decidable (_ ∧ (_ ∧ _)))

/-- Placeable pickups are added, and pickups are deleted, in any order. -/
def pickupCalls (width height : ℕ) : Machine (PickupStore K) (PickupCall K) where
  step s
    | .add slot pickup =>
      if Placeable width height pickup then some (addPickup slot pickup s).2 else none
    | .delete index => some (deletePickup index s)

/-- The squared distance to the pickup with index `i`. -/
def distanceTo (s : PickupStore K) (pos : Vec K) (i : ℕ) : K :=
  ((s.pickups[i]?).map fun pickup => distPositionsSquared pos pickup.collider.center).getD 0

/-- The circle of what is stored under index `i` reaches the point. -/
def Reaches (s : PickupStore K) (pos : Vec K) (i : ℕ) : Prop :=
  ∃ pickup ∈ s.pickups[i]?,
    distPositionsSquared pos pickup.collider.center ≤
      pickup.collider.radius * pickup.collider.radius

instance (s : PickupStore K) (pos : Vec K) (i : ℕ) : Decidable (Reaches s pos i) :=
  decidable_of_iff (((s.pickups[i]?).any fun pickup =>
    distPositionsSquared pos pickup.collider.center ≤
      pickup.collider.radius * pickup.collider.radius) = true) (by
    unfold Reaches
    cases s.pickups[i]? <;> simp)

/-- A pickup that is still there is touched. -/
def Touched (s : PickupStore K) (pos : Vec K) (i : ℕ) : Prop :=
  i ≠ 0 ∧ (∃ pickup ∈ s.pickups[i]?, pickup.pickedUp = false) ∧ Reaches s pos i

/-- **The lookup finds the closest pickup** of all that are touched, and nothing only when
none is. -/
def FindsClosest (s : PickupStore K) (ply : PlayerInfo K) : Prop :=
  let index := checkPlayerPickupCollision s ply
  (index = 0 ↔ ¬ ∃ i, Touched s ply.position i) ∧
    (index ≠ 0 → Touched s ply.position index ∧
      ∀ i, Touched s ply.position i → distanceTo s ply.position index ≤ distanceTo s ply.position i)

/-- The entries of the player's cell that reach the player, in their order. -/
def reachingEntries (s : PickupStore K) (pos : Vec K) : List ℕ :=
  (s.collisionTable.cell (truncate pos.x) (truncate pos.y)).filter (Reaches s pos ·)

/-- When the player stands on the rim of a pickup that overlaps the player's cell in no
more than this point, then another pickup, which overlaps the cell, is touched and is not
farther away. -/
def SeesRim (s : PickupStore K) (pos : Vec K) : Prop :=
  ∀ i pickup, s.pickups[i]? = some pickup → Touched s pos i →
    distPositionsSquared pos pickup.collider.center =
      pickup.collider.radius * pickup.collider.radius →
    ¬ Overlaps pickup (truncate pos.x) (truncate pos.y) →
    ∃ j, Touched s pos j ∧ Lies s j (truncate pos.x) (truncate pos.y) ∧
      distanceTo s pos j ≤ distanceTo s pos i

/-- When there is a hole among the entries of the player's cell, and what is in slot `0`
reaches the player, then there is no pickup to find, or one in the cell is closer than the
slot, or as close and listed before the first hole. -/
def PassesHoles (s : PickupStore K) (pos : Vec K) : Prop :=
  0 ∈ reachingEntries s pos → (∃ i, Touched s pos i) →
    ∃ j ∈ reachingEntries s pos, j ≠ 0 ∧
      (distanceTo s pos j < distanceTo s pos 0 ∨
        distanceTo s pos j = distanceTo s pos 0 ∧
          (reachingEntries s pos).idxOf j < (reachingEntries s pos).idxOf 0)

/-! ### The entry that is found -/

/-- The loop passes over what does not reach the player. -/
theorem closestPickup_cons_of_not_reaches {pos : Vec K} {s : PickupStore K} {i : ℕ}
    (h : ¬ Reaches s pos i) (is : List ℕ) (best : Option (ℕ × K)) :
    closestPickup pos s (i :: is) best = closestPickup pos s is best := by
  rw [closestPickup]
  cases hp : s.pickups[i]? with
  | none => rfl
  | some pickup => exact if_neg fun hle => h ⟨pickup, hp, hle⟩

/-- The loop keeps the closer one of the best so far and what reaches the player. -/
theorem closestPickup_cons_of_reaches {pos : Vec K} {s : PickupStore K} {i : ℕ}
    (h : Reaches s pos i) (is : List ℕ) (best : Option ℕ) :
    closestPickup pos s (i :: is) (best.map fun i => (i, distanceTo s pos i)) =
      closestPickup pos s is
        ((List.argAux (fun i j => distanceTo s pos i < distanceTo s pos j) best i).map
          fun i => (i, distanceTo s pos i)) := by
  obtain ⟨pickup, hp, hle⟩ := h
  have hdist : distPositionsSquared pos pickup.collider.center = distanceTo s pos i := by
    rw [distanceTo, Option.mem_def.mp hp]
    rfl
  rw [closestPickup, Option.mem_def.mp hp]
  dsimp only
  rw [if_pos hle, hdist]
  cases best with
  | none => rfl
  | some b =>
    rw [List.argAux]
    dsimp only [Option.map_some]
    split
    · rfl
    · rfl

theorem closestPickup_eq (pos : Vec K) (s : PickupStore K) :
    ∀ (is : List ℕ) (best : Option ℕ),
      closestPickup pos s is (best.map fun i => (i, distanceTo s pos i)) =
        ((is.filter (Reaches s pos ·)).foldl
          (List.argAux fun i j => distanceTo s pos i < distanceTo s pos j) best).map
            fun i => (i, distanceTo s pos i) := by
  intro is
  induction is with
  | nil => intro best; rfl
  | cons i is ih =>
    intro best
    by_cases h : Reaches s pos i
    · rw [closestPickup_cons_of_reaches h, ih, List.filter_cons_of_pos (by simpa using h),
        List.foldl_cons]
    · rw [closestPickup_cons_of_not_reaches h, ih, List.filter_cons_of_neg (by simpa using h)]

/-- **What is found is the first of the closest entries** of the player's cell. -/
theorem check_eq_argmin {width height : ℕ} {s : PickupStore K} {ply : PlayerInfo K}
    (ht : TableOf width height s.collisionTable) (hpos : OnMap width height ply.position) :
    checkPlayerPickupCollision s ply =
      ((reachingEntries s ply.position).argmin (distanceTo s ply.position)).getD 0 := by
  obtain ⟨⟨hx, hx'⟩, hy, hy'⟩ := hpos
  have hin : ¬ (ply.position.x < 0 ∨ ply.position.y < 0 ∨
      ply.position.y ≥ s.collisionTable.height ∨ ply.position.x ≥ s.collisionTable.width) := by
    rw [ht.columns, ht.lines]
    simp only [not_or, not_lt, not_le, ge_iff_le]
    exact ⟨hx, hy, hy', hx'⟩
  unfold checkPlayerPickupCollision
  dsimp only
  rw [if_neg hin]
  have hclosest := closestPickup_eq ply.position s (s.collisionTable.cell
    (truncate ply.position.x) (truncate ply.position.y)) none
  rw [Option.map_none] at hclosest
  rw [hclosest, Option.map_map]
  show (Option.map id (List.argmin _ _)).getD 0 = _
  rw [Option.map_id]
  rfl

end Model

section Exact

variable {K : Type*} [Field K] [LinearOrder K] [IsStrictOrderedRing K] [FloorRing K]

/-! ### What overlaps the cell of the player -/

/-- The point of a side closest to the centre is at most as far away as any other. -/
theorem closestOn_sq_le {c p : K} {x : ℤ} (hlow : (x : K) ≤ p) (hhigh : p ≤ x + 1) :
    (c - closestOn c x 1) ^ 2 ≤ (p - c) ^ 2 := by
  unfold closestOn
  rw [Int.cast_one]
  split
  · nlinarith
  · split
    · nlinarith
    · rw [sub_self, zero_pow two_ne_zero]
      exact sq_nonneg _

/-- Two points that are at most `1` apart lie in the same column or in neighbouring ones. -/
theorem abs_floor_sub_le {a b : K} (h : (a - b) ^ 2 ≤ 1) : |⌊a⌋ - ⌊b⌋| ≤ 1 := by
  obtain ⟨hlow, hhigh⟩ := abs_le.mp ((sq_le_one_iff_abs_le_one _).mp h)
  have ha : ⌊a⌋ ≤ ⌊b⌋ + 1 := by
    rw [← Int.floor_add_one]
    exact Int.floor_mono (by linarith)
  have hb : ⌊b⌋ ≤ ⌊a⌋ + 1 := by
    rw [← Int.floor_add_one]
    exact Int.floor_mono (by linarith)
  rw [abs_le]
  omega

/-- **A circle that reaches the player overlaps the player's cell** unless the player stands
on its rim. -/
theorem overlaps_of_lt {width height : ℕ} {pickup : Pickup K} {pos : Vec K}
    (hpos : OnMap width height pos) (hplace : Placeable width height pickup)
    (hlt : distPositionsSquared pos pickup.collider.center <
      pickup.collider.radius * pickup.collider.radius) :
    Overlaps pickup (truncate pos.x) (truncate pos.y) := by
  obtain ⟨hcenter, hradius⟩ := hplace
  rw [truncate_of_nonneg hpos.1.1, truncate_of_nonneg hpos.2.1]
  unfold Overlaps
  rw [truncate_of_nonneg hcenter.1.1, truncate_of_nonneg hcenter.2.1]
  unfold distPositionsSquared at hlt
  have hone : pickup.collider.radius * pickup.collider.radius ≤ 1 :=
    mul_le_one₀ hradius.2 hradius.1.le hradius.2
  refine ⟨⟨abs_floor_sub_le ?_, abs_floor_sub_le ?_⟩, ?_⟩
  · exact (le_add_of_nonneg_right (sq_nonneg _)).trans (hlt.le.trans hone)
  · exact (le_add_of_nonneg_left (sq_nonneg _)).trans (hlt.le.trans hone)
  · unfold checkCircleRectCollision
    rw [decide_eq_true_eq]
    refine lt_of_le_of_lt (add_le_add ?_ ?_) hlt
    · exact closestOn_sq_le (Int.floor_le _) (Int.lt_floor_add_one _).le
    · exact closestOn_sq_le (Int.floor_le _) (Int.lt_floor_add_one _).le

/-! ### The table and all pickups -/

/-- What holds of the pickups throughout. -/
structure LookupInv (width height : ℕ) (s : PickupStore K) : Prop extends
    StoreInv width height s where
  placeable : ∀ i ≠ 0, ∀ pickup ∈ s.pickups[i]?, Placeable width height pickup

namespace LookupInv

variable {width height : ℕ} {s : PickupStore K} {ply : PlayerInfo K}

/-- The entries that reach the player, the holes left out, are the pickups that are touched
and lie in the player's cell. -/
theorem mem_reachingEntries (h : LookupInv width height s) {pos : Vec K}
    (hpos : OnMap width height pos) {i : ℕ} (hi : i ≠ 0) :
    i ∈ reachingEntries s pos ↔
      Touched s pos i ∧ Lies s i (truncate pos.x) (truncate pos.y) := by
  have hx := truncate_range hpos.1.1 hpos.1.2
  have hy := truncate_range hpos.2.1 hpos.2.2
  rw [reachingEntries, List.mem_filter, (h.lists _ _ hx.1 hx.2 hy.1 hy.2).2 i hi, decide_eq_true_eq]
  constructor
  · rintro ⟨hlies, hreach⟩
    obtain ⟨pickup, hp, hdown, -⟩ := id hlies
    exact ⟨⟨hi, ⟨pickup, hp, hdown⟩, hreach⟩, hlies⟩
  · rintro ⟨htouched, hlies⟩
    exact ⟨hlies, htouched.2.2⟩

/-- When no pickup is missed at its rim, every pickup that is touched has one among the
entries that is as close. -/
theorem exists_entry (h : LookupInv width height s) {pos : Vec K}
    (hpos : OnMap width height pos) (hrim : SeesRim s pos) {i : ℕ} (hi : Touched s pos i) :
    ∃ j ∈ reachingEntries s pos, j ≠ 0 ∧ distanceTo s pos j ≤ distanceTo s pos i := by
  obtain ⟨hne, ⟨pickup, hp, hdown⟩, pickup', hp', hle⟩ := id hi
  obtain rfl := Option.some.inj (hp.symm.trans hp')
  by_cases hover : Overlaps pickup (truncate pos.x) (truncate pos.y)
  · exact ⟨i, (h.mem_reachingEntries hpos hne).mpr ⟨hi, pickup, hp, hdown, hover⟩, hne, le_rfl⟩
  · have heq := hle.eq_of_not_lt fun hlt => hover
      (overlaps_of_lt hpos (h.placeable i hne pickup hp) hlt)
    obtain ⟨j, hj, hlies, hjle⟩ := hrim i pickup hp hi heq hover
    exact ⟨j, (h.mem_reachingEntries hpos hj.1).mpr ⟨hj, hlies⟩, hj.1, hjle⟩

/-- Nothing can go wrong where nothing is touched. -/
theorem conditions_of_not_touched {pos : Vec K} (h : ¬ ∃ i, Touched s pos i) :
    SeesRim s pos ∧ PassesHoles s pos :=
  ⟨fun i _ _ hi => absurd ⟨i, hi⟩ h, fun _ hsome => absurd hsome h⟩

/-- When slot `0` is the first of the closest entries, the holes have won. -/
theorem not_touched_of_slot {pos : Vec K}
    (hmin : (reachingEntries s pos).argmin (distanceTo s pos) = some 0)
    (hpasses : PassesHoles s pos) : ¬ ∃ i, Touched s pos i := by
  intro hsome
  obtain ⟨hm, hle, hfirst⟩ := List.argmin_eq_some_iff.mp hmin
  obtain ⟨j, hj, -, hlt | ⟨heq, hbefore⟩⟩ := hpasses hm hsome
  · exact absurd hlt (not_lt.mpr (hle j hj))
  · exact absurd hbefore (not_lt.mpr (hfirst j hj heq.le))

/-- When a pickup is the first of the closest entries, no hole has won. -/
theorem passesHoles_of_argmin {pos : Vec K} {m : ℕ} (hm0 : m ≠ 0)
    (hmin : (reachingEntries s pos).argmin (distanceTo s pos) = some m) : PassesHoles s pos := by
  intro hhole _
  obtain ⟨hm, hle, hfirst⟩ := List.argmin_eq_some_iff.mp hmin
  refine ⟨m, hm, hm0, (hle 0 hhole).lt_or_eq.imp_right fun heq => ⟨heq, ?_⟩⟩
  refine lt_of_le_of_ne (hfirst 0 hhole heq.symm.le) fun hidx => hm0 ?_
  exact (List.idxOf_inj hm).mp hidx

/-- **Exactly when the table answers like all pickups do**, in one state. -/
theorem findsClosest_iff (h : LookupInv width height s) (hpos : OnMap width height ply.position) :
    FindsClosest s ply ↔ SeesRim s ply.position ∧ PassesHoles s ply.position := by
  unfold FindsClosest
  rw [check_eq_argmin h.table hpos]
  have hentry := fun i (hi : i ≠ 0) => h.mem_reachingEntries hpos hi
  have hrim := fun hsees i hi => h.exists_entry hpos hsees (i := i) hi
  cases hmin : (reachingEntries s ply.position).argmin (distanceTo s ply.position) with
  | none =>
    have hnil : reachingEntries s ply.position = [] := List.argmin_eq_none.mp hmin
    simp only [Option.getD_none, true_iff, ne_eq, not_true_eq_false, false_imp_iff, and_true]
    refine ⟨conditions_of_not_touched, ?_⟩
    rintro ⟨hsees, -⟩ ⟨i, hi⟩
    obtain ⟨j, hj, -⟩ := hrim hsees i hi
    rw [hnil] at hj
    cases hj
  | some m =>
    simp only [Option.getD_some]
    by_cases hm0 : m = 0
    · -- slot 0 is found
      subst hm0
      simp only [true_iff, ne_eq, not_true_eq_false, false_imp_iff, and_true]
      exact ⟨conditions_of_not_touched, fun hcond => not_touched_of_slot hmin hcond.2⟩
    · -- a pickup is found
      obtain ⟨hm, hle, -⟩ := List.argmin_eq_some_iff.mp hmin
      obtain ⟨htouched, hlies⟩ := (hentry m hm0).mp hm
      simp only [hm0, false_iff, not_not, ne_eq, not_false_eq_true, true_imp_iff]
      constructor
      · rintro ⟨-, -, hall⟩
        exact ⟨fun i _ _ hi _ _ => ⟨m, htouched, hlies, hall i hi⟩, passesHoles_of_argmin hm0 hmin⟩
      · rintro ⟨hsees, -⟩
        refine ⟨⟨m, htouched⟩, htouched, fun i hi => ?_⟩
        obtain ⟨j, hj, -, hjle⟩ := hrim hsees i hi
        exact (hle j hj).trans hjle

theorem init (width height : ℕ) :
    LookupInv width height (⟨[], initCollisionTable width height⟩ : PickupStore K) where
  toStoreInv := .init width height
  placeable := nofun

theorem add (h : LookupInv width height s) (slot : Pickup K) {pickup : Pickup K}
    (hplace : Placeable width height pickup) :
    LookupInv width height (addPickup slot pickup s).2 := by
  refine ⟨h.toStoreInv.add slot pickup, ?_⟩
  intro i hi p hp
  rw [Option.mem_def, (getElem?_addPickup slot pickup s hi).1] at hp
  split at hp
  · obtain rfl := Option.some.inj hp
    exact hplace
  · exact h.placeable i hi p hp

/-- Deleting slot `0` writes `0` over `0`. -/
theorem listsPickups_deleteSlot (h : LookupInv width height s) {slot : Pickup K}
    (hp : s.pickups[0]? = some slot) : ListsPickups width height (deletePickup 0 s) := by
  have hstrike : ∀ l : List ℕ, strikeOut 0 l = l := by
    intro l
    refine List.map_id'' (fun i => ?_) l
    split
    · next hi => exact hi.symm
    · rfl
  intro x y hx0 hxw hy0 hyh
  obtain ⟨hnodup, hmem⟩ := h.lists x y hx0 hxw hy0 hyh
  have hcell : (deletePickup 0 s).collisionTable.cell x y = s.collisionTable.cell x y := by
    rw [deletePickup_of_some hp]
    dsimp only
    rw [cell_removeCollision h.table _ _ ⟨hx0, hxw⟩ ⟨hy0, hyh⟩, hstrike, ite_self]
  rw [hcell]
  refine ⟨hnodup, fun i hi => ?_⟩
  rw [hmem i hi, lies_deletePickup hp i x y, and_iff_right hi]

theorem delete (h : LookupInv width height s) (index : ℕ) :
    LookupInv width height (deletePickup index s) := by
  cases hp : s.pickups[index]? with
  | none =>
    unfold deletePickup
    rw [hp]
    exact h
  | some pickup =>
    refine ⟨?_, ?_⟩
    · by_cases hindex : index = 0
      · subst hindex
        refine ⟨?_, h.listsPickups_deleteSlot hp⟩
        rw [deletePickup_of_some hp]
        exact h.table.foldl (fun _ => strikeOut 0) _
      · exact h.toStoreInv.delete hp hindex
    · intro i hi p hp'
      rw [deletePickup_of_some hp, Option.mem_def, List.getElem?_set] at hp'
      split at hp'
      · next heq =>
        split at hp'
        · obtain rfl := Option.some.inj hp'
          exact h.placeable i hi pickup (heq ▸ hp)
        · cases hp'
      · exact h.placeable i hi p hp'

end LookupInv

/-- **Exactly when the table answers like all pickups do.**  For pickups that are added and
deleted in any order, whatever slot `0` holds, and for every player on the map, the lookup
finds the closest of all pickups if and only if no pickup is missed at its rim and the holes
do not win. -/
theorem lookup_findsClosest_iff (width height : ℕ) (is : List (PickupCall K)) :
    (pickupCalls width height).Always (fun s => ∀ ply : PlayerInfo K,
        OnMap width height ply.position →
          (FindsClosest s ply ↔ SeesRim s ply.position ∧ PassesHoles s ply.position))
      ⟨[], initCollisionTable width height⟩ is := by
  refine Machine.always_of_step (fun s (hs : LookupInv width height s) ply hpos =>
    hs.findsClosest_iff hpos) ?_ is (LookupInv.init width height)
  intro s i s' hs hstep
  cases i with
  | add slot pickup =>
    dsimp only [pickupCalls] at hstep
    split at hstep
    · next hplace =>
      cases hstep
      exact hs.add slot hplace
    · cases hstep
  | delete index =>
    cases hstep
    exact hs.delete index

end Exact

/-! ### A rim and a hole -/

/-- A pickup with its centre at `(x, 3 / 2)`. -/
def pickupAt (x radius : ℚ) : Pickup ℚ where
  details := .medkit 1
  pickedUp := false
  collider := { center := ⟨x, 3 / 2⟩, radius }
  animation := { framesPerSprite := 1, curFrame := 0, numFig := 1, state := .progress }

/-- A player in the cell on the right. -/
def onRim : PlayerInfo ℚ := { (PlayerInfo.zero : PlayerInfo ℚ) with position := ⟨2, 3 / 2⟩ }

/-- No pickups yet, on a map of three by three cells. -/
def noPickups : PickupStore ℚ := ⟨[], initCollisionTable 3 3⟩

/-- A pickup whose rim reaches the cell on its right, where a player stands. -/
def besidePickup : PickupStore ℚ :=
  (addPickup (pickupAt 0 1) (pickupAt (3 / 2) (1 / 2)) noPickups).2

/-- The first of two pickups is gone, and slot `0` happens to hold one where the player is. -/
def behindHole : PickupStore ℚ :=
  deletePickup 1 (addPickup (pickupAt 2 1) (pickupAt (5 / 2) 1)
    (addPickup (pickupAt 2 1) (pickupAt (5 / 2) 1) noPickups).2).2

/-- A player in the middle of the pickup. -/
def inMiddle : PlayerInfo ℚ :=
  { (PlayerInfo.zero : PlayerInfo ℚ) with position := ⟨3 / 2, 3 / 2⟩ }

/-- In the middle of a pickup, with no hole around, all is well. -/
theorem lookup_findsClosest_iff_middle : FindsClosest besidePickup inMiddle := by
  have hrun : (pickupCalls 3 3).run noPickups
      [.add (pickupAt 0 1) (pickupAt (3 / 2) (1 / 2))] = some besidePickup := by decide +kernel
  refine (Machine.always_run _ _ _ (lookup_findsClosest_iff 3 3 _) hrun inMiddle
    (by decide +kernel)).mpr ⟨?_, ?_⟩
  · intro i pickup hp hi hrim
    have hlt : i < 2 := (List.getElem?_eq_some_iff.mp hp).1
    obtain rfl : i = 1 := by have := hi.1; omega
    obtain rfl := Option.some.inj hp
    exact absurd hrim (by decide +kernel)
  · intro hhole
    exact absurd hhole (by decide +kernel)

/-- A pickup that is touched is not found, for either reason. -/
theorem lookup_misses :
    (∃ calls, (pickupCalls 3 3).run noPickups calls = some besidePickup ∧
      OnMap 3 3 onRim.position ∧ ¬ FindsClosest besidePickup onRim) ∧
    ∃ calls, (pickupCalls 3 3).run noPickups calls = some behindHole ∧
      OnMap 3 3 onRim.position ∧ ¬ FindsClosest behindHole onRim := by
  constructor
  · refine ⟨[.add (pickupAt 0 1) (pickupAt (3 / 2) (1 / 2))], by decide +kernel,
      by decide +kernel, fun h => ?_⟩
    exact h.1.mp (by decide +kernel) ⟨1, one_ne_zero, ⟨_, rfl, rfl⟩, by decide +kernel⟩
  · refine ⟨[.add (pickupAt 2 1) (pickupAt (5 / 2) 1), .add (pickupAt 2 1) (pickupAt (5 / 2) 1),
      .delete 1], by decide +kernel, by decide +kernel, fun h => ?_⟩
    exact h.1.mp (by decide +kernel) ⟨2, two_ne_zero, ⟨_, rfl, rfl⟩, by decide +kernel⟩

end OperationMinix
