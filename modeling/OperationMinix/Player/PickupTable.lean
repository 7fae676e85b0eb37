import OperationMinix.Player.Trigger
import OperationMinix.Runs.Grid
import OperationMinix.Runs.Machine

/-!
# The table of the pickups

Which pickups a player may touch is looked up in a table with a list of indices for every
cell of the map.  A pickup is listed in up to nine cells, in those of the window around its
centre that its circle overlaps.  It is removed by writing a `0` over its index in every
cell of the same window, so the two windows, computed apart and cut at the four borders,
have to agree: in a cell that was missed it could be taken again.

A player looks at the table, and takes what it has found.  `pickup_index` does not ask whether it
is still there, so the two must not be pulled apart: two players that have looked before either
takes anything may find the same pickup, and both take it.  `player_int_ih` makes the two calls
one after the other.

## Main definitions

* `pickupMachine` — pickups are added, looked for and taken, in any order.
* `ListsAdded` — the table lists the pickups that were added and are still there, each once.
* `Prompt` — nothing is taken between a look and what is taken for it.

## Main results

* `pickups_once` — **the table is exact throughout, and what is taken promptly is not taken twice.**
* `not_pickups_once_crossed` — two players take the same pickup.
-/

namespace OperationMinix

open Runs

set_option linter.unusedSectionVars false

section Model

variable {K : Type*} [Field K] [LinearOrder K] [FloorRing K]

/-! ### Definitions -/

/-- The cell lies in the window of three by three cells around the centre of the pickup, and
its circle properly overlaps it. -/
def Overlaps (pickup : Pickup K) (x y : ℤ) : Prop :=
  (|x - truncate pickup.collider.center.x| ≤ 1 ∧ |y - truncate pickup.collider.center.y| ≤ 1) ∧
    checkCircleRectCollision pickup.collider (unitCell x y) = true

instance (pickup : Pickup K) (x y : ℤ) : Decidable (Overlaps pickup x y) :=
  inferInstanceAs (Decidable ((_ ∧ _) ∧ _))

/-- The pickup with index `i` is still there and overlaps the cell. -/
def Lies (s : PickupStore K) (i : ℕ) (x y : ℤ) : Prop :=
  ∃ pickup ∈ s.pickups[i]?, pickup.pickedUp = false ∧ Overlaps pickup x y

/-- **The table lists the pickups.**  The entries of every cell other than `0` are the
indices of the pickups that lie there, each once. -/
def ListsPickups (width height : ℕ) (s : PickupStore K) : Prop :=
  ∀ x y : ℤ, 0 ≤ x → x < width → 0 ≤ y → y < height →
    ((s.collisionTable.cell x y).filter (· ≠ 0)).Nodup ∧
      ∀ i ≠ 0, i ∈ s.collisionTable.cell x y ↔ Lies s i x y

/-- The pickups, and what has happened to them. -/
structure PickupRun (K : Type*) where
  store : PickupStore K
  /-- The pickups that were added, oldest first; the first one has the index `1`. -/
  added : List (Pickup K)
  /-- The indices for which `pickup_index` has returned `true`, oldest first. -/
  taken : List ℕ
  /-- What each player has found when it looked last. -/
  found : ℕ → ℕ

/-- What happens to the pickups. -/
inductive PickupInput (K : Type*) where
  /-- `add_pickup`; `slot` is what the unassigned slot `0` holds. -/
  | add (slot pickup : Pickup K)
  /-- A player calls `check_player_pickup_collision`. -/
  | look (who : ℕ) (ply : PlayerInfo K)
  /-- A player calls `pickup_index` for what it has found, if that is not `0`. -/
  | take (who : ℕ) (ply : PlayerInfo K)

/-- What `pickup_index` returns. -/
def picksUp (ply : PlayerInfo K) (index : ℕ) (s : PickupStore K) : Bool :=
  (s.pickups[index]?).any fun pickup => (pickupHandler pickup.details ply).1

/-- A player calls `pickup_index`. -/
def takePickup (ply : PlayerInfo K) (index : ℕ) (r : PickupRun K) : PickupRun K :=
  { r with
    store := (pickupIndex ply index r.store).2
    taken := if picksUp ply index r.store then r.taken ++ [index] else r.taken }

/-- Pickups are added, looked for and taken in any order. -/
def pickupMachine : Machine (PickupRun K) (PickupInput K) where
  step r
    | .add slot pickup =>
      some { r with store := (addPickup slot pickup r.store).2, added := r.added ++ [pickup] }
    | .look who ply =>
      some { r with found := Function.update r.found who (checkPlayerPickupCollision r.store ply) }
    | .take who ply => some (if r.found who > 0 then takePickup ply (r.found who) r else r)

/-- A map without pickups. -/
def PickupRun.start (width height : ℕ) : PickupRun K :=
  { store := ⟨[], initCollisionTable width height⟩, added := [], taken := [], found := fun _ => 0 }

/-- The pickups that were added have their places in the array, and those that were taken are
marked. -/
def KeepsAdded (r : PickupRun K) : Prop :=
  ∀ i, r.store.pickups[i + 1]? =
    (r.added[i]?).map fun pickup => { pickup with pickedUp := decide (i + 1 ∈ r.taken) }

/-- **The table lists what was added and is still there.**  The entries of every cell other than
`0` are the indices of the pickups that overlap it and have not been taken, each once. -/
def ListsAdded (width height : ℕ) (r : PickupRun K) : Prop :=
  ∀ x y : ℤ, 0 ≤ x → x < width → 0 ≤ y → y < height →
    ((r.store.collisionTable.cell x y).filter (· ≠ 0)).Nodup ∧
      ∀ i, i + 1 ∈ r.store.collisionTable.cell x y ↔
        ∃ pickup ∈ r.added[i]?, i + 1 ∉ r.taken ∧ Overlaps pickup x y

/-- Between the time a player looks and the time it takes what it has found, `pickup_index` is not
called; `ready` are the players that have looked since it was called last. -/
def Prompt (ready : List ℕ) : List (PickupInput K) → Prop
  | [] => True
  | .add _ _ :: is => Prompt ready is
  | .look who _ :: is => Prompt (who :: ready) is
  | .take who _ :: is => who ∈ ready ∧ Prompt [] is

/-- The tick of a player looks and takes. -/
theorem pickups_pickUp (ref : PlayerRef) (w : World K) (who : ℕ) {r : PickupRun K}
    (hr : r.store = w.pickups) :
    (pickupMachine.run r [.look who (w.get ref), .take who (w.get ref)]).map PickupRun.store =
      some (pickUp ref w).pickups := by
  unfold pickUp
  simp only [Machine.run, pickupMachine, Option.bind_some, Option.map_some, Function.update_self,
    hr]
  split
  · simp only [takePickup]
  · rfl

/-! ### The window around a point -/

/-- The cells of one axis, counted from the first. -/
theorem neighbourhood_eq (c : K) (size : ℕ) : ∃ n : ℕ, neighbourhood c size =
    (List.range n).map (fun i : ℕ => max (truncate c - 1) 0 + (i : ℤ)) ∧
      (n : ℤ) = max (min (truncate c + 2) size - max (truncate c - 1) 0) 0 := by
  have hcast : ∀ (n : ℕ) (first : ℤ), ((List.range n : List ℕ) : List ℤ).map (first + ·) =
      (List.range n).map fun i : ℕ => first + (i : ℤ) := by
    intro n first
    simp only [List.bind_eq_flatMap, List.pure_def, List.map_flatMap, List.map_cons, List.map_nil]
    exact List.map_eq_flatMap.symm
  exact ⟨_, hcast _ _, by split <;> omega⟩

theorem mem_neighbourhood {c : K} {size : ℕ} {x : ℤ} :
    x ∈ neighbourhood c size ↔ (0 ≤ x ∧ x < size) ∧ |x - truncate c| ≤ 1 := by
  obtain ⟨n, hlist, hn⟩ := neighbourhood_eq c size
  rw [hlist, abs_le, List.mem_map]
  constructor
  · rintro ⟨i, hi, rfl⟩
    rw [List.mem_range] at hi
    omega
  · rintro ⟨hsize, hnear⟩
    refine ⟨(x - max (truncate c - 1) 0).toNat, ?_, ?_⟩
    · rw [List.mem_range]
      omega
    · omega

theorem nodup_neighbourhood (c : K) (size : ℕ) : (neighbourhood c size).Nodup := by
  obtain ⟨n, hlist, -⟩ := neighbourhood_eq c size
  rw [hlist]
  refine List.nodup_range.map ?_
  intro i j hij
  dsimp only at hij
  omega

theorem around_eq (t : CollisionTable) (p : Vec K) :
    t.around p = (neighbourhood p.x t.width).product (neighbourhood p.y t.height) := rfl

theorem mem_around {t : CollisionTable} {p : Vec K} {x y : ℤ} : (x, y) ∈ t.around p ↔
    ((0 ≤ x ∧ x < t.width) ∧ (0 ≤ y ∧ y < t.height)) ∧
      |x - truncate p.x| ≤ 1 ∧ |y - truncate p.y| ≤ 1 := by
  rw [around_eq, List.pair_mem_product, mem_neighbourhood, mem_neighbourhood]
  tauto

/-- The place of a cell in the grid. -/
def gridPos (c : ℤ × ℤ) : ℕ × ℕ := (c.1.toNat, c.2.toNat)

/-- No cell of the window is visited twice. -/
theorem nodup_gridPos (t : CollisionTable) (p : Vec K) : ((t.around p).map gridPos).Nodup := by
  have hnodup : (t.around p).Nodup := by
    rw [around_eq]
    exact (nodup_neighbourhood p.x t.width).product (nodup_neighbourhood p.y t.height)
  refine hnodup.map_on ?_
  rintro ⟨x, y⟩ hxy ⟨x', y'⟩ hxy' heq
  have h := (mem_around.mp hxy).1
  have h' := (mem_around.mp hxy').1
  simp only [gridPos, Prod.mk.injEq] at heq ⊢
  omega

/-! ### The two loops over the window -/

theorem cell_eq_get (t : CollisionTable) (x y : ℤ) :
    t.cell x y = Grid.get [] t.table x.toNat y.toNat := rfl

/-- A loop that changes cells changes the table cell by cell. -/
theorem foldl_modifyCell (f : ℤ × ℤ → List ℕ → List ℕ) : ∀ (cs : List (ℤ × ℤ)) (t : CollisionTable),
    cs.foldl (fun t c => t.modifyCell c.1 c.2 (f c)) t =
      { t with table := Grid.modifyAll gridPos f cs t.table } := by
  intro cs
  induction cs with
  | nil => intro t; rfl
  | cons c cs ih => intro t; exact ih _

/-- The table has a list for every cell of the map. -/
structure TableOf (width height : ℕ) (t : CollisionTable) : Prop where
  columns : t.width = width
  lines : t.height = height
  shape : Grid.Shape width height t.table

theorem TableOf.foldl {width height : ℕ} {t : CollisionTable} (ht : TableOf width height t)
    (f : ℤ × ℤ → List ℕ → List ℕ) (cs : List (ℤ × ℤ)) :
    TableOf width height (cs.foldl (fun t c => t.modifyCell c.1 c.2 (f c)) t) := by
  rw [foldl_modifyCell]
  exact ⟨ht.columns, ht.lines, ht.shape.modifyAll gridPos f cs⟩

/-- **What a loop over the window does to a cell.** -/
theorem cell_foldl {width height : ℕ} {t : CollisionTable} (ht : TableOf width height t)
    (f : ℤ × ℤ → List ℕ → List ℕ) (p : Vec K) {x y : ℤ} (hx : 0 ≤ x ∧ x < width)
    (hy : 0 ≤ y ∧ y < height) :
    ((t.around p).foldl (fun t c => t.modifyCell c.1 c.2 (f c)) t).cell x y =
      if |x - truncate p.x| ≤ 1 ∧ |y - truncate p.y| ≤ 1 then f (x, y) (t.cell x y)
      else t.cell x y := by
  have hcell : (x, y) ∈ t.around p ↔ |x - truncate p.x| ≤ 1 ∧ |y - truncate p.y| ≤ 1 := by
    rw [mem_around, ht.columns, ht.lines]
    exact and_iff_right ⟨hx, hy⟩
  have hx' : x.toNat < width := by omega
  have hy' : y.toNat < height := by omega
  rw [foldl_modifyCell, cell_eq_get, cell_eq_get]
  split
  · next hnear =>
    exact Grid.get_modifyAll_of_mem [] gridPos f hx' hy' _ ht.shape (nodup_gridPos t p) (x, y)
      (hcell.mpr hnear) rfl
  · next hfar =>
    refine Grid.get_modifyAll_of_ne [] gridPos f hx' hy' _ ht.shape ?_
    rintro ⟨x', y'⟩ hxy' heq
    have h' := (mem_around.mp hxy').1
    simp only [gridPos, Prod.mk.injEq] at heq
    obtain ⟨rfl, rfl⟩ : x' = x ∧ y' = y := by omega
    exact hfar (hcell.mp hxy')

/-- The loop of `add_collision` as one that changes every cell of the window. -/
theorem addCollision_eq (pickup : Pickup K) (index : ℕ) (t : CollisionTable) :
    addCollision pickup index t = (t.around pickup.collider.center).foldl (fun t c =>
      t.modifyCell c.1 c.2 (if checkCircleRectCollision pickup.collider (unitCell c.1 c.2) then
        fun l => l ++ [index] else id)) t := by
  unfold addCollision
  congr 1
  funext t c
  split
  · rfl
  · have htable : t.modifyCell c.1 c.2 id = { t with table := t.table } :=
      congrArg (fun table => { t with table }) (Grid.modify_id c.1.toNat c.2.toNat t.table)
    exact htable.symm

/-- **What `add_collision` does to a cell.** -/
theorem cell_addCollision {width height : ℕ} {t : CollisionTable} (ht : TableOf width height t)
    (pickup : Pickup K) (index : ℕ) {x y : ℤ} (hx : 0 ≤ x ∧ x < width)
    (hy : 0 ≤ y ∧ y < height) :
    (addCollision pickup index t).cell x y =
      if Overlaps pickup x y then t.cell x y ++ [index] else t.cell x y := by
  rw [addCollision_eq, cell_foldl ht _ _ hx hy]
  by_cases hnear : |x - truncate pickup.collider.center.x| ≤ 1 ∧
      |y - truncate pickup.collider.center.y| ≤ 1
  · rw [if_pos hnear]
    dsimp only
    by_cases hover : checkCircleRectCollision pickup.collider (unitCell x y) = true
    · have hlies : Overlaps pickup x y := ⟨hnear, hover⟩
      rw [if_pos hover, if_pos hlies]
    · have hmiss : ¬ Overlaps pickup x y := fun h => hover h.2
      rw [if_neg hover, if_neg hmiss]
      rfl
  · have hmiss : ¬ Overlaps pickup x y := fun h => hnear h.1
    rw [if_neg hnear, if_neg hmiss]

/-- What `remove_collision` does to the entries of a cell. -/
def strikeOut (index : ℕ) (l : List ℕ) : List ℕ := l.map fun i => if i = index then 0 else i

theorem filter_strikeOut (index : ℕ) (l : List ℕ) :
    (strikeOut index l).filter (· ≠ 0) = (l.filter (· ≠ 0)).filter (· ≠ index) := by
  induction l with
  | nil => rfl
  | cons i l ih =>
    unfold strikeOut at ih ⊢
    by_cases hi : i = index
    · by_cases h0 : i = 0 <;> simp_all
    · by_cases h0 : i = 0 <;> simp_all

/-- **What `remove_collision` does to a cell.** -/
theorem cell_removeCollision {width height : ℕ} {t : CollisionTable}
    (ht : TableOf width height t) (p : Vec K) (index : ℕ) {x y : ℤ} (hx : 0 ≤ x ∧ x < width)
    (hy : 0 ≤ y ∧ y < height) :
    (removeCollision p index t).cell x y =
      if |x - truncate p.x| ≤ 1 ∧ |y - truncate p.y| ≤ 1 then strikeOut index (t.cell x y)
      else t.cell x y :=
  cell_foldl ht (fun _ => strikeOut index) p hx hy

/-! ### What a player touches -/

theorem closestPickup_mem (pos : Vec K) (s : PickupStore K) :
    ∀ (is : List ℕ) (best : Option (ℕ × K)) (r : ℕ × K),
      closestPickup pos s is best = some r → r.1 ∈ is ∨ best = some r := by
  intro is
  induction is with
  | nil => intro best r h; exact Or.inr h
  | cons i is ih =>
    intro best r h
    -- the best so far is the old one, or the pickup that is looked at
    have hcons : ∀ best', closestPickup pos s is best' = some r →
        (best' = some r → r.1 = i ∨ best = some r) → r.1 ∈ i :: is ∨ best = some r := by
      intro best' h' hbest
      rcases ih best' r h' with hmem | hsome
      · exact Or.inl (List.mem_cons_of_mem i hmem)
      · rcases hbest hsome with rfl | hsome
        · exact Or.inl List.mem_cons_self
        · exact Or.inr hsome
    unfold closestPickup at h
    split at h
    · exact hcons best h Or.inr
    · dsimp only at h
      split at h
      · split at h
        · refine hcons _ h fun hnew => Or.inl ?_
          rw [← Option.some.inj hnew]
        · refine hcons _ h fun hnew => ?_
          split at hnew
          · rw [← Option.some.inj hnew]
            exact Or.inl rfl
          · exact Or.inr hnew
      · exact hcons best h Or.inr

/-- A point on the map lies in one of its columns. -/
theorem truncate_range {v : K} {size : ℕ} (hlow : 0 ≤ v) (hhigh : v < size) :
    0 ≤ truncate v ∧ truncate v < size := by
  rw [truncate_of_nonneg hlow]
  constructor
  · rw [Int.le_floor, Int.cast_zero]
    exact hlow
  · rw [Int.floor_lt, Int.cast_natCast]
    exact hhigh

/-- What a player touches is listed in a cell of the map. -/
theorem check_mem {width height : ℕ} {s : PickupStore K} {ply : PlayerInfo K}
    (ht : TableOf width height s.collisionTable) (h : 0 < checkPlayerPickupCollision s ply) :
    ∃ x y : ℤ, (0 ≤ x ∧ x < width) ∧ (0 ≤ y ∧ y < height) ∧
      checkPlayerPickupCollision s ply ∈ s.collisionTable.cell x y := by
  unfold checkPlayerPickupCollision at h ⊢
  dsimp only at h ⊢
  split at h
  · exact absurd h (lt_irrefl 0)
  · next hpos =>
    rw [if_neg hpos]
    simp only [not_or, ht.columns, ht.lines] at hpos
    obtain ⟨hx0, hy0, hyh, hxw⟩ := hpos
    have hx := truncate_range (not_lt.mp hx0) (not_le.mp hxw)
    have hy := truncate_range (not_lt.mp hy0) (not_le.mp hyh)
    refine ⟨truncate ply.position.x, truncate ply.position.y, hx, hy, ?_⟩
    cases hclosest : closestPickup ply.position s (s.collisionTable.cell
        (truncate ply.position.x) (truncate ply.position.y)) none with
    | none =>
      rw [hclosest] at h
      exact absurd h (lt_irrefl 0)
    | some r =>
      rcases closestPickup_mem _ _ _ _ _ hclosest with hmem | hnone
      · exact hmem
      · cases hnone

/-! ### The steps -/

variable {width height : ℕ} {s : PickupStore K}

/-- A pickup that is added gets an index that is not in use. -/
theorem getElem?_addPickup (slot pickup : Pickup K) (s : PickupStore K) {i : ℕ} (hi : i ≠ 0) :
    (addPickup slot pickup s).2.pickups[i]? =
        (if i = (addPickup slot pickup s).1 then some { pickup with pickedUp := false }
          else s.pickups[i]?) ∧
      s.pickups[(addPickup slot pickup s).1]? = none ∧ (addPickup slot pickup s).1 ≠ 0 := by
  unfold addPickup
  dsimp only
  have hlist : ∀ ps : List (Pickup K), (∀ j ≠ 0, ps[j]? = s.pickups[j]?) →
      (ps ++ [{ pickup with pickedUp := false }])[i]? =
        if i = ps.length then some { pickup with pickedUp := false } else s.pickups[i]? := by
    intro ps hps
    rw [List.getElem?_append, ← hps i hi]
    split
    · next hlt => rw [if_neg (Nat.ne_of_lt hlt)]
    · next hge =>
      by_cases heq : i = ps.length
      · simp [heq]
      · rw [if_neg heq, List.getElem?_eq_none (by simp; omega), List.getElem?_eq_none (by omega)]
  split
  · next hnil =>
    refine ⟨hlist [slot] fun j hj => ?_, by simp [hnil], by simp⟩
    rw [hnil, List.getElem?_eq_none (by simp; omega), List.getElem?_nil]
  · next hne =>
    refine ⟨hlist s.pickups fun _ _ => rfl, by simp, ?_⟩
    rw [ne_eq, List.length_eq_zero_iff]
    exact hne

/-- No pickup lies anywhere under the index that is given next. -/
theorem not_lies_addPickup (slot pickup : Pickup K) (x y : ℤ) :
    ¬ Lies s (addPickup slot pickup s).1 x y := by
  rintro ⟨p, hp, -⟩
  rw [Option.mem_def, (getElem?_addPickup slot pickup s one_ne_zero).2.1] at hp
  cases hp

/-- The cells the new pickup overlaps are those it lies in. -/
theorem lies_addPickup (slot pickup : Pickup K) {i : ℕ} (hi : i ≠ 0) (x y : ℤ) :
    Lies (addPickup slot pickup s).2 i x y ↔
      (i = (addPickup slot pickup s).1 ∧ Overlaps pickup x y) ∨ Lies s i x y := by
  have hnew : ¬ Lies s (addPickup slot pickup s).1 x y := not_lies_addPickup slot pickup x y
  unfold Lies at hnew ⊢
  rw [(getElem?_addPickup slot pickup s hi).1]
  by_cases heq : i = (addPickup slot pickup s).1
  · subst heq
    rw [if_pos rfl]
    constructor
    · rintro ⟨p, hp, -, hover⟩
      obtain rfl := Option.some.inj hp
      exact Or.inl ⟨rfl, hover⟩
    · rintro (⟨-, hover⟩ | hold)
      · exact ⟨_, rfl, rfl, hover⟩
      · exact absurd hold hnew
  · rw [if_neg heq]
    simp [heq]

/-- **Adding a pickup** keeps the table exact. -/
theorem listsPickups_addPickup (ht : TableOf width height s.collisionTable)
    (h : ListsPickups width height s) (slot pickup : Pickup K) :
    ListsPickups width height (addPickup slot pickup s).2 := by
  intro x y hx0 hxw hy0 hyh
  obtain ⟨hnodup, hmem⟩ := h x y hx0 hxw hy0 hyh
  have hpos : (addPickup slot pickup s).1 ≠ 0 := (getElem?_addPickup slot pickup s one_ne_zero).2.2
  have hnew := not_lies_addPickup (s := s) slot pickup x y
  have hlies := fun (i : ℕ) (hi : i ≠ 0) => lies_addPickup (s := s) slot pickup hi x y
  have hcell : (addPickup slot pickup s).2.collisionTable.cell x y =
      if Overlaps pickup x y then s.collisionTable.cell x y ++ [(addPickup slot pickup s).1]
      else s.collisionTable.cell x y :=
    cell_addCollision ht pickup (addPickup slot pickup s).1 ⟨hx0, hxw⟩ ⟨hy0, hyh⟩
  rw [hcell]
  generalize (addPickup slot pickup s).1 = index at *
  constructor
  · split
    · have hnot : index ∉ s.collisionTable.cell x y := fun hin => hnew ((hmem index hpos).mp hin)
      rw [List.filter_append, List.nodup_append]
      refine ⟨hnodup, by simp [hpos], ?_⟩
      intro a ha b hb hab
      simp only [List.mem_filter, List.mem_singleton] at ha hb
      exact hnot (hb.1 ▸ hab ▸ ha.1)
    · exact hnodup
  · intro i hi
    rw [hlies i hi, ← hmem i hi]
    split
    · next hover => simp [hover, or_comm]
    · next hmiss => simp [hmiss]

section Delete

variable {index : ℕ} {pickup : Pickup K} (hp : s.pickups[index]? = some pickup)

include hp

theorem deletePickup_of_some : deletePickup index s =
    { pickups := s.pickups.set index { pickup with pickedUp := true }
      collisionTable := removeCollision pickup.collider.center index s.collisionTable } := by
  unfold deletePickup
  rw [hp]

/-- The pickup that is removed lies nowhere any more. -/
theorem lies_deletePickup (i : ℕ) (x y : ℤ) :
    Lies (deletePickup index s) i x y ↔ i ≠ index ∧ Lies s i x y := by
  unfold Lies
  rw [deletePickup_of_some hp]
  dsimp only
  rw [List.getElem?_set]
  by_cases heq : index = i
  · subst heq
    rw [if_pos rfl]
    constructor
    · rintro ⟨p, hp', hdown, -⟩
      rw [Option.mem_def] at hp'
      split at hp'
      · obtain rfl := Option.some.inj hp'
        cases hdown
      · cases hp'
    · rintro ⟨hne, -⟩
      exact absurd rfl hne
  · rw [if_neg heq]
    simp [Ne.symm heq]

/-- The entry goes from its cells; there is none outside of the window. -/
theorem filter_cell_deletePickup (ht : TableOf width height s.collisionTable)
    (h : ListsPickups width height s) (hindex : index ≠ 0) {x y : ℤ} (hx : 0 ≤ x ∧ x < width)
    (hy : 0 ≤ y ∧ y < height) :
    ((deletePickup index s).collisionTable.cell x y).filter (· ≠ 0) =
      ((s.collisionTable.cell x y).filter (· ≠ 0)).filter (· ≠ index) := by
  have hcell := cell_removeCollision ht pickup.collider.center index hx hy
  rw [deletePickup_of_some hp]
  dsimp only
  rw [hcell]
  split
  · exact filter_strikeOut index _
  · next hfar =>
    have hnot : index ∉ s.collisionTable.cell x y := by
      intro hin
      obtain ⟨p, hp', -, hover⟩ := ((h x y hx.1 hx.2 hy.1 hy.2).2 index hindex).mp hin
      obtain rfl := Option.some.inj (hp.symm.trans hp')
      exact hfar hover.1
    refine (List.filter_eq_self.mpr ?_).symm
    intro i hi
    have hne : i ≠ index := fun heq => hnot (heq ▸ (List.mem_filter.mp hi).1)
    simpa using hne

/-- **Removing a pickup** keeps the table exact. -/
theorem listsPickups_deletePickup (ht : TableOf width height s.collisionTable)
    (h : ListsPickups width height s) (hindex : index ≠ 0) :
    ListsPickups width height (deletePickup index s) := by
  intro x y hx0 hxw hy0 hyh
  obtain ⟨hnodup, hmem⟩ := h x y hx0 hxw hy0 hyh
  have hfilter := filter_cell_deletePickup hp ht h hindex ⟨hx0, hxw⟩ ⟨hy0, hyh⟩
  constructor
  · rw [hfilter]
    exact hnodup.filter _
  · intro i hi
    have hin : i ∈ (deletePickup index s).collisionTable.cell x y ↔
        i ∈ ((deletePickup index s).collisionTable.cell x y).filter (· ≠ 0) := by
      simp [hi]
    rw [hin, hfilter, lies_deletePickup hp i x y, ← hmem i hi]
    simp [hi, and_comm]

end Delete

/-- What holds of the array and the table throughout. -/
structure StoreInv (width height : ℕ) (s : PickupStore K) : Prop where
  table : TableOf width height s.collisionTable
  lists : ListsPickups width height s

namespace StoreInv

theorem init (width height : ℕ) :
    StoreInv width height (⟨[], initCollisionTable width height⟩ : PickupStore K) := by
  refine ⟨⟨rfl, rfl, Grid.shape_replicate width height []⟩, ?_⟩
  intro x y _ _ _ _
  have hcell : (initCollisionTable width height).cell x y = [] :=
    Grid.get_replicate [] width height x.toNat y.toNat
  dsimp only
  rw [hcell]
  refine ⟨List.nodup_nil, fun i _ => ⟨nofun, ?_⟩⟩
  rintro ⟨pickup, hp, -⟩
  cases hp

theorem add (h : StoreInv width height s) (slot pickup : Pickup K) :
    StoreInv width height (addPickup slot pickup s).2 := by
  refine ⟨?_, listsPickups_addPickup h.table h.lists slot pickup⟩
  show TableOf width height (addCollision pickup _ s.collisionTable)
  rw [addCollision_eq]
  exact h.table.foldl _ _

theorem delete (h : StoreInv width height s) {index : ℕ} {pickup : Pickup K}
    (hp : s.pickups[index]? = some pickup) (hindex : index ≠ 0) :
    StoreInv width height (deletePickup index s) := by
  refine ⟨?_, listsPickups_deletePickup hp h.table h.lists hindex⟩
  rw [deletePickup_of_some hp]
  exact h.table.foldl (fun _ => strikeOut index) _

end StoreInv

/-- What `pickup_index` does. -/
theorem takePickup_cases (ply : PlayerInfo K) (index : ℕ) (r : PickupRun K) :
    (takePickup ply index r = r ∧ picksUp ply index r.store = false) ∨
      ∃ pickup, r.store.pickups[index]? = some pickup ∧ picksUp ply index r.store = true ∧
        takePickup ply index r =
          { r with store := deletePickup index r.store, taken := r.taken ++ [index] } := by
  unfold takePickup picksUp pickupIndex
  cases hp : r.store.pickups[index]? with
  | none => exact Or.inl ⟨rfl, rfl⟩
  | some pickup =>
    cases htrue : (pickupHandler pickup.details ply).1 with
    | false =>
      left
      simp only [Option.any_some, htrue, Bool.false_eq_true, if_false, and_self]
    | true =>
      right
      refine ⟨pickup, rfl, htrue, ?_⟩
      simp only [Option.any_some, htrue, if_true]

/-- The index of the next pickup that is added. -/
theorem KeepsAdded.index {r : PickupRun K} (h : KeepsAdded r) (slot pickup : Pickup K) :
    (addPickup slot pickup r.store).1 = r.added.length + 1 := by
  have hlen : ∀ i, r.store.pickups.length ≤ i + 1 ↔ r.added.length ≤ i := by
    intro i
    rw [← List.getElem?_eq_none_iff, h i, Option.map_eq_none_iff, List.getElem?_eq_none_iff]
  unfold addPickup
  dsimp only
  split
  · next hnil =>
    have hnone := (hlen 0).mp (by rw [hnil]; exact Nat.zero_le 1)
    rw [Nat.le_zero.mp hnone]
    rfl
  · next hne =>
    have hpos : 0 < r.store.pickups.length := List.length_pos_iff.mpr hne
    have hle := (hlen r.added.length).mpr (Nat.le_refl _)
    have hge := (hlen (r.store.pickups.length - 1)).mp (by omega)
    omega

/-- The array and the table are kept, and what was added is in its place. -/
structure PickupInv (width height : ℕ) (r : PickupRun K) : Prop extends
    StoreInv width height r.store where
  keeps : KeepsAdded r
  /-- Only what is there is taken. -/
  bounded : ∀ i ∈ r.taken, i ≤ r.added.length

namespace PickupInv

variable {r : PickupRun K}

theorem start (width height : ℕ) : PickupInv width height (.start width height : PickupRun K) :=
  ⟨.init width height, fun _ => rfl, nofun⟩

theorem add (h : PickupInv width height r) (slot pickup : Pickup K) :
    PickupInv width height
      { r with store := (addPickup slot pickup r.store).2, added := r.added ++ [pickup] } := by
  refine ⟨h.toStoreInv.add slot pickup, fun i => ?_, fun i hi => ?_⟩
  · dsimp only
    rw [(getElem?_addPickup slot pickup r.store (Nat.succ_ne_zero i)).1, h.keeps.index slot pickup,
      List.getElem?_append]
    by_cases heq : i = r.added.length
    · -- the new pickup has not been taken yet
      have hnew : r.added.length + 1 ∉ r.taken := fun hin =>
        absurd (h.bounded _ hin) (Nat.not_succ_le_self _)
      subst heq
      simp [hnew]
    · rw [if_neg (by omega), h.keeps i]
      by_cases hlt : i < r.added.length
      · rw [if_pos hlt]
      · rw [if_neg hlt, List.getElem?_eq_none (by omega), List.getElem?_eq_none (by simp; omega)]
  · dsimp only
    rw [List.length_append]
    exact (h.bounded i hi).trans (Nat.le_add_right _ _)

theorem take (h : PickupInv width height r) (ply : PlayerInfo K) {index : ℕ} (hindex : 0 < index) :
    PickupInv width height (takePickup ply index r) := by
  rcases takePickup_cases ply index r with ⟨hsame, -⟩ | ⟨pickup, hp, -, htake⟩
  · rw [hsame]
    exact h
  · rw [htake]
    obtain ⟨k, rfl⟩ := Nat.exists_eq_succ_of_ne_zero hindex.ne'
    have hk : k < r.added.length := by
      have hkeep := h.keeps k
      rw [hp] at hkeep
      obtain ⟨q, hq, -⟩ := Option.map_eq_some_iff.mp hkeep.symm
      exact (List.getElem?_eq_some_iff.mp hq).1
    refine ⟨h.toStoreInv.delete hp (Nat.succ_ne_zero k), fun i => ?_, fun i hi => ?_⟩
    · dsimp only
      have hkeep := h.keeps i
      rw [deletePickup_of_some hp, List.getElem?_set]
      by_cases heq : k = i
      · subst heq
        have hlen := (List.getElem?_eq_some_iff.mp hp).1
        rw [hp] at hkeep
        obtain ⟨q, hq, rfl⟩ := Option.map_eq_some_iff.mp hkeep.symm
        simp [hq, hlen]
      · rw [if_neg (by omega), hkeep]
        have hmem : i + 1 ∈ r.taken ++ [k + 1] ↔ i + 1 ∈ r.taken := by
          simp only [List.mem_append, List.mem_singleton, Nat.add_right_cancel_iff, Ne.symm heq,
            or_false]
        simp only [hmem]
    · rcases List.mem_append.mp hi with hi | hi
      · exact h.bounded i hi
      · rw [List.mem_singleton.mp hi]
        exact hk

/-- **The table is exact.** -/
theorem listsAdded (h : PickupInv width height r) : ListsAdded width height r := by
  intro x y hx0 hxw hy0 hyh
  obtain ⟨hnodup, hmem⟩ := h.lists x y hx0 hxw hy0 hyh
  refine ⟨hnodup, fun i => ?_⟩
  rw [hmem (i + 1) (Nat.succ_ne_zero i)]
  unfold Lies
  rw [h.keeps i]
  constructor
  · rintro ⟨p, hp, hdown, hover⟩
    obtain ⟨pickup, hadded, rfl⟩ := Option.map_eq_some_iff.mp hp
    exact ⟨pickup, hadded, of_decide_eq_false hdown, hover⟩
  · rintro ⟨pickup, hadded, hfree, hover⟩
    refine ⟨_, Option.map_eq_some_iff.mpr ⟨pickup, hadded, rfl⟩, ?_, hover⟩
    exact decide_eq_false hfree

/-- What a player finds has not been taken. -/
theorem check_free (h : PickupInv width height r) {ply : PlayerInfo K}
    (hfound : 0 < checkPlayerPickupCollision r.store ply) :
    checkPlayerPickupCollision r.store ply ∉ r.taken := by
  obtain ⟨x, y, hx, hy, hin⟩ := check_mem h.table hfound
  obtain ⟨k, hk⟩ := Nat.exists_eq_succ_of_ne_zero hfound.ne'
  rw [hk] at hin ⊢
  obtain ⟨-, -, hfree, -⟩ := ((h.listsAdded x y hx.1 hx.2 hy.1 hy.2).2 k).mp hin
  exact hfree

theorem step (h : PickupInv width height r) {i : PickupInput K} {r' : PickupRun K}
    (hr : pickupMachine.step r i = some r') : PickupInv width height r' := by
  cases i with
  | add slot pickup =>
    cases hr
    exact h.add slot pickup
  | look who ply =>
    cases hr
    exact ⟨h.toStoreInv, h.keeps, h.bounded⟩
  | take who ply =>
    simp only [pickupMachine] at hr
    split at hr
    · next hpos =>
      cases hr
      exact h.take ply hpos
    · cases hr
      exact h

/-- **What is taken promptly is not taken twice**: what the players that are ready have found has
not been taken. -/
theorem prompt : ∀ (is : List (PickupInput K)) (ready : List ℕ) {r : PickupRun K},
    PickupInv width height r → r.taken.Nodup →
    (∀ who ∈ ready, r.found who ∉ r.taken ∨ r.found who = 0) → Prompt ready is →
    pickupMachine.Always (fun r => r.taken.Nodup) r is := by
  intro is
  induction is with
  | nil => intro ready r _ htaken _ _; exact htaken
  | cons i is ih =>
    intro ready r h htaken hready hprompt
    refine ⟨htaken, ?_⟩
    cases i with
    | add slot pickup => exact ih ready (h.add slot pickup) htaken hready hprompt
    | look who ply =>
      refine ih (who :: ready) ⟨h.toStoreInv, h.keeps, h.bounded⟩ htaken ?_ hprompt
      intro who' hwho'
      dsimp only
      by_cases heq : who' = who
      · subst heq
        rw [Function.update_self]
        rcases Nat.eq_zero_or_pos (checkPlayerPickupCollision r.store ply) with hzero | hpos
        · exact Or.inr hzero
        · exact Or.inl (h.check_free hpos)
      · rw [Function.update_of_ne heq]
        exact hready who' ((List.mem_cons.mp hwho').resolve_left heq)
    | take who ply =>
      obtain ⟨hwho, hprompt⟩ := hprompt
      simp only [pickupMachine]
      split
      · next hpos =>
        have hfree : r.found who ∉ r.taken := (hready who hwho).resolve_right (Nat.ne_of_gt hpos)
        refine ih [] (h.take ply hpos) ?_ nofun hprompt
        rcases takePickup_cases ply (r.found who) r with ⟨hsame, -⟩ | ⟨pickup, -, -, htake⟩
        · rw [hsame]
          exact htaken
        · rw [htake]
          exact List.nodup_append.mpr ⟨htaken, List.nodup_singleton _, fun a ha b hb hab =>
            hfree (List.mem_singleton.mp hb ▸ hab ▸ ha)⟩
      · exact ih [] h htaken nofun hprompt

end PickupInv

/-- **Pickups are consumed at most once.**  For a table of every size, and pickups that are added,
looked for and taken in any order by any players at any positions: the array holds what was added,
and the table lists exactly the pickups that are still there.  When nothing is taken between the
time a player looks and the time it takes what it has found, no handler returns `true` twice for
one pickup. -/
theorem pickups_once (width height : ℕ) (is : List (PickupInput K)) :
    pickupMachine.Always (fun r => KeepsAdded r ∧ ListsAdded width height r)
        (.start width height) is ∧
      (Prompt [] is → pickupMachine.Always (fun r => r.taken.Nodup) (.start width height) is) :=
  ⟨Machine.always_of_step (fun _ hr => ⟨hr.keeps, hr.listsAdded⟩) (fun _ _ _ hr h => hr.step h) is
      (PickupInv.start width height),
    PickupInv.prompt is [] (.start width height) List.nodup_nil nofun⟩

end Model

/-! ### Two players and a medkit -/

/-- A medkit in the middle of a map of three by three cells. -/
def soleMedkit : Pickup ℚ :=
  { details := .medkit 25, pickedUp := false, collider := ⟨⟨3 / 2, 3 / 2⟩, 1 / 2⟩
    animation := { framesPerSprite := 5, curFrame := 0, numFig := 1, state := .finished } }

/-- A wounded player that stands on it. -/
def hurtPlayer : PlayerInfo ℚ :=
  { PlayerInfo.zero with position := ⟨3 / 2, 3 / 2⟩, health := 50, maxHealth := 100 }

/-- Both players look before either takes what it has found. -/
def crossedTakes : List (PickupInput ℚ) :=
  [.add soleMedkit soleMedkit, .look 0 hurtPlayer, .look 1 hurtPlayer, .take 0 hurtPlayer,
    .take 1 hurtPlayer]

/-- **Both take the medkit.** -/
theorem not_pickups_once_crossed :
    ∃ r, pickupMachine.run (.start 3 3) crossedTakes = some r ∧ r.taken = [1, 1] ∧
      ¬ r.taken.Nodup := by
  obtain ⟨r, hr, htaken⟩ := Option.map_eq_some_iff.mp
    (show (pickupMachine.run (.start 3 3) crossedTakes).map PickupRun.taken = some [1, 1] by
      decide +kernel)
  exact ⟨r, hr, htaken, htaken ▸ by decide⟩

/-- When each player takes what it has found before the other looks, only the first one takes the
medkit. -/
theorem pickups_once_turns :
    let turns : List (PickupInput ℚ) := [.add soleMedkit soleMedkit, .look 0 hurtPlayer,
      .take 0 hurtPlayer, .look 1 hurtPlayer, .take 1 hurtPlayer]
    (pickupMachine.run (.start 3 3) turns).map PickupRun.taken = some [1] ∧
      pickupMachine.Always (fun r => KeepsAdded r ∧ ListsAdded 3 3 r) (.start 3 3) turns ∧
      pickupMachine.Always (fun r => r.taken.Nodup) (.start 3 3) turns := by
  intro turns
  obtain ⟨hlists, htaken⟩ := pickups_once 3 3 turns
  exact ⟨by decide +kernel, hlists, htaken ⟨List.mem_singleton_self 0, List.mem_singleton_self 1,
    trivial⟩⟩

end OperationMinix
