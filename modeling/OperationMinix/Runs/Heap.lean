import Mathlib.Data.Set.Card

/-!
# A heap and the chains in it

A heap has finitely many cells, at addresses of which an allocator chooses one that is not in
use; an address may be given out again once its cell has been freed.  An access to an address
at which there is no cell fails, and so does one through a null pointer.

A chain is what a list is in such a heap: each of its cells holds a pointer to the next.  A
chain that ends in a null pointer is determined by its first pointer, so no cell comes twice.

## Main definitions

* `Heap`, `Heap.load`, `Heap.modify`, `Heap.free` — the cells, and the accesses to them.
* `Malloc`, `Malloc.alloc` — an allocator.
* `Chain next h p cells q` — from `p` to `q` through `cells`.

## Main results

* `Heap.nonempty_malloc` — there is an allocator.
* `Chain.frame` — a chain stays as long as its cells do.
* `Chain.unique`, `Chain.nodup` — a chain to the null pointer is the only one.
* `Chain.modify_last` — the last cell is led on to another.
-/

namespace Runs

/-- A pointer; `none` is the null pointer. -/
abbrev Ptr := Option ℕ

/-- A heap: the cells that have been allocated and not freed. -/
structure Heap (α : Type*) where
  cell : ℕ → Option α
  finite : {a | cell a ≠ none}.Finite

namespace Heap

variable {α : Type*} {h h' : Heap α} {p : Ptr} {a : ℕ} {x : α}

/-- The heap with a place changed. -/
def update (h : Heap α) (a : ℕ) (x : Option α) : Heap α where
  cell := Function.update h.cell a x
  finite := by
    refine (h.finite.insert a).subset fun b hb => ?_
    by_cases hba : b = a
    · exact Set.mem_insert_iff.mpr (Or.inl hba)
    · rw [Set.mem_ofPred_eq, Function.update_of_ne hba] at hb
      exact Set.mem_insert_of_mem a hb

/-- What a pointer points to. -/
def load (h : Heap α) (p : Ptr) : Option α := p.bind h.cell

/-- A change to what a pointer points to. -/
def modify (h : Heap α) (p : Ptr) (f : α → α) : Option (Heap α) :=
  p.bind fun a => (h.cell a).map fun x => h.update a (some (f x))

/-- The cell that a pointer points to is given back. -/
def free (h : Heap α) (p : Ptr) : Option (Heap α) :=
  p.bind fun a => (h.cell a).map fun _ => h.update a none

/-- The number of the cells. -/
noncomputable def size (h : Heap α) : ℕ := {a | h.cell a ≠ none}.ncard

@[simp] theorem load_some (h : Heap α) (a : ℕ) : h.load (some a) = h.cell a := rfl

@[simp] theorem cell_update_self (h : Heap α) (a : ℕ) (x : Option α) :
    (h.update a x).cell a = x := by
  unfold update
  exact Function.update_self a x h.cell

theorem cell_update_of_ne {b : ℕ} (hb : b ≠ a) (h : Heap α) (x : Option α) :
    (h.update a x).cell b = h.cell b := by
  unfold update
  exact Function.update_of_ne hb x h.cell

theorem modify_of_cell (ha : h.cell a = some x) (f : α → α) :
    h.modify (some a) f = some (h.update a (some (f x))) := by
  rw [modify, Option.bind_some, ha, Option.map_some]

theorem free_of_cell (ha : h.cell a = some x) : h.free (some a) = some (h.update a none) := by
  rw [free, Option.bind_some, ha, Option.map_some]

@[simp] theorem update_update (h : Heap α) (a : ℕ) (x y : Option α) :
    (h.update a x).update a y = h.update a y := by
  simp only [update, Function.update_idem]

/-- A heap is what its cells are. -/
theorem ext_cell (hcell : ∀ a, h.cell a = h'.cell a) : h = h' := by
  cases h
  cases h'
  simpa [funext_iff] using hcell

/-- A free leaves a cell less. -/
theorem size_free_lt (hfree : h.free p = some h') : h'.size < h.size := by
  obtain ⟨a, rfl, hfree⟩ := Option.bind_eq_some_iff.mp hfree
  obtain ⟨x, hx, rfl⟩ := Option.map_eq_some_iff.mp hfree
  refine Set.ncard_lt_ncard ⟨fun b hb => ?_, fun hsub => ?_⟩ h.finite
  · by_cases hba : b = a
    · exact absurd (by rw [hba]; exact cell_update_self h a none) hb
    · rwa [Set.mem_ofPred_eq, cell_update_of_ne hba] at hb
  · have hmem : a ∈ {b | h.cell b ≠ none} := by
      rw [Set.mem_ofPred_eq, hx]
      exact Option.some_ne_none x
    exact hsub hmem (cell_update_self h a none)

theorem exists_free_place (h : Heap α) : ∃ a, h.cell a = none := by
  obtain ⟨a, ha⟩ := h.finite.exists_notMem
  exact ⟨a, not_not.mp ha⟩

end Heap

/-- An allocator: a place that is not in use, and what it happens to hold. -/
structure Malloc (α : Type*) where
  place : Heap α → ℕ
  junk : Heap α → α
  fresh : ∀ h : Heap α, h.cell (place h) = none

/-- `malloc`: the pointer to the new cell, and the heap with it. -/
def Malloc.alloc {α : Type*} (m : Malloc α) (h : Heap α) : Ptr × Heap α :=
  (some (m.place h), h.update (m.place h) (some (m.junk h)))

theorem Heap.nonempty_malloc {α : Type*} [Nonempty α] : Nonempty (Malloc α) := by
  choose place hplace using Heap.exists_free_place (α := α)
  exact ⟨place, fun _ => Classical.arbitrary α, hplace⟩

/-! ### Chains -/

section Chains

variable {α : Type*} (next : α → Ptr) (h : Heap α)

/-- The pointer `p` leads through the cells, each with its address, to `q`. -/
def Chain : Ptr → List (ℕ × α) → Ptr → Prop
  | p, [], q => p = q
  | p, c :: cells, q => p = some c.1 ∧ h.cell c.1 = some c.2 ∧ Chain (next c.2) cells q

variable {next h} {h' : Heap α} {p q r : Ptr} {cells cells' : List (ℕ × α)}

namespace Chain

@[simp] theorem nil_iff : Chain next h p [] q ↔ p = q := Iff.rfl

theorem cons_iff {c : ℕ × α} : Chain next h p (c :: cells) q ↔
    p = some c.1 ∧ h.cell c.1 = some c.2 ∧ Chain next h (next c.2) cells q :=
  Iff.rfl

theorem append_iff : Chain next h p (cells ++ cells') q ↔
    ∃ r, Chain next h p cells r ∧ Chain next h r cells' q := by
  induction cells generalizing p with
  | nil => simp
  | cons c cells ih =>
    rw [List.cons_append, cons_iff, ih]
    constructor
    · rintro ⟨hp, hc, r, hr, hq⟩
      exact ⟨r, ⟨hp, hc, hr⟩, hq⟩
    · rintro ⟨r, ⟨hp, hc, hr⟩, hq⟩
      exact ⟨hp, hc, r, hr, hq⟩

theorem cell_of_mem (hc : Chain next h p cells q) {c : ℕ × α} (hmem : c ∈ cells) :
    h.cell c.1 = some c.2 := by
  induction cells generalizing p with
  | nil => cases hmem
  | cons d cells ih =>
    obtain ⟨-, hd, hrest⟩ := cons_iff.mp hc
    rcases List.mem_cons.mp hmem with rfl | hmem
    · exact hd
    · exact ih hrest hmem

/-- **The frame rule.**  A chain is still there when its cells are. -/
theorem frame (hc : Chain next h p cells q) (hcells : ∀ c ∈ cells, h'.cell c.1 = h.cell c.1) :
    Chain next h' p cells q := by
  induction cells generalizing p with
  | nil => exact hc
  | cons c cells ih =>
    obtain ⟨hp, hcell, hrest⟩ := cons_iff.mp hc
    exact ⟨hp, (hcells c List.mem_cons_self).trans hcell,
      ih hrest fun d hd => hcells d (List.mem_cons_of_mem _ hd)⟩

/-- A chain that ends in a null pointer is determined by where it begins. -/
theorem unique (hc : Chain next h p cells none) (hc' : Chain next h p cells' none) :
    cells = cells' := by
  induction cells generalizing p cells' with
  | nil =>
    cases cells' with
    | nil => rfl
    | cons c' cells' =>
      have hp : p = none := hc
      rw [hp] at hc'
      cases hc'.1
  | cons c cells ih =>
    obtain ⟨hp, hcell, hrest⟩ := cons_iff.mp hc
    cases cells' with
    | nil =>
      have hp' : p = none := hc'
      rw [hp'] at hp
      cases hp
    | cons c' cells' =>
      obtain ⟨hp', hcell', hrest'⟩ := cons_iff.mp hc'
      have haddr : c.1 = c'.1 := Option.some.inj (hp.symm.trans hp')
      rw [← haddr, hcell, Option.some.injEq] at hcell'
      rw [← hcell'] at hrest'
      rw [ih hrest hrest', Prod.ext haddr hcell']

/-- No cell comes twice in a chain that ends in a null pointer. -/
theorem nodup (hc : Chain next h p cells none) : (cells.map Prod.fst).Nodup := by
  induction cells generalizing p with
  | nil => exact List.nodup_nil
  | cons c cells ih =>
    obtain ⟨hp, hcell, hrest⟩ := cons_iff.mp hc
    refine List.nodup_cons.mpr ⟨fun hmem => ?_, ih hrest⟩
    -- the chain from the second place of the cell would be the whole chain
    obtain ⟨d, hd, hdc⟩ := List.mem_map.mp hmem
    obtain ⟨front, back, rfl⟩ := List.append_of_mem hd
    obtain ⟨r, -, hback⟩ := append_iff.mp hrest
    have hwhole : Chain next h (some c.1) (c :: (front ++ d :: back)) none :=
      ⟨rfl, hcell, hrest⟩
    have hr : r = some c.1 := hback.1.trans (congrArg some hdc)
    rw [hr] at hback
    have hlen := congrArg List.length (unique hwhole hback)
    simp only [List.length_cons, List.length_append] at hlen
    omega

/-- **The last cell is led on to another one**, at the end of the chain. -/
theorem modify_last {a b : ℕ} {x x' y : α} (hc : Chain next h p (cells ++ [(b, x)]) none)
    (ha : h.cell a = some y) (hy : next y = none) (hx' : next x' = some a)
    (hnew : a ∉ (cells ++ [(b, x)]).map Prod.fst) :
    Chain next (h.update b (some x')) p (cells ++ [(b, x'), (a, y)]) none := by
  have hnodup := hc.nodup
  rw [List.map_append, List.map_singleton, List.nodup_append] at hnodup
  rw [List.map_append, List.map_singleton, List.mem_append, List.mem_singleton, not_or] at hnew
  obtain ⟨r, hr, hb⟩ := append_iff.mp hc
  refine append_iff.mpr ⟨r, hr.frame fun c hmem => ?_, ?_⟩
  · have hcb : c.1 ≠ b := hnodup.2.2 c.1 (List.mem_map_of_mem hmem) b List.mem_cons_self
    exact Heap.cell_update_of_ne hcb h _
  · refine ⟨hb.1, Heap.cell_update_self h b _, hx', ?_, hy⟩
    exact (Heap.cell_update_of_ne hnew.2 h _).trans ha

end Chain

end Chains

end Runs
