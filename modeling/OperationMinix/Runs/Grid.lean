import Mathlib.Data.List.GetD
import Mathlib.Data.List.Nodup

/-!
# Grids

A grid is a list of lines, and a line a list of cells.  What a change to some of its cells
does is read off cell by cell, as long as no cell is changed twice.

## Main definitions

* `Grid.get`, `Grid.modify`, `Grid.modifyAll` — a cell, and a change to it or to several.
* `Grid.Shape` — a grid of a width and a height.

## Main results

* `Grid.get_modifyAll_of_mem` — **a change to several cells, seen from one of them.**
-/

namespace Runs

/-- A grid, line by line. -/
abbrev Grid (α : Type*) := List (List α)

namespace Grid

variable {α ι : Type*}

/-- The cell in column `x` of line `y`; `d` outside of the grid. -/
def get (d : α) (g : Grid α) (x y : ℕ) : α := (g.getD y []).getD x d

/-- A change to the cell in column `x` of line `y`. -/
def modify (x y : ℕ) (f : α → α) (g : Grid α) : Grid α :=
  List.modify g y fun line => line.modify x f

/-- Every one of the `height` lines has `width` cells. -/
structure Shape (width height : ℕ) (g : Grid α) : Prop where
  lines : g.length = height
  cells : ∀ line ∈ g, line.length = width

variable {width height x y : ℕ} {g : Grid α}

theorem shape_replicate (width height : ℕ) (a : α) :
    Shape width height (List.replicate height (List.replicate width a)) := by
  refine ⟨List.length_replicate .., fun line hline => ?_⟩
  rw [List.eq_of_mem_replicate hline, List.length_replicate]

theorem get_replicate (d : α) (width height x y : ℕ) :
    get d (List.replicate height (List.replicate width d)) x y = d := by
  unfold get
  simp only [List.getD_eq_getElem?_getD, List.getElem?_replicate]
  by_cases hy : y < height
  · by_cases hx : x < width
    · simp [hy, hx]
    · simp [hy, hx]
  · simp [hy]

theorem modify_id (x y : ℕ) (g : Grid α) : modify x y id g = g := by
  unfold modify
  have hid : (fun line : List α => line.modify x id) = id := funext (List.modify_id x)
  rw [hid]
  exact List.modify_id y g

theorem Shape.modify (h : Shape width height g) (x y : ℕ) (f : α → α) :
    Shape width height (modify x y f g) := by
  refine ⟨(List.length_modify ..).trans h.lines, fun line hline => ?_⟩
  unfold Grid.modify at hline
  obtain ⟨i, hi, rfl⟩ := List.getElem_of_mem hline
  rw [List.getElem_modify]
  split
  · rw [List.length_modify]
    exact h.cells _ (List.getElem_mem _)
  · exact h.cells _ (List.getElem_mem _)

/-- **A change to one cell**, seen from another. -/
theorem get_modify (h : Shape width height g) (d : α) (hx : x < width) (hy : y < height)
    (x' y' : ℕ) (f : α → α) :
    get d (modify x' y' f g) x y = if (x', y') = (x, y) then f (get d g x y) else get d g x y := by
  have hlen : y < g.length := h.lines ▸ hy
  have hline : x < g[y].length := (h.cells _ (List.getElem_mem hlen)).symm ▸ hx
  unfold get modify
  simp only [List.getD_eq_getElem?_getD, List.getElem?_modify]
  rw [List.getElem?_eq_getElem hlen]
  by_cases hyy : y' = y
  · by_cases hxx : x' = x
    · simp [hyy, hxx, hline]
    · simp [hyy, hxx, hline]
  · simp [hyy]

/-- A change to the cells at the positions of a list. -/
def modifyAll (pos : ι → ℕ × ℕ) (f : ι → α → α) (cs : List ι) (g : Grid α) : Grid α :=
  cs.foldl (fun g c => modify (pos c).1 (pos c).2 (f c) g) g

theorem Shape.modifyAll (pos : ι → ℕ × ℕ) (f : ι → α → α) : ∀ (cs : List ι) {g : Grid α},
    Shape width height g → Shape width height (modifyAll pos f cs g) := by
  intro cs
  induction cs with
  | nil => intro g h; exact h
  | cons c cs ih => intro g h; exact ih (h.modify _ _ (f c))

/-- A cell that is not in the list keeps what it has. -/
theorem get_modifyAll_of_ne (d : α) (pos : ι → ℕ × ℕ) (f : ι → α → α) (hx : x < width)
    (hy : y < height) : ∀ (cs : List ι) {g : Grid α}, Shape width height g →
      (∀ c ∈ cs, pos c ≠ (x, y)) → get d (modifyAll pos f cs g) x y = get d g x y := by
  intro cs
  induction cs with
  | nil => intro g _ _; rfl
  | cons c cs ih =>
    intro g h hne
    refine (ih (h.modify _ _ (f c)) fun c' hc' => hne c' (List.mem_cons_of_mem c hc')).trans ?_
    rw [get_modify h d hx hy, if_neg (hne c List.mem_cons_self)]

/-- **A change to several cells**, seen from one of them. -/
theorem get_modifyAll_of_mem (d : α) (pos : ι → ℕ × ℕ) (f : ι → α → α) (hx : x < width)
    (hy : y < height) : ∀ (cs : List ι) {g : Grid α}, Shape width height g →
      (cs.map pos).Nodup → ∀ c ∈ cs, pos c = (x, y) →
        get d (modifyAll pos f cs g) x y = f c (get d g x y) := by
  intro cs
  induction cs with
  | nil => intro g _ _ c hc; cases hc
  | cons c₀ cs ih =>
    intro g h hnodup c hc hpos
    rw [List.map_cons, List.nodup_cons] at hnodup
    rcases List.mem_cons.mp hc with rfl | hc
    · -- the cell is changed now, and not again
      have hrest : ∀ c' ∈ cs, pos c' ≠ (x, y) := by
        intro c' hc' hpos'
        exact hnodup.1 (List.mem_map.mpr ⟨c', hc', hpos'.trans hpos.symm⟩)
      refine (get_modifyAll_of_ne d pos f hx hy cs (h.modify _ _ (f c)) hrest).trans ?_
      rw [get_modify h d hx hy, if_pos hpos]
    · have hne : pos c₀ ≠ (x, y) := by
        intro hpos₀
        exact hnodup.1 (List.mem_map.mpr ⟨c, hc, hpos.trans hpos₀.symm⟩)
      refine (ih (h.modify _ _ (f c₀)) hnodup.2 c hc hpos).trans ?_
      rw [get_modify h d hx hy, if_neg hne]

end Grid

end Runs
