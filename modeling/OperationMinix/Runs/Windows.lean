import Mathlib.Data.List.Basic

/-!
# Windows of a memory

A window is a part of a list of cells: `n` of them from a place on.  A write in a window is a
write in the list that is its own, and a write outside of it does not change it.

## Main definitions

* `Windows.slice` — what is in a window.
* `Windows.fill` — the same value in every cell of a window.

## Main results

* `Windows.slice_set`, `Windows.slice_set_of_outside` — one write, in a window or outside of it.
* `Windows.slice_fill`, `Windows.slice_fill_of_outside` — filling a window, or another one.
-/

namespace Runs

namespace Windows

variable {α : Type*}

/-- The `n` cells from `a` on. -/
def slice (a n : ℕ) (l : List α) : List α := (l.drop a).take n

/-- The `n` cells from `a` on are set to `x`. -/
def fill (a n : ℕ) (x : α) (l : List α) : List α := l.take a ++ List.replicate n x ++ l.drop (a + n)

theorem getElem?_slice (a n i : ℕ) (l : List α) :
    (slice a n l)[i]? = if i < n then l[a + i]? else none := by
  unfold slice
  split_ifs with hi
  · rw [List.getElem?_take_of_lt hi, List.getElem?_drop]
  · rw [List.getElem?_eq_none]
    rw [List.length_take]
    omega

theorem length_slice {a n : ℕ} {l : List α} (h : a + n ≤ l.length) : (slice a n l).length = n := by
  unfold slice
  rw [List.length_take, List.length_drop]
  omega

/-- A write in the window. -/
theorem slice_set {a n i : ℕ} (hi : i < n) (x : α) (l : List α) :
    slice a n (l.set (a + i) x) = (slice a n l).set i x := by
  apply List.ext_getElem?
  intro j
  rw [getElem?_slice, List.getElem?_set, List.getElem?_set, getElem?_slice]
  by_cases hj : j < n
  · simp only [if_pos hj, Nat.add_left_cancel_iff]
    by_cases hij : i = j
    · subst hij
      have hlen : a + i < l.length ↔ i < (slice a n l).length := by
        unfold slice
        rw [List.length_take, List.length_drop]
        omega
      simp only [if_pos, hlen]
    · simp only [if_neg hij]
  · have hij : i ≠ j := by omega
    simp only [if_neg hj, if_neg hij]

/-- A write outside of the window. -/
theorem slice_set_of_outside {a n i : ℕ} (hi : i < a ∨ a + n ≤ i) (x : α) (l : List α) :
    slice a n (l.set i x) = slice a n l := by
  apply List.ext_getElem?
  intro j
  rw [getElem?_slice, getElem?_slice]
  by_cases hj : j < n
  · rw [if_pos hj, if_pos hj, List.getElem?_set_ne (by omega)]
  · rw [if_neg hj, if_neg hj]

theorem length_fill {a n : ℕ} {l : List α} (h : a + n ≤ l.length) (x : α) :
    (fill a n x l).length = l.length := by
  unfold fill
  simp only [List.length_append, List.length_take, List.length_replicate, List.length_drop]
  omega

theorem getElem?_fill {a n : ℕ} {l : List α} (h : a + n ≤ l.length) (x : α) (i : ℕ) :
    (fill a n x l)[i]? = if a ≤ i ∧ i < a + n then some x else l[i]? := by
  unfold fill
  rw [List.append_assoc, List.getElem?_append, List.getElem?_append, List.length_take,
    List.length_replicate, Nat.min_eq_left (by omega)]
  by_cases hlow : i < a
  · rw [if_pos hlow, if_neg (by omega), List.getElem?_take_of_lt hlow]
  · rw [if_neg hlow]
    by_cases hhigh : i < a + n
    · rw [if_pos (by omega), if_pos (by omega), List.getElem?_replicate, if_pos (by omega)]
    · rw [if_neg (by omega), if_neg (by omega), List.getElem?_drop]
      congr 1
      omega

/-- A window that is filled. -/
theorem slice_fill {a n : ℕ} {l : List α} (h : a + n ≤ l.length) (x : α) :
    slice a n (fill a n x l) = List.replicate n x := by
  apply List.ext_getElem?
  intro j
  rw [getElem?_slice, getElem?_fill h, List.getElem?_replicate]
  by_cases hj : j < n
  · rw [if_pos hj, if_pos (by omega), if_pos hj]
  · rw [if_neg hj, if_neg hj]

/-- Another window is filled. -/
theorem slice_fill_of_outside {a n b k : ℕ} {l : List α} (h : a + n ≤ l.length)
    (hout : b + k ≤ a ∨ a + n ≤ b) (x : α) : slice b k (fill a n x l) = slice b k l := by
  apply List.ext_getElem?
  intro j
  rw [getElem?_slice, getElem?_slice]
  by_cases hj : j < k
  · rw [if_pos hj, if_pos hj, getElem?_fill h, if_neg (by omega)]
  · rw [if_neg hj, if_neg hj]

end Windows

end Runs
