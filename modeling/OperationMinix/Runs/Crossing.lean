import Mathlib.Algebra.Order.Field.Basic
import Mathlib.Algebra.Order.Ring.WithTop
import Mathlib.Data.Int.Cast.Lemmas
import Mathlib.Tactic.Linarith
import Mathlib.Tactic.Ring

/-!
# Crossing the lines of a grid

A point moves along an axis at a constant speed.  The integers divide the axis into
cells; `crossing` is the time at which the point leaves a cell on the side it moves to,
`⊤` when it stands still.  A ray through a grid is two such points, and the cell that it
is in changes with the earlier of the two crossings.

## Main definitions

* `Within i x`, `Amid i x` — `x` is in the closed cell `i`, or inside it.
* `crossing p v i` — when the point that starts at `p` with speed `v` leaves cell `i`.

## Main results

* `Within.wait` — until then the point stays in the cell.
* `within_crossing` — then it is in the next one.
* `not_amid_of_crossing` — and from then on in none behind.
-/

namespace Runs

set_option linter.unusedSectionVars false

variable {K : Type*} [Field K] [LinearOrder K] [IsStrictOrderedRing K]

/-- The coordinate lies in the cell from `i` to `i + 1`. -/
def Within (i : ℤ) (x : K) : Prop := (i : K) ≤ x ∧ x ≤ i + 1

/-- The coordinate lies inside the cell from `i` to `i + 1`. -/
def Amid (i : ℤ) (x : K) : Prop := (i : K) < x ∧ x < i + 1

/-- The step to the next cell. -/
def heading (v : K) : ℤ := if v < 0 then -1 else 1

/-- The time at which a point leaves cell `i`. -/
def crossing (p v : K) (i : ℤ) : WithTop K :=
  if v < 0 then ↑((i - p) / v) else if 0 < v then ↑((i + 1 - p) / v) else ⊤

/-- The time from one crossing to the next. -/
def period (v : K) : WithTop K := if v = 0 then ⊤ else ↑|1 / v|

variable {p v d t : K} {i k : ℤ}

theorem heading_eq (v : K) : heading v = 1 ∨ heading v = -1 := by
  unfold heading
  split
  · exact Or.inr rfl
  · exact Or.inl rfl

/-- Whoever is in one cell is inside no other. -/
theorem Within.eq_of_amid {x : K} (h : Within i x) (hk : Amid k x) : k = i := by
  have h1 : (i : K) < k + 1 := lt_of_le_of_lt h.1 hk.2
  have h2 : (k : K) < i + 1 := lt_of_lt_of_le hk.1 h.2
  have h1' : i < k + 1 := by exact_mod_cast h1
  have h2' : k < i + 1 := by exact_mod_cast h2
  omega

theorem le_crossing_of_neg (hv : v < 0) :
    (t : WithTop K) ≤ crossing p v i ↔ (i : K) ≤ p + t * v := by
  rw [crossing, if_pos hv, WithTop.coe_le_coe, le_div_iff_of_neg hv]
  constructor <;> intro h <;> linarith

theorem le_crossing_of_pos (hv : 0 < v) :
    (t : WithTop K) ≤ crossing p v i ↔ p + t * v ≤ i + 1 := by
  rw [crossing, if_neg hv.le.not_gt, if_pos hv, WithTop.coe_le_coe, le_div_iff₀ hv]
  constructor <;> intro h <;> linarith

theorem crossing_zero : crossing p 0 i = ⊤ := by
  rw [crossing, if_neg (lt_irrefl _), if_neg (lt_irrefl _)]

/-- A point that is in a cell has not left it yet. -/
theorem Within.le_crossing (h : Within i (p + d * v)) : (d : WithTop K) ≤ crossing p v i := by
  rcases lt_trichotomy v 0 with hv | rfl | hv
  · exact (le_crossing_of_neg hv).mpr h.1
  · rw [crossing_zero]
    exact le_top
  · exact (le_crossing_of_pos hv).mpr h.2

/-- **Until the crossing** the point stays in its cell. -/
theorem Within.wait (h : Within i (p + d * v)) (hd : d ≤ t)
    (ht : (t : WithTop K) ≤ crossing p v i) : Within i (p + t * v) := by
  rcases lt_trichotomy v 0 with hv | rfl | hv
  · have hmove : t * v ≤ d * v := mul_le_mul_of_nonpos_right hd hv.le
    exact ⟨(le_crossing_of_neg hv).mp ht, by linarith [h.2]⟩
  · simpa using h
  · have hmove : d * v ≤ t * v := mul_le_mul_of_nonneg_right hd hv.le
    exact ⟨by linarith [h.1], (le_crossing_of_pos hv).mp ht⟩

/-- Where the point is at the crossing. -/
theorem eq_of_crossing (h : crossing p v i = t) :
    (v < 0 ∧ p + t * v = i) ∨ (0 < v ∧ p + t * v = i + 1) := by
  rcases lt_trichotomy v 0 with hv | rfl | hv
  · rw [crossing, if_pos hv, WithTop.coe_inj] at h
    refine Or.inl ⟨hv, ?_⟩
    rw [← h, div_mul_cancel₀ _ hv.ne]
    ring
  · rw [crossing_zero] at h
    cases h
  · rw [crossing, if_neg hv.le.not_gt, if_pos hv, WithTop.coe_inj] at h
    refine Or.inr ⟨hv, ?_⟩
    rw [← h, div_mul_cancel₀ _ hv.ne']
    ring

/-- **At the crossing** the point comes to the next cell. -/
theorem within_crossing (h : crossing p v i = t) : Within (i + heading v) (p + t * v) := by
  rcases eq_of_crossing h with ⟨hv, hpos⟩ | ⟨hv, hpos⟩
  · rw [heading, if_pos hv, hpos]
    exact ⟨by push_cast; linarith, by push_cast; linarith⟩
  · rw [heading, if_neg hv.le.not_gt, hpos]
    exact ⟨by push_cast; linarith, by push_cast; linarith⟩

/-- The next crossing. -/
theorem crossing_add_heading (p v : K) (i : ℤ) :
    crossing p v (i + heading v) = crossing p v i + period v := by
  rcases lt_trichotomy v 0 with hv | rfl | hv
  · rw [crossing, crossing, period, heading, if_pos hv, if_pos hv, if_pos hv, if_neg hv.ne,
      ← WithTop.coe_add, WithTop.coe_inj, abs_of_neg (one_div_neg.mpr hv)]
    push_cast
    ring
  · rw [crossing_zero, crossing_zero, WithTop.top_add]
  · rw [crossing, crossing, period, heading, if_neg hv.le.not_gt, if_neg hv.le.not_gt,
      if_neg hv.le.not_gt, if_pos hv, if_pos hv, if_neg hv.ne', ← WithTop.coe_add, WithTop.coe_inj,
      abs_of_pos (one_div_pos.mpr hv)]
    push_cast
    ring

/-- **From the crossing on** the point is inside none of the cells behind it. -/
theorem not_amid_of_crossing (h : crossing p v i = d) (ht : d ≤ t)
    (hbehind : heading v * k ≤ heading v * i) : ¬ Amid k (p + t * v) := by
  rintro ⟨hlow, hhigh⟩
  rcases eq_of_crossing h with ⟨hv, hpos⟩ | ⟨hv, hpos⟩
  · have hmove : t * v ≤ d * v := mul_le_mul_of_nonpos_right ht hv.le
    rw [heading, if_pos hv] at hbehind
    have hcell : (i : K) ≤ k := by exact_mod_cast (show i ≤ k by omega)
    linarith
  · have hmove : d * v ≤ t * v := mul_le_mul_of_nonneg_right ht hv.le
    rw [heading, if_neg hv.le.not_gt] at hbehind
    have hcell : (k : K) ≤ i := by exact_mod_cast (show k ≤ i by omega)
    linarith

/-- A point that moves leaves its cell at some time. -/
theorem crossing_ne_top (hv : v ≠ 0) : crossing p v i ≠ ⊤ := by
  rcases lt_or_gt_of_ne hv with hv | hv
  · rw [crossing, if_pos hv]
    exact WithTop.coe_ne_top
  · rw [crossing, if_neg hv.le.not_gt, if_pos hv]
    exact WithTop.coe_ne_top

end Runs
