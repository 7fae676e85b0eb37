import Mathlib.Data.Nat.Notation

/-!
# Loops that are left from inside

The body of a loop leads to its next pass or leaves the loop with a result.  What a
loop computes is given for a number of passes that it may make; the rule of the
variant says how many are enough, and what holds of the result.

## Main results

* `Loop.run_total` — an invariant, and a variant that every further pass lowers, give
  the result of the loop.
-/

namespace Runs

namespace Loop

variable {S R : Type*}

/-- The result of a loop that is left within the given number of passes. -/
def run (body : S → S ⊕ R) : ℕ → S → Option R
  | 0, _ => none
  | n + 1, s => match body s with
    | .inl t => run body n t
    | .inr r => some r

variable {body : S → S ⊕ R}

/-- **The rule of the variant.** -/
theorem run_total {J : S → Prop} {P : R → Prop} (variant : S → ℕ)
    (hnext : ∀ s t, J s → body s = .inl t → J t ∧ variant t < variant s)
    (hleave : ∀ s r, J s → body s = .inr r → P r) :
    ∀ (n : ℕ) (s : S), J s → variant s < n → ∃ r, run body n s = some r ∧ P r := by
  intro n
  induction n with
  | zero => intro s _ h; exact absurd h (Nat.not_lt_zero _)
  | succ n ih =>
    intro s hs hn
    cases hbody : body s with
    | inl t =>
      obtain ⟨ht, hlt⟩ := hnext s t hs hbody
      obtain ⟨r, hr, hpost⟩ := ih t ht (Nat.lt_of_lt_of_le hlt (Nat.le_of_lt_succ hn))
      refine ⟨r, ?_, hpost⟩
      rw [run, hbody]
      exact hr
    | inr r =>
      refine ⟨r, ?_, hleave s r hs hbody⟩
      rw [run, hbody]

end Loop

end Runs
