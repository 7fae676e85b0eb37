import Mathlib.Data.List.Basic
import Mathlib.Data.List.Induction

/-!
# What has happened so far

A machine that takes every input is in the state that its inputs so far have led to.  What it
remembers of them is said by an invariant of the history: a property of lists that holds of the
empty one and is kept when an input is added at the end.

Such an invariant speaks of stretches of the history: the inputs of a stretch that arrived in
certain states, and those that the machine took a certain way.

## Main definitions

* `Reactor`, `Reactor.after` — a machine, and its state after a history.
* `Reactor.Within P h s` — every input of the stretch `s` after `h` arrives in a state of `P`.
* `Reactor.taken test h s` — the inputs of the stretch that pass a test of state and input.

## Main results

* `Reactor.history` — the rule of histories.
* `Reactor.within_concat`, `Reactor.taken_concat` — a stretch with an input more.
-/

namespace Runs

/-- A machine that takes every input. -/
structure Reactor (S A : Type*) where
  start : S
  step : S → A → S

namespace Reactor

variable {S A : Type*} (M : Reactor S A)

/-- The state after a history. -/
def after (h : List A) : S := h.foldl M.step M.start

/-- Every input of `s`, after `h`, arrives in a state of `P`. -/
def Within (P : S → Prop) (h s : List A) : Prop :=
  ∀ pre a post, s = pre ++ a :: post → P (M.after (h ++ pre))

/-- The inputs of `s`, from the state `g` on, that pass the test where they arrive. -/
def takenFrom (test : S → A → Bool) : S → List A → List A
  | _, [] => []
  | g, a :: s => if test g a then a :: takenFrom test (M.step g a) s
    else takenFrom test (M.step g a) s

/-- The inputs of `s`, after `h`, that pass the test where they arrive. -/
def taken (test : S → A → Bool) (h s : List A) : List A := M.takenFrom test (M.after h) s

variable {M} {P : S → Prop} {test : S → A → Bool}

@[simp] theorem after_nil : M.after [] = M.start := rfl

@[simp] theorem after_concat (h : List A) (a : A) : M.after (h ++ [a]) = M.step (M.after h) a := by
  simp [after]

theorem after_append (h s : List A) : M.after (h ++ s) = s.foldl M.step (M.after h) := by
  simp [after]

/-- **The rule of histories.** -/
theorem history {H : List A → Prop} (hnil : H []) (hstep : ∀ h a, H h → H (h ++ [a])) :
    ∀ h, H h := by
  intro h
  induction h using List.reverseRecOn with
  | nil => exact hnil
  | append_singleton h a ih => exact hstep h a ih

@[simp] theorem within_nil (h : List A) : M.Within P h [] := by
  intro pre a post heq
  simp at heq

theorem within_concat {h s : List A} {a : A} :
    M.Within P h (s ++ [a]) ↔ M.Within P h s ∧ P (M.after (h ++ s)) := by
  constructor
  · intro hw
    refine ⟨fun pre b post heq => hw pre b (post ++ [a]) ?_, hw s a [] rfl⟩
    rw [heq, List.append_assoc, List.cons_append]
  · rintro ⟨hw, hlast⟩ pre b post heq
    rcases List.eq_nil_or_concat' post with rfl | ⟨post, c, rfl⟩
    · rw [(List.append_inj' heq rfl).1.symm]
      exact hlast
    · rw [← List.cons_append, ← List.append_assoc] at heq
      exact hw pre b post (List.append_inj' heq rfl).1

@[simp] theorem taken_nil (h : List A) : M.taken test h [] = [] := rfl

theorem takenFrom_concat (s : List A) (a : A) (g : S) :
    M.takenFrom test g (s ++ [a]) =
      M.takenFrom test g s ++ if test (s.foldl M.step g) a then [a] else [] := by
  induction s generalizing g with
  | nil => rfl
  | cons b s ih =>
    cases hb : test g b <;> simp only [List.cons_append, takenFrom, ih, List.foldl_cons, hb] <;> rfl

theorem taken_concat (h s : List A) (a : A) : M.taken test h (s ++ [a]) =
    M.taken test h s ++ if test (M.after (h ++ s)) a then [a] else [] := by
  rw [taken, takenFrom_concat, taken, after_append]

end Reactor

end Runs
