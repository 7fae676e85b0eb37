import OperationMinix.Runs.Machine

/-!
# Machines that are made of runs

A step of one machine may be several steps of another, or none: a program that handles what has
come in one turn of its loop, and a machine that takes one event after the other.  When every
step is such a run, so is every run, and what always holds of the machine of the events holds
whenever the loop comes round.

What must not get lost or be doubled on the way is *shown*: both machines show a list of
observations for an input, and the run that a step is made of has to show what the step does.

## Main definitions

* `Machine.Reaches` — a state comes after another.
* `Machine.Refines` — every step is a run that shows the same.

## Main results

* `Machine.Refines.run` — **a run is a run that shows the same.**
* `Machine.Reaches.always` — **what always holds of the one machine holds when a step of the other
  is done.**
-/

namespace Runs

namespace Machine

variable {S I T J A : Type*} {M : Machine S I} {N : Machine T J}

variable (M) in
/-- The state `t` comes after `s`, with some inputs that show `as`. -/
def Reaches (a : I → List A) (s : S) (as : List A) (t : S) : Prop :=
  ∃ is, M.run s is = some t ∧ is.flatMap a = as

variable {a : I → List A} {b : J → List A}

theorem Reaches.refl (s : S) : M.Reaches a s [] s := ⟨[], rfl, rfl⟩

theorem Reaches.step {s t : S} {i : I} (h : M.step s i = some t) : M.Reaches a s (a i) t :=
  ⟨[i], by rw [run, h]; rfl, by simp⟩

theorem Reaches.trans {s t u : S} {as bs : List A} (h : M.Reaches a s as t)
    (h' : M.Reaches a t bs u) : M.Reaches a s (as ++ bs) u := by
  obtain ⟨is, hrun, rfl⟩ := h
  obtain ⟨js, hrun', rfl⟩ := h'
  exact ⟨is ++ js, run_append_eq_some.mpr ⟨t, hrun, hrun'⟩, List.flatMap_append⟩

/-- What always holds holds of what comes after. -/
theorem Reaches.always {P : S → Prop} {s t : S} {as : List A} (h : M.Reaches a s as t)
    (hP : ∀ is, M.Always P s is) : P t := by
  obtain ⟨is, hrun, -⟩ := h
  exact always_run is s t (hP is) hrun

variable (M N) in
/-- Every step of `N` is a run of `M`, as far as `f` sees, that shows what the step shows. -/
structure Refines (f : T → S) (a : I → List A) (b : J → List A) (Inv : T → Prop) : Prop where
  keep : ∀ t j t', Inv t → N.step t j = some t' → Inv t'
  step : ∀ t j t', Inv t → N.step t j = some t' → M.Reaches a (f t) (b j) (f t')

variable {f : T → S} {Inv : T → Prop}

/-- **A run of the one machine is a run of the other that shows the same.** -/
theorem Refines.run (h : Refines M N f a b Inv) : ∀ (js : List J) (t t' : T), Inv t →
    N.run t js = some t' → M.Reaches a (f t) (js.flatMap b) (f t') := by
  intro js
  induction js with
  | nil =>
    intro t t' _ ht
    rw [run_nil, Option.some.injEq] at ht
    rw [ht]
    exact .refl _
  | cons j js ih =>
    intro t t' hinv ht
    obtain ⟨u, hu, ht⟩ := run_cons_eq_some.mp ht
    exact (h.step t j u hinv hu).trans (ih u t' (h.keep t j u hinv hu) ht)

end Machine

end Runs
