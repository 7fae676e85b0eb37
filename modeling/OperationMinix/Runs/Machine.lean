import Mathlib.Data.List.Basic

/-!
# Machines and their runs

A machine says what one input does to a state.  Everything a system does not
control — the order of its steps, the answers of its environment — is an input,
so a run is a list of inputs and a property of every interleaving is a property
of every list.

Some properties hold only on the runs that avoid a particular step.  `Along C`
says that every step of a run meets `C` in the state it is taken from, and the
invariant rules take their steps from such runs.

## Main definitions

* `Machine`, `Machine.run` — one step, and a list of them.
* `Machine.Along C s is` — every step of the run meets `C`.
* `Machine.Always P s is` — every state of the run satisfies `P`.
* `Machine.tally f s is` — the sum of what is counted at the steps.

## Main results

* `Machine.always_of_along`, `Machine.run_invariant` — an invariant kept by every
  step that meets `C` holds in every state of a run along `C`, and at its end.
* `Machine.along_iff` — the steps of a run, each in the state that what comes before leads to.
* `Machine.balance` — what every step balances is balanced by a run.
* `Machine.always_iff_along` — when in addition a step that misses `C` breaks `P`
  at once, the runs that always satisfy `P` are exactly those along `C`.
* `Machine.along_of_always` — what the steps between states of `P` meet.
* `Machine.run_simulation` — a machine follows another one that it can follow step by step.
-/

namespace Runs

/-- A machine: what one input does to a state, or `none` when the input cannot
be taken there. -/
structure Machine (S I : Type*) where
  /-- The state after one input. -/
  step : S → I → Option S

namespace Machine

variable {S I : Type*} (M : Machine S I)

/-- The state after a list of inputs. -/
def run : S → List I → Option S
  | s, [] => some s
  | s, i :: is => (M.step s i).bind fun t => run t is

/-- Every step of the run meets `C` in the state it is taken from. -/
def Along (C : S → I → Prop) : S → List I → Prop
  | _, [] => True
  | s, i :: is => C s i ∧ match M.step s i with
    | some t => Along C t is
    | none => True

/-- Every state of the run, the first and the last included, satisfies `P`. -/
def Always (P : S → Prop) : S → List I → Prop
  | s, [] => P s
  | s, i :: is => P s ∧ match M.step s i with
    | some t => Always P t is
    | none => True

/-- The sum of what is counted at the steps of a run. -/
def tally (f : S → I → ℕ) : S → List I → ℕ
  | _, [] => 0
  | s, i :: is => match M.step s i with
    | some t => f s i + tally f t is
    | none => 0

instance decidableAlong (C : S → I → Prop) [∀ s i, Decidable (C s i)] :
    ∀ s is, Decidable (M.Along C s is)
  | _, [] => isTrue trivial
  | s, i :: is =>
    have : Decidable (match M.step s i with
        | some t => M.Along C t is
        | none => True) :=
      match M.step s i with
      | some t => decidableAlong C t is
      | none => isTrue trivial
    inferInstanceAs (Decidable (_ ∧ _))

instance decidableAlways (P : S → Prop) [DecidablePred P] :
    ∀ s is, Decidable (M.Always P s is)
  | s, [] => inferInstanceAs (Decidable (P s))
  | s, i :: is =>
    have : Decidable (match M.step s i with
        | some t => M.Always P t is
        | none => True) :=
      match M.step s i with
      | some t => decidableAlways P t is
      | none => isTrue trivial
    inferInstanceAs (Decidable (_ ∧ _))

variable {M}

@[simp] theorem run_nil (s : S) : M.run s [] = some s := rfl

theorem run_cons_eq_some {s t : S} {i : I} {is : List I} :
    M.run s (i :: is) = some t ↔ ∃ u, M.step s i = some u ∧ M.run u is = some t := by
  rw [run, Option.bind_eq_some_iff]

theorem run_append_eq_some {s t : S} {is js : List I} :
    M.run s (is ++ js) = some t ↔ ∃ u, M.run s is = some u ∧ M.run u js = some t := by
  induction is generalizing s with
  | nil => simp
  | cons i is ih =>
    rw [List.cons_append, run_cons_eq_some]
    simp only [ih, run_cons_eq_some]
    constructor
    · rintro ⟨v, hv, u, hu, ht⟩
      exact ⟨u, ⟨v, hv, hu⟩, ht⟩
    · rintro ⟨u, ⟨v, hv, hu⟩, ht⟩
      exact ⟨v, hv, u, hu, ht⟩

theorem along_cons {C : S → I → Prop} {s t : S} {i : I} {is : List I}
    (h : M.Along C s (i :: is)) (ht : M.step s i = some t) : C s i ∧ M.Along C t is := by
  rw [Along, ht] at h
  exact h

theorem along_congr {C D : S → I → Prop} (h : ∀ s i, C s i ↔ D s i) (s : S) (is : List I) :
    M.Along C s is ↔ M.Along D s is := by
  have hCD : C = D := funext fun s => funext fun i => propext (h s i)
  rw [hCD]

theorem always_cons {P : S → Prop} {s t : S} {i : I} {is : List I}
    (h : M.Always P s (i :: is)) (ht : M.step s i = some t) : P s ∧ M.Always P t is := by
  rw [Always, ht] at h
  exact h

theorem always_head {P : S → Prop} {s : S} {is : List I} (h : M.Always P s is) : P s := by
  cases is with
  | nil => exact h
  | cons i is => exact h.1

/-- What always holds along a run holds at its end. -/
theorem always_run {P : S → Prop} :
    ∀ (is : List I) (s t : S), M.Always P s is → M.run s is = some t → P t := by
  intro is
  induction is with
  | nil =>
    intro s t hs ht
    rw [run_nil, Option.some.injEq] at ht
    exact ht ▸ hs
  | cons i is ih =>
    intro s t hs ht
    obtain ⟨u, hu, ht⟩ := run_cons_eq_some.mp ht
    rw [Always, hu] at hs
    exact ih u t hs.2 ht

/-- What the steps of a run meet, when every step keeps the invariant. -/
theorem along_of_step {D : S → I → Prop} {J : S → Prop} (hD : ∀ s i, J s → D s i)
    (hstep : ∀ s i t, J s → M.step s i = some t → J t) :
    ∀ (is : List I) (s : S), J s → M.Along D s is := by
  intro is
  induction is with
  | nil => intro s _; trivial
  | cons i is ih =>
    intro s hs
    refine ⟨hD s i hs, ?_⟩
    cases ht : M.step s i with
    | none => trivial
    | some t => exact ih t (hstep s i t hs ht)

/-- What the steps of a run meet is the same for two conditions that agree on the states of the
invariant. -/
theorem along_congr_of_step {C D : S → I → Prop} {J : S → Prop}
    (hCD : ∀ s i, J s → (C s i ↔ D s i))
    (hstep : ∀ s i t, J s → M.step s i = some t → J t) :
    ∀ (is : List I) (s : S), J s → (M.Along C s is ↔ M.Along D s is) := by
  intro is
  induction is with
  | nil => intro s _; exact Iff.rfl
  | cons i is ih =>
    intro s hs
    rw [Along, Along, hCD s i hs]
    cases ht : M.step s i with
    | none => exact Iff.rfl
    | some t => exact and_congr_right fun _ => ih t (hstep s i t hs ht)

theorem along_of_forall {C : S → I → Prop} (hC : ∀ s i, C s i) (is : List I) (s : S) :
    M.Along C s is :=
  along_of_step (J := fun _ => True) (fun s i _ => hC s i) (fun _ _ _ _ _ => trivial) is s trivial

/-- The steps of a run, one by one: what comes before a step leads to the state it is taken
from. -/
theorem along_iff {C : S → I → Prop} : ∀ (is : List I) (s : S), M.Along C s is ↔
    ∀ pre i post t, is = pre ++ i :: post → M.run s pre = some t → C t i := by
  intro is
  induction is with
  | nil =>
    intro s
    refine iff_of_true trivial fun pre i post t h _ => ?_
    simp at h
  | cons j is ih =>
    intro s
    constructor
    · intro hC pre i post t h ht
      cases pre with
      | nil =>
        cases h
        cases ht
        exact hC.1
      | cons k pre =>
        cases h
        obtain ⟨u, hu, ht⟩ := run_cons_eq_some.mp ht
        exact (ih u).mp (along_cons hC hu).2 pre i post t rfl ht
    · intro hC
      refine ⟨hC [] j is s rfl rfl, ?_⟩
      cases hu : M.step s j with
      | none => trivial
      | some u =>
        refine (ih u).mpr fun pre i post t h ht => ?_
        exact hC (j :: pre) i post t (by rw [h]; rfl) (run_cons_eq_some.mpr ⟨u, hu, ht⟩)

/-- **The invariant rule.**  What every step meeting `C` keeps holds in every state
of a run along `C`. -/
theorem always_of_along {C : S → I → Prop} {P J : S → Prop} (hP : ∀ s, J s → P s)
    (hstep : ∀ s i t, J s → C s i → M.step s i = some t → J t) :
    ∀ (is : List I) (s : S), J s → M.Along C s is → M.Always P s is := by
  intro is
  induction is with
  | nil => intro s hs _; exact hP s hs
  | cons i is ih =>
    intro s hs hC
    refine ⟨hP s hs, ?_⟩
    cases ht : M.step s i with
    | none => trivial
    | some t =>
      obtain ⟨hi, hC⟩ := along_cons hC ht
      exact ih t (hstep s i t hs hi ht) hC

/-- The invariant rule at the end of a run. -/
theorem run_invariant {C : S → I → Prop} {J : S → Prop}
    (hstep : ∀ s i t, J s → C s i → M.step s i = some t → J t) (is : List I) (s t : S)
    (hs : J s) (hC : M.Along C s is) (ht : M.run s is = some t) : J t := by
  have halways : M.Always J s is := always_of_along (fun _ hs => hs) hstep is s hs hC
  exact always_run is s t halways ht

/-- **The rule of steps.**  If every step between two states of `P` that meets `C` also
meets `D`, then so do the steps of a run along `C` that stays in `P`. -/
theorem along_of_always {C D : S → I → Prop} {P : S → Prop}
    (hstep : ∀ s i t, P s → P t → C s i → M.step s i = some t → D s i) :
    ∀ (is : List I) (s t : S), M.Always P s is → M.Along C s is → M.run s is = some t →
      M.Along D s is := by
  intro is
  induction is with
  | nil => intro s t _ _ _; trivial
  | cons i is ih =>
    intro s t hP hC ht
    obtain ⟨u, hu, ht⟩ := run_cons_eq_some.mp ht
    obtain ⟨hs, hP⟩ := always_cons hP hu
    obtain ⟨hi, hC⟩ := along_cons hC hu
    rw [Along, hu]
    exact ⟨hstep s i u hs (always_head hP) hi hu, ih u t hP hC ht⟩

/-- **The rule of the ledger.**  If every step balances what is in stock with what goes out and
what comes in, then so does a run. -/
theorem balance {J : S → Prop} {stock : S → ℕ} {out income : S → I → ℕ}
    (hkeep : ∀ s i t, J s → M.step s i = some t → J t)
    (hstep : ∀ s i t, J s → M.step s i = some t → stock t + out s i = stock s + income s i) :
    ∀ (is : List I) (s t : S), J s → M.run s is = some t →
      stock t + M.tally out s is = stock s + M.tally income s is := by
  intro is
  induction is with
  | nil =>
    intro s t _ ht
    rw [run_nil, Option.some.injEq] at ht
    rw [ht]
    rfl
  | cons i is ih =>
    intro s t hs ht
    obtain ⟨u, hu, ht⟩ := run_cons_eq_some.mp ht
    have hrest := ih u t (hkeep s i u hs hu) ht
    have hone := hstep s i u hs hu
    simp only [tally, hu]
    omega

/-- What holds in every state of a run, when every step keeps the invariant. -/
theorem always_of_step {P J : S → Prop} (hP : ∀ s, J s → P s)
    (hstep : ∀ s i t, J s → M.step s i = some t → J t) (is : List I) {s : S} (hs : J s) :
    M.Always P s is :=
  always_of_along (C := fun _ _ => True) hP (fun s i u hs _ hu => hstep s i u hs hu) is s hs
    (along_of_forall (fun _ _ => trivial) is s)

/-- The invariant rule for a machine whose every step keeps the invariant. -/
theorem run_invariant_of_step {J : S → Prop}
    (hstep : ∀ s i t, J s → M.step s i = some t → J t) (is : List I) {s t : S}
    (hs : J s) (ht : M.run s is = some t) : J t := by
  have halways : M.Always J s is := always_of_step (fun _ hs => hs) hstep is hs
  exact always_run is s t halways ht

/-- **The exact runs.**  If the steps meeting `C` keep an invariant that gives
`P`, and a step missing `C` leads to a state without `P`, then the runs all of
whose states satisfy `P` are exactly the runs along `C`. -/
theorem always_iff_along {C : S → I → Prop} {P J : S → Prop}
    (hP : ∀ s, J s → P s)
    (hstep : ∀ s i t, J s → C s i → M.step s i = some t → J t)
    (hbad : ∀ s i, J s → ¬ C s i → ∃ t, M.step s i = some t ∧ ¬ P t) :
    ∀ (is : List I) (s : S), J s → (M.Always P s is ↔ M.Along C s is) := by
  intro is
  induction is with
  | nil => intro s hs; exact ⟨fun _ => trivial, fun _ => hP s hs⟩
  | cons i is ih =>
    intro s hs
    by_cases hC : C s i
    · rw [Always, Along, and_iff_right (hP s hs), and_iff_right hC]
      cases ht : M.step s i with
      | none => exact Iff.rfl
      | some t => exact ih t (hstep s i t hs hC ht)
    · -- the step that misses `C` is the last state of neither kind of run
      obtain ⟨t, ht, hnP⟩ := hbad s i hs hC
      have hnot : ¬ M.Always P t is := by
        intro h
        cases is with
        | nil => exact hnP h
        | cons j is => exact hnP h.1
      constructor
      · intro h
        rw [Always, ht] at h
        exact absurd h.2 hnot
      · intro h
        exact absurd h.1 hC

/-- A machine that can take every input has every run. -/
theorem exists_run (hstep : ∀ s i, ∃ t, M.step s i = some t) :
    ∀ (is : List I) (s : S), ∃ t, M.run s is = some t := by
  intro is
  induction is with
  | nil => intro s; exact ⟨s, rfl⟩
  | cons i is ih =>
    intro s
    obtain ⟨u, hu⟩ := hstep s i
    obtain ⟨t, ht⟩ := ih u
    exact ⟨t, run_cons_eq_some.mpr ⟨u, hu, ht⟩⟩

/-- **The rule of simulation.**  If every step of `N` is matched by a step of `M` between related
states, then so is every run. -/
theorem run_simulation {T : Type*} {N : Machine T I} {R : S → T → Prop}
    (hstep : ∀ s t i t', R s t → N.step t i = some t' → ∃ s', M.step s i = some s' ∧ R s' t') :
    ∀ (is : List I) (s : S) (t t' : T), R s t → N.run t is = some t' →
      ∃ s', M.run s is = some s' ∧ R s' t' := by
  intro is
  induction is with
  | nil =>
    intro s t t' hst ht
    rw [run_nil, Option.some.injEq] at ht
    exact ⟨s, rfl, ht ▸ hst⟩
  | cons i is ih =>
    intro s t t' hst ht
    obtain ⟨u, hu, ht⟩ := run_cons_eq_some.mp ht
    obtain ⟨v, hv, hvu⟩ := hstep s t i u hst hu
    obtain ⟨s', hs', hrel⟩ := ih v u t' hvu ht
    exact ⟨s', run_cons_eq_some.mpr ⟨v, hv, hs'⟩, hrel⟩

end Machine

end Runs
