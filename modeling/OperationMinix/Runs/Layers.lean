import Mathlib.Data.List.Induction
import OperationMinix.Runs.Insertion

/-!
# Painting from far to near

Layers at a depth are painted over each other.  A layer gives a colour to the places that it
covers and none to the others, and a place shows the layer that was painted last there.  When
the layers are sorted, the deepest first, that is the one with the least depth of those that
cover the place; of several, the one that came last.  This is what a buffer of depths would
keep that takes the layers in the order in which they came.

## Main definitions

* `Layers.painted` — what a place shows after all layers have been painted.
* `Layers.Nearest` — the layer that a place is to show.

## Main results

* `Layers.painted_sort_iff` — **painting the sorted layers shows the nearest one.**
-/

namespace Runs

namespace Layers

variable {A P C K : Type*} [LinearOrder K] {d : A → K} {paint : A → P → Option C}

/-- What a place shows after the layers have been painted one after the other. -/
def painted (paint : A → P → Option C) (l : List A) (p : P) : Option C :=
  l.foldl (fun seen a => (paint a p).or seen) none

/-- The colour is that of the layer with the least depth of all that cover the place, and of the
last one of those. -/
def Nearest (d : A → K) (paint : A → P → Option C) (vs : List A) (p : P) (c : C) : Prop :=
  ∃ us a ws, vs = us ++ a :: ws ∧ paint a p = some c ∧
    (∀ b ∈ us, (paint b p).isSome → d a ≤ d b) ∧ ∀ b ∈ ws, (paint b p).isSome → d a < d b

theorem foldl_or (l : List A) (p : P) : ∀ seen : Option C,
    l.foldl (fun seen a => (paint a p).or seen) seen = (painted paint l p).or seen := by
  unfold painted
  induction l with
  | nil => intro seen; rfl
  | cons a l ih =>
    intro seen
    rw [List.foldl_cons, List.foldl_cons, ih, ih (Option.or _ none), Option.or_none,
      Option.or_assoc]

theorem painted_cons (a : A) (l : List A) (p : P) :
    painted paint (a :: l) p = (painted paint l p).or (paint a p) := by
  rw [painted, List.foldl_cons, foldl_or, Option.or_none]

/-- A place that no layer covers shows none. -/
theorem painted_eq_none_iff (l : List A) (p : P) :
    painted paint l p = none ↔ ∀ a ∈ l, paint a p = none := by
  induction l with
  | nil => simp [painted]
  | cons a l ih =>
    rw [painted_cons, Option.or_eq_none_iff, ih, List.forall_mem_cons]
    exact and_comm

variable (paint) in
/-- One more layer shows where it covers a place and none that is nearer does. -/
theorem painted_insert (a : A) (p : P) : ∀ {l : List A}, Insertion.Falling d l →
    ((∃ b ∈ l, (paint b p).isSome ∧ d b < d a) ∨ paint a p = none →
      painted paint (Insertion.insert d a l) p = painted paint l p) ∧
    ((∀ b ∈ l, (paint b p).isSome → d a ≤ d b) → ∀ c, paint a p = some c →
      painted paint (Insertion.insert d a l) p = some c) := by
  intro l
  induction l with
  | nil =>
    intro _
    refine ⟨?_, fun _ c hc => ?_⟩
    · rintro (⟨b, hb, -⟩ | hnone)
      · cases hb
      · show (paint a p).or none = none
        rw [hnone]
        rfl
    · show (paint a p).or none = some c
      rw [hc]
      rfl
  | cons b l ih =>
    intro h
    obtain ⟨hb, hl⟩ := List.pairwise_cons.mp h
    obtain ⟨hold, hnew⟩ := ih hl
    rw [Insertion.insert_cons]
    split
    · next hlt =>
      -- the new layer is painted first of all these
      rw [painted_cons]
      refine ⟨?_, fun hnearest c hc => ?_⟩
      · rintro (⟨b', hb', hcover, -⟩ | hnone)
        · have hsome : painted paint (b :: l) p ≠ none := by
            rw [Ne, painted_eq_none_iff]
            intro hall
            rw [hall b' hb'] at hcover
            cases hcover
          obtain ⟨c, hc⟩ := Option.ne_none_iff_exists'.mp hsome
          rw [hc]
          rfl
        · rw [hnone, Option.or_none]
      · have hnone : painted paint (b :: l) p = none := by
          rw [painted_eq_none_iff]
          intro b' hb'
          by_contra hcover
          have hle : d b' ≤ d b := by
            rcases List.mem_cons.mp hb' with rfl | hb'
            · exact le_rfl
            · exact hb b' hb'
          have hge := hnearest b' hb' (Option.ne_none_iff_isSome.mp hcover)
          exact absurd hlt (not_lt.mpr (hge.trans hle))
        rw [hnone, hc]
        rfl
    · next hge =>
      rw [painted_cons, painted_cons]
      refine ⟨?_, fun hnearest c hc => ?_⟩
      · rintro (⟨b', hb', hcover, hlt⟩ | hnone)
        · rcases List.mem_cons.mp hb' with rfl | hb'
          · exact absurd hlt hge
          · rw [hold (Or.inl ⟨b', hb', hcover, hlt⟩)]
        · rw [hold (Or.inr hnone)]
      · rw [hnew (fun b' hb' => hnearest b' (List.mem_cons_of_mem b hb')) c hc]
        rfl

/-- A place in a list to which a value has been added at the end. -/
theorem append_singleton_split {vs us ws : List A} {a a' : A} (h : vs ++ [a] = us ++ a' :: ws) :
    (vs = us ∧ a = a' ∧ ws = []) ∨ ∃ ws', vs = us ++ a' :: ws' ∧ ws = ws' ++ [a] := by
  rcases List.eq_nil_or_concat ws with rfl | ⟨ws', b, rfl⟩
  · obtain ⟨hfront, hlast⟩ := List.append_inj' h rfl
    exact Or.inl ⟨hfront, List.singleton_inj.mp hlast, rfl⟩
  · rw [List.concat_eq_append, ← List.cons_append, ← List.append_assoc] at h
    obtain ⟨hfront, hlast⟩ := List.append_inj' h rfl
    refine Or.inr ⟨ws', hfront, ?_⟩
    rw [List.singleton_inj.mp hlast, List.concat_eq_append]

/-- **Painting the sorted layers shows the nearest one.** -/
theorem painted_sort_iff (vs : List A) (p : P) (c : C) :
    painted paint (Insertion.sort d vs) p = some c ↔ Nearest d paint vs p c := by
  induction vs using List.reverseRecOn generalizing c with
  | nil =>
    constructor
    · nofun
    · rintro ⟨us, a, ws, heq, -⟩
      exact absurd heq (by simp)
  | append_singleton vs a ih =>
    rw [Insertion.sort_append_singleton]
    obtain ⟨hold, hnew⟩ := painted_insert paint a p (Insertion.sort_sorted (d := d) vs)
    have hmem : ∀ b, b ∈ Insertion.sort d vs ↔ b ∈ vs := fun b => (Insertion.sort_perm vs).mem_iff
    by_cases hhidden : (∃ b ∈ vs, (paint b p).isSome ∧ d b < d a) ∨ paint a p = none
    · -- the new layer is hidden there, or does not cover the place
      rw [hold (by simpa only [hmem] using hhidden), ih]
      constructor
      · rintro ⟨us, a', ws, rfl, hc, hus, hws⟩
        refine ⟨us, a', ws ++ [a], by simp, hc, hus, fun b hb hcover => ?_⟩
        rcases List.mem_append.mp hb with hb | hb
        · exact hws b hb hcover
        · obtain rfl := List.mem_singleton.mp hb
          rcases hhidden with ⟨b', hb', hcover', hlt⟩ | hnone
          · refine lt_of_le_of_lt ?_ hlt
            rcases List.mem_append.mp hb' with hb' | hb'
            · exact hus b' hb' hcover'
            · rcases List.mem_cons.mp hb' with rfl | hb'
              · exact le_rfl
              · exact (hws b' hb' hcover').le
          · rw [hnone] at hcover
            cases hcover
      · rintro ⟨us, a', ws, heq, hc, hus, hws⟩
        rcases append_singleton_split heq with ⟨rfl, rfl, rfl⟩ | ⟨ws, rfl, rfl⟩
        · -- the new layer is not the one that shows
          rcases hhidden with ⟨b', hb', hcover', hlt⟩ | hnone
          · exact absurd hlt (not_lt.mpr (hus b' hb' hcover'))
          · simp [hnone] at hc
        · exact ⟨us, a', ws, rfl, hc, hus, fun b' hb' => hws b' (List.mem_append_left _ hb')⟩
    · -- it covers the place, and no other is before it
      rw [not_or, not_exists] at hhidden
      obtain ⟨hnearest, hcover⟩ := hhidden
      have hnearest' : ∀ b ∈ vs, (paint b p).isSome → d a ≤ d b := fun b hb hb' =>
        not_lt.mp fun hlt => hnearest b ⟨hb, hb', hlt⟩
      obtain ⟨c', hc'⟩ := Option.ne_none_iff_exists'.mp hcover
      rw [hnew (by simpa only [hmem] using hnearest') c' hc']
      constructor
      · rintro h
        obtain rfl := Option.some.inj h
        exact ⟨vs, a, [], rfl, hc', hnearest', nofun⟩
      · rintro ⟨us, a', ws, heq, hc, hus, hws⟩
        rcases append_singleton_split heq with ⟨rfl, rfl, rfl⟩ | ⟨ws, rfl, rfl⟩
        · exact hc'.symm.trans hc
        · have hlt := hws a (by simp) (by rw [hc']; rfl)
          exact absurd hlt (not_lt.mpr (hnearest' a' (by simp) (by rw [hc]; rfl)))

end Layers

end Runs
