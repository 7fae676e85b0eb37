import Mathlib.Algebra.Order.Monoid.Defs
import Mathlib.Data.List.Perm.Basic
import Mathlib.Tactic.Linarith

/-!
# Looking for the nearest, with a tolerance

A scan goes through a list and keeps one candidate.  The next one takes its place if it is
nearer, or farther by less than a tolerance.  So the scan keeps the nearest one only if what
comes after it is far enough behind, and what it keeps depends on the order of the list.

## Main definitions

* `Scan.scan` — the candidate that is kept in the end.
* `Scan.Spaced` — no candidate is behind the nearest one by less than the tolerance.

## Main results

* `Scan.scan_nearest_iff` — **when the nearest candidate is kept.**
* `Scan.scan_spaced`, `Scan.scan_rotate` — in which lists it is kept in every order.
-/

namespace Runs

namespace Scan

set_option linter.unusedSectionVars false

variable {A K : Type*} [Field K] [LinearOrder K] {d : A → K} {tol : K}

/-- One more candidate. -/
def pick (d : A → K) (tol : K) : Option A → A → Option A
  | none, a => some a
  | some b, a => if d a < d b + tol then some a else some b

/-- The candidate that is kept of a list. -/
def scan (d : A → K) (tol : K) (l : List A) : Option A := l.foldl (pick d tol) none

/-- No candidate is behind the nearest one by less than the tolerance. -/
def Spaced (d : A → K) (tol : K) (l : List A) : Prop :=
  ∀ a ∈ l, (∀ b ∈ l, d a ≤ d b) → ∀ b ∈ l, d b = d a ∨ d a + tol ≤ d b

/-- A nearest candidate of which all that follows is behind by the tolerance. -/
def LastNearest (d : A → K) (tol : K) (l : List A) : Prop :=
  ∃ front a back, l = front ++ a :: back ∧ (∀ b ∈ l, d a ≤ d b) ∧ ∀ b ∈ back, d a + tol ≤ d b

theorem pick_some (b a : A) :
    pick d tol (some b) a = if d a < d b + tol then some a else some b := rfl

/-- The scan keeps a candidate of the list, or the one that it starts with. -/
theorem foldl_pick_mem : ∀ (l : List A) (best : Option A) (a : A),
    l.foldl (pick d tol) best = some a → a ∈ l ∨ best = some a := by
  intro l
  induction l with
  | nil => intro best a h; exact Or.inr h
  | cons c l ih =>
    intro best a h
    rcases ih _ a h with hmem | hbest
    · exact Or.inl (List.mem_cons_of_mem c hmem)
    · cases best with
      | none => exact Or.inl (List.mem_cons.mpr (Or.inl (Option.some.inj hbest).symm))
      | some b =>
        rw [pick_some] at hbest
        split at hbest
        · exact Or.inl (List.mem_cons.mpr (Or.inl (Option.some.inj hbest).symm))
        · exact Or.inr hbest

theorem scan_mem {l : List A} {a : A} (h : scan d tol l = some a) : a ∈ l :=
  (foldl_pick_mem l none a h).resolve_right nofun

theorem foldl_pick_map {B : Type*} (f : B → A) : ∀ (l : List B) (best : Option B),
    (l.map f).foldl (pick d tol) (best.map f) =
      (l.foldl (pick (fun b => d (f b)) tol) best).map f := by
  intro l
  induction l with
  | nil => intro best; rfl
  | cons c l ih =>
    intro best
    rw [List.map_cons, List.foldl_cons, List.foldl_cons, ← ih]
    cases best with
    | none => rfl
    | some b =>
      rw [Option.map_some, pick_some, pick_some]
      split <;> rfl

/-- The scan only looks at the distances. -/
theorem scan_map {B : Type*} (f : B → A) (l : List B) :
    scan d tol (l.map f) = (scan (fun b => d (f b)) tol l).map f :=
  foldl_pick_map f l none

/-- A candidate stays if all that follows is far enough behind it. -/
theorem foldl_pick_of_far {a : A} : ∀ l : List A, (∀ b ∈ l, d a + tol ≤ d b) →
    l.foldl (pick d tol) (some a) = some a := by
  intro l
  induction l with
  | nil => intro _; rfl
  | cons c l ih =>
    intro h
    rw [List.foldl_cons, pick_some, if_neg (not_lt_of_ge (h c List.mem_cons_self))]
    exact ih fun b hb => h b (List.mem_cons_of_mem c hb)

/-- What holds of all candidates holds of the one that is kept. -/
theorem foldl_pick_all {P : A → Prop} {l : List A} {b a : A} (hb : P b) (hl : ∀ c ∈ l, P c)
    (h : l.foldl (pick d tol) (some b) = some a) : P a := by
  rcases foldl_pick_mem l _ a h with hmem | hbest
  · exact hl a hmem
  · obtain rfl := Option.some.inj hbest
    exact hb

/-- A candidate does not stay if one that follows is behind it by less than the tolerance, and
none comes up to it again. -/
theorem foldl_pick_of_close {a b : A} : ∀ l : List A, (∀ c ∈ l, d a < d c) → b ∈ l →
    d b < d a + tol → ∀ c, l.foldl (pick d tol) (some a) = some c → d a < d c := by
  intro l
  induction l with
  | nil => intro _ hb; cases hb
  | cons x l ih =>
    intro hl hb hclose c hc
    have htail : ∀ y ∈ l, d a < d y := fun y hy => hl y (List.mem_cons_of_mem x hy)
    rw [List.foldl_cons, pick_some] at hc
    split at hc
    · exact foldl_pick_all (P := fun y => d a < d y) (hl x List.mem_cons_self) htail hc
    · next hx =>
      rcases List.mem_cons.mp hb with rfl | hb
      · exact absurd hclose hx
      · exact ih htail hb hclose c hc

/-- A candidate between those before it and those behind it is the nearest. -/
theorem le_of_split {front back : List A} {a : A} (hfront : ∀ b ∈ front, d a ≤ d b)
    (hback : ∀ b ∈ back, d a < d b) : ∀ b ∈ front ++ a :: back, d a ≤ d b := by
  intro b hb
  rcases List.mem_append.mp hb with hb | hb
  · exact hfront b hb
  · rcases List.mem_cons.mp hb with rfl | hb
    · exact le_rfl
    · exact (hback b hb).le

/-- Every list that is not empty has a last nearest candidate. -/
theorem exists_last_nearest : ∀ l : List A, l ≠ [] →
    ∃ front a back, l = front ++ a :: back ∧ (∀ b ∈ front, d a ≤ d b) ∧ ∀ b ∈ back, d a < d b := by
  intro l
  induction l with
  | nil => intro h; exact absurd rfl h
  | cons x l ih =>
    intro _
    by_cases hl : l = []
    · exact ⟨[], x, l, rfl, nofun, by rw [hl]; nofun⟩
    · obtain ⟨front, a, back, rfl, hfront, hback⟩ := ih hl
      rcases le_or_gt (d a) (d x) with hax | hxa
      · refine ⟨x :: front, a, back, rfl, ?_, hback⟩
        intro b hb
        rcases List.mem_cons.mp hb with rfl | hb
        · exact hax
        · exact hfront b hb
      · refine ⟨[], x, front ++ a :: back, rfl, nofun, ?_⟩
        intro b hb
        rcases List.mem_append.mp hb with hb | hb
        · exact lt_of_lt_of_le hxa (hfront b hb)
        · rcases List.mem_cons.mp hb with rfl | hb
          · exact hxa
          · exact hxa.trans (hback b hb)

variable [IsStrictOrderedRing K]

/-- The scan comes to a nearest candidate and takes it. -/
theorem scan_split (htol : 0 < tol) {front back : List A} {a : A}
    (hfront : ∀ b ∈ front, d a ≤ d b) :
    scan d tol (front ++ a :: back) = back.foldl (pick d tol) (some a) := by
  have hpick : pick d tol (scan d tol front) a = some a := by
    cases hscan : scan d tol front with
    | none => rfl
    | some b =>
      have hab := hfront b (scan_mem hscan)
      rw [pick_some, if_pos (by linarith)]
  rw [scan] at hpick
  rw [scan, List.foldl_append, List.foldl_cons, hpick]

theorem scan_of_lastNearest (htol : 0 < tol) {l : List A} (h : LastNearest d tol l) :
    ∃ a, scan d tol l = some a ∧ a ∈ l ∧ ∀ b ∈ l, d a ≤ d b := by
  obtain ⟨front, a, back, rfl, hmin, hback⟩ := h
  refine ⟨a, ?_, by simp, hmin⟩
  rw [scan_split htol fun b hb => hmin b (List.mem_append_left _ hb)]
  exact foldl_pick_of_far back hback

/-- **The nearest candidate is kept exactly when** all that follows the last nearest one is
behind it by the tolerance. -/
theorem scan_nearest_iff (htol : 0 < tol) (l : List A) :
    (∀ c ∈ l, ∃ a, scan d tol l = some a ∧ d a ≤ d c) ↔ (l = [] ∨ LastNearest d tol l) := by
  constructor
  · intro h
    by_cases hl : l = []
    · exact Or.inl hl
    right
    obtain ⟨front, a, back, rfl, hfront, hback⟩ := exists_last_nearest (d := d) l hl
    refine ⟨front, a, back, rfl, le_of_split hfront hback, fun b hb => ?_⟩
    by_contra hclose
    obtain ⟨c, hc, hca⟩ := h a (by simp)
    rw [scan_split htol hfront] at hc
    have hlt := foldl_pick_of_close back hback hb (lt_of_not_ge hclose) c hc
    exact absurd hca (not_le_of_gt hlt)
  · rintro (rfl | hlast) c hc
    · cases hc
    · obtain ⟨a, ha, -, hmin⟩ := scan_of_lastNearest htol hlast
      exact ⟨a, ha, hmin c hc⟩

/-- In a spaced list the nearest candidate is kept. -/
theorem Spaced.lastNearest {l : List A} (h : Spaced d tol l) (hl : l ≠ []) :
    LastNearest d tol l := by
  obtain ⟨front, a, back, rfl, hfront, hback⟩ := exists_last_nearest (d := d) l hl
  have hmin : ∀ b ∈ front ++ a :: back, d a ≤ d b := le_of_split hfront hback
  refine ⟨front, a, back, rfl, hmin, fun b hb => ?_⟩
  refine (h a (by simp) hmin b (by simp [hb])).resolve_left fun heq => ?_
  exact absurd (hback b hb) (by rw [heq]; exact lt_irrefl _)

theorem Spaced.perm {l l' : List A} (h : Spaced d tol l) (hp : l'.Perm l) : Spaced d tol l' := by
  intro a ha hmin b hb
  exact h a (hp.mem_iff.mp ha) (fun c hc => hmin c (hp.mem_iff.mpr hc)) b (hp.mem_iff.mp hb)

/-- **In a spaced list the distance that is kept does not depend on the order.** -/
theorem scan_spaced (htol : 0 < tol) {l l' : List A} (h : Spaced d tol l) (hp : l'.Perm l) :
    (scan d tol l').map d = (scan d tol l).map d := by
  by_cases hl : l = []
  · subst hl
    rw [hp.eq_nil]
  have hl' : l' ≠ [] := by
    rintro rfl
    exact hl hp.symm.eq_nil
  obtain ⟨a, ha, hamem, hamin⟩ := scan_of_lastNearest htol (h.lastNearest hl)
  obtain ⟨b, hb, hbmem, hbmin⟩ := scan_of_lastNearest htol ((h.perm hp).lastNearest hl')
  rw [ha, hb]
  exact congrArg some (le_antisymm (hbmin a (hp.mem_iff.mpr hamem))
    (hamin b (hp.mem_iff.mp hbmem)))

/-- A candidate that comes last is kept if it is behind none by the tolerance. -/
theorem scan_rotate {l : List A} {b : A} (hclose : ∀ c ∈ l, d b < d c + tol) :
    scan d tol (l ++ [b]) = some b := by
  rw [scan, List.foldl_append, List.foldl_cons, List.foldl_nil]
  cases hscan : l.foldl (pick d tol) none with
  | none => rfl
  | some c => rw [pick_some, if_pos (hclose c (scan_mem hscan))]

end Scan

end Runs
