import Mathlib.Data.List.Sort
import Mathlib.Order.Defs.LinearOrder

/-!
# Sorting by insertion, the largest first

A value is inserted in front of the first one that is strictly smaller.  A list built so is
sorted, and values that are equal keep the order in which they came.

## Main definitions

* `Insertion.insert`, `Insertion.sort` — one value, and a list of them.

## Main results

* `Insertion.sort_sorted`, `Insertion.sort_perm`, `Insertion.sort_stable` — **the sorted list
  has the same values, in falling order, and equal ones in the order of the list.**
-/

namespace Runs

namespace Insertion

variable {A K : Type*} [LinearOrder K] {d : A → K}

/-- A value in front of the first one that is smaller. -/
def insert (d : A → K) (a : A) (l : List A) : List A := l.orderedInsert (fun a b => d b < d a) a

/-- The values of a list, inserted one by one. -/
def sort (d : A → K) (vs : List A) : List A := vs.foldl (fun l a => insert d a l) []

/-- In falling order. -/
def Falling (d : A → K) (l : List A) : Prop := l.Pairwise fun a b => d b ≤ d a

theorem insert_cons (a b : A) (l : List A) :
    insert d a (b :: l) = if d b < d a then a :: b :: l else b :: insert d a l := rfl

theorem insert_perm (a : A) (l : List A) : (insert d a l).Perm (a :: l) :=
  List.perm_orderedInsert _ a l

theorem length_insert (a : A) (l : List A) : (insert d a l).length = l.length + 1 :=
  (insert_perm a l).length_eq

theorem Falling.insert (a : A) : ∀ {l : List A}, Falling d l → Falling d (insert d a l) := by
  intro l
  induction l with
  | nil => intro _; exact List.pairwise_singleton _ a
  | cons b l ih =>
    intro h
    obtain ⟨hb, hl⟩ := List.pairwise_cons.mp h
    rw [insert_cons]
    split
    · next hlt =>
      refine List.pairwise_cons.mpr ⟨fun c hc => ?_, h⟩
      rcases List.mem_cons.mp hc with rfl | hc
      · exact hlt.le
      · exact (hb c hc).trans hlt.le
    · next hge =>
      refine List.pairwise_cons.mpr ⟨fun c hc => ?_, ih hl⟩
      rcases List.mem_cons.mp ((insert_perm a l).mem_iff.mp hc) with rfl | hc
      · exact not_lt.mp hge
      · exact hb c hc

/-- Among equal values, the new one is the last. -/
theorem filter_insert (a : A) (k : K) : ∀ {l : List A}, Falling d l →
    (insert d a l).filter (fun b => d b = k) =
      l.filter (fun b => d b = k) ++ [a].filter fun b => d b = k := by
  intro l
  induction l with
  | nil => intro _; rfl
  | cons b l ih =>
    intro h
    obtain ⟨hb, hl⟩ := List.pairwise_cons.mp h
    rw [insert_cons]
    split
    · next hlt =>
      by_cases hk : d a = k
      · -- everything behind the new value is smaller
        have hnone : (b :: l).filter (fun b => d b = k) = [] := by
          rw [List.filter_eq_nil_iff]
          intro c hc
          have hca : d c < d a := by
            rcases List.mem_cons.mp hc with rfl | hc
            · exact hlt
            · exact (hb c hc).trans_lt hlt
          simpa [← hk] using hca.ne
        rw [List.filter_cons, hnone]
        simp [hk]
      · rw [List.filter_cons]
        simp [hk]
    · by_cases hk : d b = k
      · rw [List.filter_cons_of_pos (by simpa using hk),
          List.filter_cons_of_pos (by simpa using hk), ih hl, List.cons_append]
      · rw [List.filter_cons_of_neg (by simpa using hk),
          List.filter_cons_of_neg (by simpa using hk), ih hl]

theorem foldl_insert (vs : List A) : ∀ l : List A, Falling d l →
    Falling d (vs.foldl (fun l a => insert d a l) l) ∧
      (vs.foldl (fun l a => insert d a l) l).Perm (l ++ vs) ∧
      ∀ k, (vs.foldl (fun l a => insert d a l) l).filter (fun b => d b = k) =
        (l ++ vs).filter fun b => d b = k := by
  induction vs with
  | nil => intro l h; simpa using h
  | cons a vs ih =>
    intro l h
    obtain ⟨hsorted, hperm, hstable⟩ := ih (insert d a l) (h.insert a)
    refine ⟨hsorted, ?_, fun k => ?_⟩
    · have hfront : (insert d a l ++ vs).Perm (a :: l ++ vs) := (insert_perm a l).append_right vs
      exact (hperm.trans hfront).trans List.perm_middle.symm
    · rw [List.foldl_cons, hstable, List.filter_append, filter_insert a k h,
        List.append_assoc, ← List.filter_append, ← List.filter_append]
      rfl

theorem sort_sorted (vs : List A) : Falling d (sort d vs) := (foldl_insert vs [] .nil).1

theorem sort_perm (vs : List A) : (sort d vs).Perm vs := (foldl_insert vs [] .nil).2.1

theorem sort_stable (vs : List A) (k : K) :
    (sort d vs).filter (fun b => d b = k) = vs.filter fun b => d b = k :=
  (foldl_insert vs [] .nil).2.2 k

theorem sort_append_singleton (vs : List A) (a : A) :
    sort d (vs ++ [a]) = insert d a (sort d vs) := by
  rw [sort, List.foldl_append]
  rfl

theorem length_sort (vs : List A) : (sort d vs).length = vs.length := (sort_perm vs).length_eq

end Insertion

end Runs
