import Mathlib.Data.List.Chain
import Mathlib.Data.List.Nodup
import Mathlib.Data.List.ProdSigma
import Mathlib.Order.Lattice

/-!
# A cache of one entry

A value is looked up for one item after the other, and the last key is kept with its
value, for the next item that has the same key.  When the value depends on more than the
key, the cache answers with an old value; when it does depends on which items follow each
other.

## Main results

* `cached_eq_map_iff` — the answers of the cache are right exactly when neighbours with
  the same key have the same value.
* `eq_map_iff_writes` — they are right as soon as what is written with them is.
* `isChain_rows_iff` — over a grid whose key depends on the column alone, this is so
  unless all columns share one key and two rows differ there.
-/

namespace Runs

variable {α κ β : Type*}

section

variable [DecidableEq κ] (key : α → κ) (val : α → β)

/-- The answers of the cache, with a key and its value kept from before. -/
def cached : κ → β → List α → List β
  | _, _, [] => []
  | k, b, a :: as =>
    if key a = k then b :: cached k b as else val a :: cached (key a) (val a) as

theorem length_cached :
    ∀ (l : List α) (k : κ) (b : β), (cached key val k b l).length = l.length := by
  intro l
  induction l with
  | nil => intro k b; rfl
  | cons a as ih =>
    intro k b
    rw [cached]
    split <;> simp [ih]

/-- **The answers of the cache are right** exactly when neighbours with the same key have
the same value. -/
theorem cached_eq_map_iff : ∀ (l : List α) (k : κ) (b : β),
    cached key val k b l = l.map val ↔
      (∀ a ∈ l.head?, key a = k → b = val a) ∧
        l.IsChain fun a a' => key a' = key a → val a = val a' := by
  intro l
  induction l with
  | nil => intro k b; simp [cached]
  | cons a as ih =>
    intro k b
    rw [cached, List.map_cons, List.isChain_cons]
    by_cases hkey : key a = k
    · rw [if_pos hkey, List.cons.injEq, ih]
      simp only [List.head?_cons, Option.mem_def, Option.some.injEq, forall_eq', hkey,
        true_imp_iff]
      constructor
      · rintro ⟨rfl, hrest⟩
        exact ⟨rfl, hrest⟩
      · rintro ⟨rfl, hrest⟩
        exact ⟨rfl, hrest⟩
    · rw [if_neg hkey, List.cons.injEq, ih]
      simp [hkey]

end

theorem mem_zip_map {γ : Type*} {val : α → γ} {l : List α} {a : α} {b : γ} :
    (a, b) ∈ l.zip (l.map val) ↔ a ∈ l ∧ val a = b := by
  induction l with
  | nil => simp
  | cons a' l ih =>
    rw [List.map_cons, List.zip_cons_cons, List.mem_cons, List.mem_cons, ih, Prod.mk.injEq]
    grind

/-- When every item has a place of its own, the answers are right as soon as what they put
at the places is. -/
theorem eq_map_iff_writes {π γ : Type*} {pos : α → π} {val : α → Option γ} {l : List α}
    {answers : List (Option γ)} (hpos : (l.map pos).Nodup) (hlen : answers.length = l.length) :
    (∀ q c, (∃ a, (a, some c) ∈ l.zip answers ∧ pos a = q) ↔
        ∃ a ∈ l, pos a = q ∧ val a = some c) ↔ answers = l.map val := by
  have hplace : ∀ a a', a ∈ l → a' ∈ l → pos a = pos a' → a = a' := by
    intro a a' ha ha' heq
    exact List.inj_on_of_nodup_map hpos ha ha' heq
  constructor
  · intro h
    refine List.ext_getElem (by rw [hlen, List.length_map]) fun i hi hi' => ?_
    have hil : i < l.length := hlen ▸ hi
    have hmem : l[i] ∈ l := List.getElem_mem hil
    rw [List.getElem_map]
    refine Option.ext fun c => ?_
    constructor
    · intro hc
      have hzip : (l[i], some c) ∈ l.zip answers :=
        List.mem_iff_getElem.mpr ⟨i, List.length_zip ▸ lt_min hil hi, by rw [List.getElem_zip, hc]⟩
      obtain ⟨a, ha, hpa, hval⟩ := (h (pos l[i]) c).mp ⟨_, hzip, rfl⟩
      rwa [hplace a l[i] ha hmem hpa] at hval
    · intro hc
      obtain ⟨a, ha, hpa⟩ := (h (pos l[i]) c).mpr ⟨_, hmem, rfl, hc⟩
      obtain rfl := hplace a l[i] (List.of_mem_zip ha).1 hmem hpa
      obtain ⟨j, hj, hget⟩ := List.mem_iff_getElem.mp ha
      rw [List.getElem_zip, Prod.mk.injEq] at hget
      obtain rfl := (List.Nodup.of_map pos hpos).getElem_inj_iff.mp hget.1
      exact hget.2
  · rintro rfl q c
    constructor
    · rintro ⟨a, ha, hq⟩
      obtain ⟨ha, hval⟩ := mem_zip_map.mp ha
      exact ⟨a, ha, hq, hval⟩
    · rintro ⟨a, ha, hq, hval⟩
      exact ⟨a, mem_zip_map.mpr ⟨ha, hval⟩, hq⟩

/-! ### Grids -/

variable {ρ γ : Type*}

/-- Within a row all is well, so what matters is the step from the last column of a row
to the first one of the next. -/
theorem isChain_places (key : γ → κ) (val : κ → ρ → β) (rows : List ρ) {cols : List γ}
    {first last : γ} (hfirst : cols.head? = some first) (hlast : cols.getLast? = some last) :
    ((rows ×ˢ cols).IsChain fun p q =>
        key q.2 = key p.2 → val (key p.2) p.1 = val (key q.2) q.1) ↔
      rows.IsChain fun r r' => key first = key last → val (key last) r = val (key first) r' := by
  have hne : [] ∉ rows.map fun r => cols.map (Prod.mk r) := by
    intro hnil
    obtain ⟨r, -, hr⟩ := List.mem_map.mp hnil
    rw [List.map_eq_nil_iff.mp hr] at hfirst
    cases hfirst
  have hwithin : ∀ l ∈ rows.map fun r => cols.map (Prod.mk r),
      l.IsChain fun p q : ρ × γ => key q.2 = key p.2 → val (key p.2) p.1 = val (key q.2) q.1 := by
    intro l hl
    obtain ⟨r, -, rfl⟩ := List.mem_map.mp hl
    rw [List.isChain_map]
    refine (List.pairwise_of_forall ?_).isChain
    intro c d hkey
    rw [hkey]
  show (List.flatMap _ _).IsChain _ ↔ _
  rw [List.flatMap_def, List.isChain_flatten hne, and_iff_right hwithin, List.isChain_map]
  simp only [List.getLast?_map, List.head?_map, hfirst, hlast, Option.map_some, Option.mem_def,
    Option.some.injEq, forall_eq']

variable [LinearOrder κ]

/-- In sorted columns all keys lie between those of the first and the last one. -/
theorem between_ends {key : γ → κ} {cols : List γ} (hcols : cols.Pairwise fun c d => key c ≤ key d)
    {first last : γ} (hfirst : cols.head? = some first) (hlast : cols.getLast? = some last) :
    ∀ c ∈ cols, key first ≤ key c ∧ key c ≤ key last := by
  obtain ⟨rest, rfl⟩ := List.head?_eq_some_iff.mp hfirst
  obtain ⟨front, hfront⟩ := List.getLast?_eq_some_iff.mp hlast
  intro c hc
  constructor
  · rcases List.mem_cons.mp hc with rfl | hc
    · exact le_rfl
    · exact (List.pairwise_cons.mp hcols).1 c hc
  · rw [hfront] at hc hcols
    rcases List.mem_append.mp hc with hc | hc
    · exact (List.pairwise_append.mp hcols).2.2 c hc last (List.mem_singleton_self _)
    · rw [List.mem_singleton.mp hc]

/-- **The cache over a grid.**  Neighbours with the same key have the same value unless
all columns share one key and the value there is not that of all rows. -/
theorem isChain_rows_iff (key : γ → κ) (val : κ → ρ → β) (rows : List ρ) {cols : List γ}
    (hcols : cols.Pairwise fun c d => key c ≤ key d) :
    ((rows ×ˢ cols).IsChain fun p q =>
        key q.2 = key p.2 → val (key p.2) p.1 = val (key q.2) q.1) ↔
      ∀ k, (∃ c ∈ cols, key c = k) → (∀ c ∈ cols, key c = k) →
        ∀ r ∈ rows, ∀ r' ∈ rows, val k r = val k r' := by
  cases hcase : cols with
  | nil => simp
  | cons first rest =>
    obtain ⟨last, hlast⟩ : ∃ last, cols.getLast? = some last :=
      ⟨_, List.getLast?_eq_some_getLast (by rw [hcase]; exact List.cons_ne_nil _ _)⟩
    have hfirst : cols.head? = some first := by rw [hcase, List.head?_cons]
    have hfirstmem : first ∈ cols := List.mem_of_head? hfirst
    have hlastmem : last ∈ cols := List.mem_of_getLast? hlast
    rw [← hcase, isChain_places key val rows hfirst hlast]
    constructor
    · rintro hchain k - hall r hr r' hr'
      have hsame : (rows.map (val k)).IsChain (· = ·) := by
        rw [List.isChain_map]
        refine hchain.imp fun r r' h => ?_
        have heq := h ((hall first hfirstmem).trans (hall last hlastmem).symm)
        rwa [hall first hfirstmem, hall last hlastmem] at heq
      exact (List.isChain_iff_pairwise.mp hsame).forall_of_forall (fun _ _ => rfl)
        (List.mem_map_of_mem hr) (List.mem_map_of_mem hr')
    · intro h
      rw [List.isChain_iff_getElem]
      intro i hi hkey
      have hall : ∀ c ∈ cols, key c = key first := by
        intro c hc
        obtain ⟨hlow, hhigh⟩ := between_ends hcols hfirst hlast c hc
        exact le_antisymm (hhigh.trans_eq hkey.symm) hlow
      rw [← hkey]
      exact h (key first) ⟨first, hfirstmem, rfl⟩ hall _ (List.getElem_mem _) _ (List.getElem_mem _)

end Runs
