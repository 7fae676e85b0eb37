import Mathlib.Data.Nat.Notation
import Mathlib.Tactic.Linarith

/-!
# Pictures stored row by row

A picture of width `w` is a list in which the place `(x, y)` has the index `x + y * w`.
What a drawing function does is said by the set of the places that it paints and by the
colour that each of them gets: the places that are not in the set keep theirs.

## Main definitions

* `Raster.Painted` — a picture is another one with a set of places painted.

## Main results

* `Raster.Painted.union` — painting one set and then another is painting both.
* `Raster.painted_set` — a write at an index paints a single place.
-/

namespace Runs

namespace Raster

variable {α : Type*} {w h : ℕ} {S T : ℕ → ℕ → Prop} {col : ℕ → ℕ → α} {p q r : List α}

/-- The index of a place determines it. -/
theorem index_inj {x y x' y' : ℕ} (hx : x < w) (hx' : x' < w) (heq : x + y * w = x' + y' * w) :
    x = x' ∧ y = y' := by
  have hmod : (x + y * w) % w = (x' + y' * w) % w := by rw [heq]
  rw [Nat.add_mul_mod_self_right, Nat.add_mul_mod_self_right, Nat.mod_eq_of_lt hx,
    Nat.mod_eq_of_lt hx'] at hmod
  subst hmod
  have hmul : y * w = y' * w := by omega
  exact ⟨rfl, Nat.eq_of_mul_eq_mul_right (by omega) hmul⟩

theorem index_lt {x y : ℕ} (hx : x < w) (hy : y < h) : x + y * w < w * h := by
  have hrow : (y + 1) * w ≤ h * w := Nat.mul_le_mul_right w hy
  linarith

/-- `q` is the picture `p`, of size `w` and `h`, with the places of `S` painted. -/
structure Painted (w h : ℕ) (S : ℕ → ℕ → Prop) (col : ℕ → ℕ → α) (p q : List α) : Prop where
  length : q.length = p.length
  inside : ∀ x < w, ∀ y < h, S x y → q[x + y * w]? = some (col x y)
  outside : ∀ x < w, ∀ y < h, ¬ S x y → q[x + y * w]? = p[x + y * w]?

namespace Painted

theorem refl (col : ℕ → ℕ → α) (p : List α) : Painted w h (fun _ _ => False) col p p :=
  ⟨rfl, fun _ _ _ _ hS => hS.elim, fun _ _ _ _ _ => rfl⟩

/-- Only the places of the picture count. -/
theorem congr (hp : Painted w h S col p q) (hST : ∀ x < w, ∀ y < h, (S x y ↔ T x y)) :
    Painted w h T col p q where
  length := hp.length
  inside x hx y hy hT := hp.inside x hx y hy ((hST x hx y hy).mpr hT)
  outside x hx y hy hT := hp.outside x hx y hy fun hS => hT ((hST x hx y hy).mp hS)

/-- Only the colours of the painted places count. -/
theorem recolour {col' : ℕ → ℕ → α} (hp : Painted w h S col p q)
    (hcol : ∀ x < w, ∀ y < h, S x y → col x y = col' x y) : Painted w h S col' p q where
  length := hp.length
  inside x hx y hy hS := by rw [← hcol x hx y hy hS]; exact hp.inside x hx y hy hS
  outside := hp.outside

/-- **Painting one set and then another is painting both.** -/
theorem union (hp : Painted w h S col p q) (hq : Painted w h T col q r) :
    Painted w h (fun x y => S x y ∨ T x y) col p r where
  length := hq.length.trans hp.length
  inside x hx y hy hST := by
    by_cases hT : T x y
    · exact hq.inside x hx y hy hT
    · rw [hq.outside x hx y hy hT]
      exact hp.inside x hx y hy (hST.resolve_right hT)
  outside x hx y hy hST := by
    rw [not_or] at hST
    rw [hq.outside x hx y hy hST.2, hp.outside x hx y hy hST.1]

end Painted

/-- A write at the index of a place paints this place. -/
theorem painted_set (col : ℕ → ℕ → α) {x y : ℕ} (hx : x < w) (hy : y < h)
    (hlen : p.length = w * h) :
    Painted w h (fun x' y' => x' = x ∧ y' = y) col p (p.set (x + y * w) (col x y)) where
  length := List.length_set
  inside x' _ y' _ hS := by
    obtain ⟨rfl, rfl⟩ := hS
    rw [List.getElem?_set_self (hlen ▸ index_lt hx hy)]
  outside x' hx' y' _ hS := by
    refine List.getElem?_set_ne fun heq => hS ?_
    obtain ⟨h1, h2⟩ := index_inj hx hx' heq
    exact ⟨h1.symm, h2.symm⟩

/-- The picture decides which set was painted, as long as every picture is painted so and
there are two colours. -/
theorem painted_unique [Nontrivial α] {f : List α → Option (List α)}
    (hS : ∀ p : List α, p.length = w * h → ∃ q, f p = some q ∧ Painted w h S col p q)
    (hT : ∀ p : List α, p.length = w * h → ∃ q, f p = some q ∧ Painted w h T col p q) :
    ∀ x < w, ∀ y < h, S x y → T x y := by
  intro x hx y hy hSxy
  by_contra hTxy
  obtain ⟨c, hc⟩ := exists_ne (col x y)
  obtain ⟨q, hq, hqS⟩ := hS (List.replicate (w * h) c) List.length_replicate
  obtain ⟨q', hq', hqT⟩ := hT (List.replicate (w * h) c) List.length_replicate
  obtain rfl : q = q' := Option.some.inj (hq.symm.trans hq')
  have hcol := hqS.inside x hx y hy hSxy
  rw [hqT.outside x hx y hy hTxy, List.getElem?_replicate, if_pos (index_lt hx hy)] at hcol
  exact hc (Option.some.inj hcol)

end Raster

end Runs
