import OperationMinix.Runs.Loop
import OperationMinix.Utils.Geometry

/-!
# The ray cast

`shoot_ray` of `utils.c` walks from cell to cell along a ray until it meets a wall,
leaves the map or goes beyond the range.  Which of the two neighbouring cells comes
next is decided by a comparison of two `double`s; the coordinates are unsigned and wrap
around on the low side of the map.

Here the operations on `double` are a parameter, with whatever results they have, NaN
and infinity included: that the loop ends and reads inside the matrix does not rest on
them.

## Main definitions

* `Doubles` — the operations on `double`.
* `rayStart`, `rayBody` — `shoot_ray`, its variables and the body of its loop.

## Main results

* `shootRay_ends` — **the loop ends within `lines + columns + 1` passes, and reads the
  matrix only inside.**
-/

namespace OperationMinix

open Runs

/-- The operations on `double` that the ray cast uses. -/
structure Doubles (F : Type*) where
  add : F → F → F
  sub : F → F → F
  mul : F → F → F
  div : F → F → F
  fabs : F → F
  lt : F → F → Bool
  ofInt : ℤ → F
  /-- The conversion to `int` and from there to `uint16_t`. -/
  toCoord : F → BitVec 16

/-- The variables of the loop. -/
structure RayVars (F : Type*) where
  mapPos : Vec (BitVec 16)
  sideDist : Vec F
  hit : Bool
  side : ℕ
  distance : F
  /-- The cells of the matrix that have been read. -/
  reads : List (ℕ × ℕ)

section

variable {F : Type*} (a : Doubles F)

/-- `delta_dist`, on one axis. -/
def deltaDist (dir : F) : F := a.fabs (a.div (a.ofInt 1) dir)

/-- `step`, on one axis. -/
def rayStep (dir : F) : ℤ := if a.lt dir (a.ofInt 0) then -1 else 1

/-- The first value of `side_dist`, on one axis. -/
def firstSideDist (pos dir : F) : F :=
  let mapPos : ℤ := (a.toCoord pos).toNat
  a.mul (if a.lt dir (a.ofInt 0) then a.sub pos (a.ofInt mapPos)
    else a.sub (a.ofInt (mapPos + 1)) pos) (deltaDist a dir)

/-- The variables before the loop; `side` is assigned before it is read. -/
def rayStart (pos dir : Vec F) : RayVars F where
  mapPos := ⟨a.toCoord pos.x, a.toCoord pos.y⟩
  sideDist := ⟨firstSideDist a pos.x dir.x, firstSideDist a pos.y dir.y⟩
  hit := false
  side := 0
  distance := a.ofInt 0
  reads := []

/-- The part of the loop that goes on to the next cell. -/
def RayVars.advance (dir : Vec F) (v : RayVars F) : RayVars F :=
  if a.lt v.sideDist.x v.sideDist.y then
    { v with
      mapPos := ⟨v.mapPos.x + BitVec.ofInt 16 (rayStep a dir.x), v.mapPos.y⟩
      distance := v.sideDist.x
      sideDist := ⟨a.add v.sideDist.x (deltaDist a dir.x), v.sideDist.y⟩
      side := 0 }
  else
    { v with
      mapPos := ⟨v.mapPos.x, v.mapPos.y + BitVec.ofInt 16 (rayStep a dir.y)⟩
      distance := v.sideDist.y
      sideDist := ⟨v.sideDist.x, a.add v.sideDist.y (deltaDist a dir.y)⟩
      side := 1 }

/-- The body of the loop of `shoot_ray`. -/
def rayBody (m : GameMap) (dir : Vec F) (range : F) (v : RayVars F) : RayVars F ⊕ RayVars F :=
  let v := v.advance a dir
  let x := v.mapPos.x.toNat
  let y := v.mapPos.y.toNat
  if y ≥ m.lines ∨ x ≥ m.columns then .inr v
  else if a.lt (a.ofInt 0) range ∧ a.lt range v.distance then .inr v
  else
    let v := { v with reads := v.reads ++ [(x, y)] }
    if m.cell x y > 0 then .inr { v with hit := true } else .inl v

/-- `shoot_ray`, with a bound on the passes of its loop. -/
def shootRay (m : GameMap) (pos dir : Vec F) (range : F) (passes : ℕ) : Option (RayVars F) :=
  Loop.run (rayBody a m dir range) passes (rayStart a pos dir)

/-! ### Coordinates -/

/-- The coordinates of a cell of the map. -/
def Inside (m : GameMap) (x y : ℕ) : Prop := x < m.columns ∧ y < m.lines

instance (m : GameMap) (x y : ℕ) : Decidable (Inside m x y) := inferInstanceAs (Decidable (_ ∧ _))

theorem rayStep_eq (dir : F) : rayStep a dir = 1 ∨ rayStep a dir = -1 := by
  unfold rayStep
  split
  · exact Or.inr rfl
  · exact Or.inl rfl

/-- **A step of one coordinate** from inside: the coordinate is inside again, or it has
left on the side of the step, to `65535` on the low side. -/
theorem toNat_add_step {c : BitVec 16} {size : ℕ} (hsize : size ≤ 65535) (hc : c.toNat < size)
    {s : ℤ} (hs : s = 1 ∨ s = -1) :
    ((c + BitVec.ofInt 16 s).toNat < size ∧ ((c + BitVec.ofInt 16 s).toNat : ℤ) = c.toNat + s) ∨
      (size ≤ (c + BitVec.ofInt 16 s).toNat ∧
        ((s = 1 ∧ c.toNat + 1 = size) ∨ (s = -1 ∧ c.toNat = 0))) := by
  rcases hs with rfl | rfl
  · have hstep : (c + BitVec.ofInt 16 1).toNat = (c.toNat + 1) % 65536 := by
      rw [BitVec.toNat_add]
      rfl
    rw [hstep]
    omega
  · have hstep : (c + BitVec.ofInt 16 (-1)).toNat = (c.toNat + 65535) % 65536 := by
      rw [BitVec.toNat_add]
      rfl
    rw [hstep]
    omega

/-- The steps that a coordinate can make before it is outside. -/
def stepsLeft (s : ℤ) (size c : ℕ) : ℕ := if s = 1 then size - c else c + 1

theorem stepsLeft_pos {s : ℤ} {size c : ℕ} (hc : c < size) :
    0 < stepsLeft s size c ∧ stepsLeft s size c ≤ size := by
  unfold stepsLeft
  split <;> omega

theorem stepsLeft_step {c : BitVec 16} {size : ℕ} (hsize : size ≤ 65535) (hc : c.toNat < size)
    {s : ℤ} (hs : s = 1 ∨ s = -1) (hin : (c + BitVec.ofInt 16 s).toNat < size) :
    stepsLeft s size (c + BitVec.ofInt 16 s).toNat + 1 = stepsLeft s size c.toNat := by
  rcases toNat_add_step hsize hc hs with ⟨-, hstep⟩ | ⟨hout, -⟩
  · unfold stepsLeft
    rcases hs with rfl | rfl
    · rw [if_pos rfl, if_pos rfl]
      omega
    · rw [if_neg (by decide), if_neg (by decide)]
      omega
  · omega

/-! ### The loop ends -/

/-- The passes that are left: the steps of the two coordinates that lead to other cells
of the map, or more than any cell has left. -/
def passesLeft (m : GameMap) (dir : Vec F) (v : RayVars F) : ℕ :=
  if Inside m v.mapPos.x.toNat v.mapPos.y.toNat then
    stepsLeft (rayStep a dir.x) m.columns v.mapPos.x.toNat +
      stepsLeft (rayStep a dir.y) m.lines v.mapPos.y.toNat - 1
  else m.lines + m.columns

theorem passesLeft_le (m : GameMap) (dir : Vec F) (v : RayVars F) :
    passesLeft a m dir v ≤ m.lines + m.columns := by
  unfold passesLeft
  split
  · next hin =>
    have hx := (stepsLeft_pos (s := rayStep a dir.x) hin.1).2
    have hy := (stepsLeft_pos (s := rayStep a dir.y) hin.2).2
    omega
  · exact le_rfl

/-- Going on to another cell of the map takes one of the passes that are left. -/
theorem passesLeft_advance {m : GameMap} (hlines : m.lines ≤ 65535) (hcolumns : m.columns ≤ 65535)
    (dir : Vec F) (v : RayVars F)
    (hin : Inside m (v.advance a dir).mapPos.x.toNat (v.advance a dir).mapPos.y.toNat) :
    passesLeft a m dir (v.advance a dir) < passesLeft a m dir v := by
  have hx := stepsLeft_pos (s := rayStep a dir.x) hin.1
  have hy := stepsLeft_pos (s := rayStep a dir.y) hin.2
  by_cases hv : Inside m v.mapPos.x.toNat v.mapPos.y.toNat
  · rw [passesLeft, passesLeft, if_pos hin, if_pos hv]
    unfold RayVars.advance at hin hx hy ⊢
    split at hin
    · next hlt =>
      rw [if_pos hlt] at hx hy ⊢
      have hstep := stepsLeft_step hcolumns hv.1 (rayStep_eq a dir.x) hin.1
      dsimp only at hstep hx hy ⊢
      omega
    · next hge =>
      rw [if_neg hge] at hx hy ⊢
      have hstep := stepsLeft_step hlines hv.2 (rayStep_eq a dir.y) hin.2
      dsimp only at hstep hx hy ⊢
      omega
  · rw [passesLeft, passesLeft, if_pos hin, if_neg hv]
    omega

/-- **One pass.**  The loop is left, or it goes on from another cell of the map. -/
theorem rayBody_cases (m : GameMap) (dir : Vec F) (range : F) (v : RayVars F) :
    let w := v.advance a dir
    (¬ Inside m w.mapPos.x.toNat w.mapPos.y.toNat ∧ rayBody a m dir range v = .inr w) ∨
      (Inside m w.mapPos.x.toNat w.mapPos.y.toNat ∧
        a.lt (a.ofInt 0) range ∧ a.lt range w.distance ∧ rayBody a m dir range v = .inr w) ∨
      (Inside m w.mapPos.x.toNat w.mapPos.y.toNat ∧
        ¬ (a.lt (a.ofInt 0) range ∧ a.lt range w.distance) ∧
        let r := { w with reads := w.reads ++ [(w.mapPos.x.toNat, w.mapPos.y.toNat)] }
        (m.cell w.mapPos.x.toNat w.mapPos.y.toNat > 0 ∧
            rayBody a m dir range v = .inr { r with hit := true }) ∨
          (m.cell w.mapPos.x.toNat w.mapPos.y.toNat ≤ 0 ∧ rayBody a m dir range v = .inl r)) := by
  intro w
  unfold rayBody Inside
  by_cases hout : w.mapPos.y.toNat ≥ m.lines ∨ w.mapPos.x.toNat ≥ m.columns
  · exact Or.inl ⟨by omega, if_pos hout⟩
  · have hin : w.mapPos.x.toNat < m.columns ∧ w.mapPos.y.toNat < m.lines := by omega
    refine Or.inr ?_
    by_cases hfar : a.lt (a.ofInt 0) range ∧ a.lt range w.distance
    · refine Or.inl ⟨hin, hfar.1, hfar.2, ?_⟩
      dsimp only
      rw [if_neg hout, if_pos hfar]
    · refine Or.inr ⟨hin, hfar, ?_⟩
      dsimp only
      by_cases hwall : m.cell w.mapPos.x.toNat w.mapPos.y.toNat > 0
      · refine Or.inl ⟨hwall, ?_⟩
        rw [if_neg hout, if_neg hfar, if_pos hwall]
      · refine Or.inr ⟨not_lt.mp hwall, ?_⟩
        rw [if_neg hout, if_neg hfar, if_neg hwall]

/-- The reads of the matrix so far are inside. -/
def ReadsInside (m : GameMap) (v : RayVars F) : Prop := ∀ c ∈ v.reads, Inside m c.1 c.2

theorem ReadsInside.append {m : GameMap} {v : RayVars F} (h : ReadsInside m v) {x y : ℕ}
    (hin : Inside m x y) {w : RayVars F} (hw : w.reads = v.reads ++ [(x, y)]) :
    ReadsInside m w := by
  intro c hc
  rw [hw, List.mem_append, List.mem_singleton] at hc
  rcases hc with hc | rfl
  · exact h c hc
  · exact hin

theorem reads_advance (dir : Vec F) (v : RayVars F) : (v.advance a dir).reads = v.reads := by
  unfold RayVars.advance
  split <;> rfl

theorem hit_advance (dir : Vec F) (v : RayVars F) : (v.advance a dir).hit = v.hit := by
  unfold RayVars.advance
  split <;> rfl

/-- What the result of the ray cast promises whatever the operations on `double` do. -/
structure RaySafe (m : GameMap) (v : RayVars F) : Prop where
  reads : ReadsInside m v
  wall : v.hit = true → Inside m v.mapPos.x.toNat v.mapPos.y.toNat ∧
    0 < m.cell v.mapPos.x.toNat v.mapPos.y.toNat

/-- **The ray cast ends and stays inside the matrix.**  For every map, start, direction
and range, and whatever the operations on `double` do, the loop is left within
`lines + columns + 1` passes; it has read the matrix only inside, and a hit is a wall
inside the map. -/
theorem shootRay_ends (m : GameMap) (hlines : m.lines ≤ 65535) (hcolumns : m.columns ≤ 65535)
    (pos dir : Vec F) (range : F) :
    ∃ v, shootRay a m pos dir range (m.lines + m.columns + 1) = some v ∧ RaySafe m v := by
  refine Loop.run_total (J := fun v => ReadsInside m v ∧ v.hit = false) (passesLeft a m dir)
    ?_ ?_ _ _ ⟨nofun, rfl⟩ (Nat.lt_succ_of_le (passesLeft_le a m dir _))
  · rintro v w ⟨hreads, hhit⟩ hbody
    have hreads' : ReadsInside m (v.advance a dir) := by
      unfold ReadsInside
      rw [reads_advance]
      exact hreads
    rcases rayBody_cases a m dir range v with
      ⟨-, hout⟩ | ⟨-, -, -, hfar⟩ | ⟨hin, -, ⟨-, hwall⟩ | ⟨-, hgo⟩⟩
    · rw [hout] at hbody; cases hbody
    · rw [hfar] at hbody; cases hbody
    · rw [hwall] at hbody; cases hbody
    · rw [hgo] at hbody
      cases hbody
      refine ⟨⟨hreads'.append hin rfl, (hit_advance a dir v).trans hhit⟩, ?_⟩
      exact passesLeft_advance a hlines hcolumns dir v hin
  · rintro v w ⟨hreads, hhit⟩ hbody
    have hreads' : ReadsInside m (v.advance a dir) := by
      unfold ReadsInside
      rw [reads_advance]
      exact hreads
    have hmiss : (v.advance a dir).hit = true → False := by
      rw [hit_advance, hhit]
      exact Bool.false_ne_true
    rcases rayBody_cases a m dir range v with
      ⟨-, hout⟩ | ⟨-, -, -, hfar⟩ | ⟨hin, -, ⟨hcell, hwall⟩ | ⟨-, hgo⟩⟩
    · rw [hout] at hbody
      cases hbody
      exact ⟨hreads', fun h => (hmiss h).elim⟩
    · rw [hfar] at hbody
      cases hbody
      exact ⟨hreads', fun h => (hmiss h).elim⟩
    · rw [hwall] at hbody
      cases hbody
      exact ⟨hreads'.append hin rfl, fun _ => ⟨hin, hcell⟩⟩
    · rw [hgo] at hbody; cases hbody

/-- Every comparison is false and every coordinate is `65535`, as far out as they get. -/
theorem shootRay_ends_nan :
    let a : Doubles Unit :=
      { add := fun _ _ => (), sub := fun _ _ => (), mul := fun _ _ => (), div := fun _ _ => ()
        fabs := id, lt := fun _ _ => false, ofInt := fun _ => (), toCoord := fun _ => 65535 }
    let m : GameMap := { matrix := [[1, 1]], lines := 1, columns := 2 }
    (m.lines ≤ 65535 ∧ m.columns ≤ 65535) ∧
      ∃ v, shootRay a m ⟨(), ()⟩ ⟨(), ()⟩ () (m.lines + m.columns + 1) = some v ∧ RaySafe m v :=
  ⟨by decide, shootRay_ends _ _ (by decide) (by decide) _ _ _⟩

end

end OperationMinix
