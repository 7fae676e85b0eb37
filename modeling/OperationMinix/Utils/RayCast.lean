import OperationMinix.Runs.Crossing
import OperationMinix.Utils.Ray
import Mathlib.Data.Rat.Floor

/-!
# The first wall on a ray

With exact arithmetic, in which the quotient `1 / 0` is infinite, `side_dist` is the
time at which the ray crosses the next grid line on its axis.  The loop follows the
earlier of the two crossings, so the cell it looks at is the one that the ray is in, and
what it hits first is the first wall that the ray meets.

## Main definitions

* `exact` — the operations on `double` without rounding.
* `MeetsWall` — the ray is inside a wall at a given time.
* `OnFace` — the ray enters the cell through the face of the given side.

## Main results

* `RayInv.advance` — what one pass of the loop does.
* `shootRay_first_wall` — **the ray cast finds the first wall.**
-/

namespace OperationMinix

open Runs

set_option linter.unusedSectionVars false

section

variable {K : Type*} [Field K] [LinearOrder K] [FloorRing K]

/-- The quotient, infinite when the divisor is zero. -/
def exactDiv : WithTop K → WithTop K → WithTop K
  | some x, some y => if y = 0 then ⊤ else ↑(x / y)
  | none, _ => ⊤
  | some _, none => ↑(0 : K)

/-- The operations on `double` without rounding, with an infinity.  Neither a
difference with infinity nor its product with zero comes up in the ray cast. -/
def exact : Doubles (WithTop K) where
  add x y := x + y
  sub x y := WithTop.map₂ (· - ·) x y
  mul x y := x * y
  div := exactDiv
  fabs x := x.map fun y => |y|
  lt x y := decide (x < y)
  ofInt n := ((n : K) : WithTop K)
  toCoord
    | some x => BitVec.ofInt 16 (truncate x)
    | none => 0

/-- A vector of numbers that are not infinite. -/
def Vec.lift (v : Vec K) : Vec (WithTop K) := ⟨v.x, v.y⟩

variable (m : GameMap) (pos dir : Vec K)

/-- A wall that is not the cell in which the ray starts. -/
def OtherWall (x y : ℕ) : Prop :=
  Inside m x y ∧ 0 < m.cell x y ∧ ¬ ((x : ℤ) = ⌊pos.x⌋ ∧ (y : ℤ) = ⌊pos.y⌋)

/-- At time `t` the ray is inside a wall, other than the cell in which it starts. -/
def MeetsWall (t : K) : Prop :=
  ∃ x y, OtherWall m pos x y ∧ Amid x (pos.x + t * dir.x) ∧ Amid y (pos.y + t * dir.y)

/-- At time `t` the point that starts at `p` with speed `v` comes into cell `i`. -/
def Enters (p v : K) (i : ℤ) (t : K) : Prop :=
  (0 < v ∧ p + t * v = i) ∨ (v < 0 ∧ p + t * v = i + 1)

/-- At time `t` the ray comes into the cell through the face of the given side. -/
def OnFace (x y side : ℕ) (t : K) : Prop :=
  (side = 0 ∧ Enters pos.x dir.x x t ∧ Within y (pos.y + t * dir.y)) ∨
    (side = 1 ∧ Enters pos.y dir.y y t ∧ Within x (pos.x + t * dir.x))

end

section Exact

variable {K : Type*} [Field K] [LinearOrder K] [IsStrictOrderedRing K] [FloorRing K]

/-! ### The variables in exact arithmetic -/

theorem rayStep_exact (v : K) : rayStep exact (v : WithTop K) = heading v := by
  have hlt : (exact : Doubles (WithTop K)).lt v ((exact : Doubles (WithTop K)).ofInt 0) =
      decide (v < 0) := by
    show decide ((v : WithTop K) < (((0 : ℤ) : K) : WithTop K)) = _
    rw [Int.cast_zero, decide_eq_decide, WithTop.coe_lt_coe]
  unfold rayStep heading
  rw [hlt]
  simp only [decide_eq_true_eq]

theorem deltaDist_exact (v : K) : deltaDist exact (v : WithTop K) = period v := by
  show (exactDiv (((1 : ℤ) : K) : WithTop K) v).map (fun y => |y|) = _
  rw [Int.cast_one]
  show (if v = 0 then (⊤ : WithTop K) else ↑(1 / v)).map (fun y => |y|) = _
  unfold period
  split <;> rfl

theorem toCoord_exact {p : K} (h0 : 0 ≤ p) (h : p < 65536) :
    (((exact : Doubles (WithTop K)).toCoord p).toNat : ℤ) = ⌊p⌋ := by
  show ((BitVec.ofInt 16 (truncate p)).toNat : ℤ) = _
  have hlow : 0 ≤ ⌊p⌋ := Int.floor_nonneg.mpr h0
  have hhigh : ⌊p⌋ < 65536 := Int.floor_lt.mpr (by exact_mod_cast h)
  rw [truncate, if_pos h0, BitVec.toNat_ofInt]
  omega

theorem within_floor (p : K) : Within ⌊p⌋ p := ⟨Int.floor_le p, (Int.lt_floor_add_one p).le⟩

/-- **`side_dist` starts as the first crossing.** -/
theorem firstSideDist_exact {p : K} (h0 : 0 ≤ p) (h : p < 65536) (v : K) :
    firstSideDist exact (p : WithTop K) (v : WithTop K) = crossing p v ⌊p⌋ := by
  have hlt : (exact : Doubles (WithTop K)).lt v ((exact : Doubles (WithTop K)).ofInt 0) =
      decide (v < 0) := by
    show decide ((v : WithTop K) < (((0 : ℤ) : K) : WithTop K)) = _
    rw [Int.cast_zero, decide_eq_decide, WithTop.coe_lt_coe]
  unfold firstSideDist
  dsimp only
  rw [hlt, deltaDist_exact, toCoord_exact h0 h]
  show (if decide (v < 0) = true then ((p - (⌊p⌋ : K) : K) : WithTop K)
    else (((⌊p⌋ + 1 : ℤ) : K) - p : K)) * period v = _
  have hright : 0 < ((⌊p⌋ + 1 : ℤ) : K) - p := by
    push_cast
    linarith [Int.lt_floor_add_one p]
  rcases lt_trichotomy v 0 with hv | rfl | hv
  · rw [if_pos (by simpa using hv), period, if_neg hv.ne, crossing, if_pos hv, ← WithTop.coe_mul,
      WithTop.coe_inj, abs_of_neg (one_div_neg.mpr hv)]
    ring
  · -- along the grid lines, the distance to the right side is positive
    rw [if_neg (by simp), period, if_pos rfl, crossing_zero]
    exact WithTop.mul_top (WithTop.coe_ne_zero.mpr hright.ne')
  · rw [if_neg (by simpa using hv.le), period, if_neg hv.ne', crossing, if_neg hv.le.not_gt,
      if_pos hv, ← WithTop.coe_mul, WithTop.coe_inj, abs_of_pos (one_div_pos.mpr hv)]
    push_cast
    ring

/-! ### One axis -/

/-- On one axis, at time `d`: the coordinate of the cell and `side_dist` are those of
the ray. -/
structure AxisInv (p v : K) (c : BitVec 16) (side : WithTop K) (d : K) : Prop where
  crossing : side = crossing p v c.toNat
  within : Within (c.toNat : ℤ) (p + d * v)

namespace AxisInv

variable {p v d t : K} {c : BitVec 16} {side : WithTop K} {size : ℕ}

theorem start (h0 : 0 ≤ p) (h : p < 65536) (v : K) :
    AxisInv p v ((exact : Doubles (WithTop K)).toCoord p)
      (firstSideDist exact (p : WithTop K) (v : WithTop K)) 0 := by
  constructor
  · rw [firstSideDist_exact h0 h, toCoord_exact h0 h]
  · rw [toCoord_exact h0 h, zero_mul, add_zero]
    exact within_floor p

/-- The other axis is crossed first. -/
theorem wait (h : AxisInv p v c side d) (hd : d ≤ t) (ht : (t : WithTop K) ≤ side) :
    AxisInv p v c side t :=
  ⟨h.crossing, h.within.wait hd (h.crossing ▸ ht)⟩

theorem le_side (h : AxisInv p v c side d) : (d : WithTop K) ≤ side := by
  rw [h.crossing]
  exact h.within.le_crossing

/-- Where the crossing leads. -/
theorem enters (h : AxisInv p v c side d) (ht : side = t) : Enters p v (c.toNat + heading v) t := by
  rcases eq_of_crossing (h.crossing.symm.trans ht) with ⟨hv, hpos⟩ | ⟨hv, hpos⟩
  · refine Or.inr ⟨hv, ?_⟩
    rw [hpos, heading, if_pos hv]
    push_cast
    ring
  · refine Or.inl ⟨hv, ?_⟩
    rw [hpos, heading, if_neg hv.le.not_gt]
    push_cast
    ring

/-- **The crossing** into another cell of the map. -/
theorem step (h : AxisInv p v c side d) (ht : side = t)
    (hcell : ((c + BitVec.ofInt 16 (heading v)).toNat : ℤ) = c.toNat + heading v) :
    AxisInv p v (c + BitVec.ofInt 16 (heading v)) (side + period v) t := by
  constructor
  · rw [hcell, crossing_add_heading, h.crossing]
  · rw [hcell]
    exact within_crossing (h.crossing.symm.trans ht)

/-- **The crossing** out of the map. -/
theorem leave (h : AxisInv p v c side d) (ht : side = t)
    (hout : (heading v = 1 ∧ c.toNat + 1 = size) ∨ (heading v = -1 ∧ c.toNat = 0)) {u : K}
    (hu : t ≤ u) {k : ℕ} (hk : k < size) : ¬ Amid (k : ℤ) (p + u * v) := by
  apply not_amid_of_crossing (h.crossing.symm.trans ht) hu
  rcases hout with ⟨hv, hlast⟩ | ⟨hv, hfirst⟩ <;> rw [hv] <;> omega

end AxisInv

/-! ### The loop -/

/-- The ray is at time `d` in the cell that the loop has come to, which is not a wall it
must stop at, and it has met none before. -/
structure RayInv (m : GameMap) (pos dir : Vec K) (v : RayVars (WithTop K)) (d : K) : Prop where
  inside : Inside m v.mapPos.x.toNat v.mapPos.y.toNat
  x : AxisInv pos.x dir.x v.mapPos.x v.sideDist.x d
  y : AxisInv pos.y dir.y v.mapPos.y v.sideDist.y d
  free : ¬ OtherWall m pos v.mapPos.x.toNat v.mapPos.y.toNat
  clear : ∀ t, 0 ≤ t → t ≤ d → ¬ MeetsWall m pos dir t

/-- What the loop finds when it has gone on to the cell that the ray enters at time `t`. -/
structure Advanced (m : GameMap) (pos dir : Vec K) (w : RayVars (WithTop K)) (t : K) : Prop where
  distance : w.distance = t
  clear : ∀ u, 0 ≤ u → u ≤ t → ¬ MeetsWall m pos dir u
  cell : (Inside m w.mapPos.x.toNat w.mapPos.y.toNat ∧
      AxisInv pos.x dir.x w.mapPos.x w.sideDist.x t ∧
      AxisInv pos.y dir.y w.mapPos.y w.sideDist.y t ∧
      OnFace pos dir w.mapPos.x.toNat w.mapPos.y.toNat w.side t) ∨
    (¬ Inside m w.mapPos.x.toNat w.mapPos.y.toNat ∧ ∀ u, t ≤ u → ¬ MeetsWall m pos dir u)

section Loop

variable {m : GameMap} {pos dir : Vec K} {v : RayVars (WithTop K)} {d t : K}

/-- Until the next crossing the ray stays in its cell, and meets no wall there. -/
theorem RayInv.clear_until (h : RayInv m pos dir v d) (hx : (t : WithTop K) ≤ v.sideDist.x)
    (hy : (t : WithTop K) ≤ v.sideDist.y) : ∀ u, 0 ≤ u → u ≤ t → ¬ MeetsWall m pos dir u := by
  intro u h0 hu
  rcases le_total u d with hd | hd
  · exact h.clear u h0 hd
  · rintro ⟨x, y, hwall, hamidx, hamidy⟩
    have hut : (u : WithTop K) ≤ t := WithTop.coe_le_coe.mpr hu
    have hcellx := (h.x.wait hd (hut.trans hx)).within.eq_of_amid hamidx
    have hcelly := (h.y.wait hd (hut.trans hy)).within.eq_of_amid hamidy
    rw [Nat.cast_inj] at hcellx hcelly
    rw [hcellx, hcelly] at hwall
    exact h.free hwall

/-- **One step of the loop** follows the ray to the next crossing. -/
theorem RayInv.advance (hlines : m.lines ≤ 65535) (hcolumns : m.columns ≤ 65535)
    (hdir : dir.x ≠ 0 ∨ dir.y ≠ 0) (h : RayInv m pos dir v d) :
    ∃ t, d ≤ t ∧ Advanced m pos dir (v.advance exact dir.lift) t := by
  unfold RayVars.advance
  rw [show dir.lift.x = (dir.x : WithTop K) from rfl,
    show dir.lift.y = (dir.y : WithTop K) from rfl, rayStep_exact, rayStep_exact,
    deltaDist_exact, deltaDist_exact]
  by_cases hlt : v.sideDist.x < v.sideDist.y
  · obtain ⟨t, ht⟩ := WithTop.ne_top_iff_exists.mp hlt.ne_top
    have hxt : v.sideDist.x = t := ht.symm
    have hyt : (t : WithTop K) ≤ v.sideDist.y := ht.trans_le hlt.le
    have hd : d ≤ t := WithTop.coe_le_coe.mp (hxt ▸ h.x.le_side)
    rw [if_pos (show (exact : Doubles (WithTop K)).lt v.sideDist.x v.sideDist.y = true from
      decide_eq_true hlt)]
    refine ⟨t, hd, hxt, h.clear_until hxt.ge hyt, ?_⟩
    rcases toNat_add_step hcolumns h.inside.1 (heading_eq dir.x) with ⟨hin, hcell⟩ | ⟨hout, hlast⟩
    · have hwait := h.y.wait hd hyt
      have henters := h.x.enters hxt
      rw [← hcell] at henters
      refine Or.inl ⟨⟨hin, h.inside.2⟩, h.x.step hxt hcell, hwait, ?_⟩
      exact Or.inl ⟨rfl, henters, hwait.within⟩
    · refine Or.inr ⟨fun hin => absurd hin.1 (Nat.not_lt.mpr hout), ?_⟩
      rintro u hu ⟨x, y, ⟨⟨hx, -⟩, -⟩, hamid, -⟩
      exact h.x.leave hxt hlast hu hx hamid
  · -- a ray along the lines of the x axis crosses the others
    have hle : v.sideDist.y ≤ v.sideDist.x := not_lt.mp hlt
    have hfinite : v.sideDist.y ≠ ⊤ := by
      rw [h.y.crossing]
      intro htop
      have hy : dir.y = 0 := by
        by_contra hy
        exact crossing_ne_top hy htop
      have hx : dir.x ≠ 0 := hdir.resolve_right (not_not.mpr hy)
      rw [h.x.crossing, h.y.crossing, htop, top_le_iff] at hle
      exact crossing_ne_top hx hle
    obtain ⟨t, ht⟩ := WithTop.ne_top_iff_exists.mp hfinite
    have hyt : v.sideDist.y = t := ht.symm
    have hxt : (t : WithTop K) ≤ v.sideDist.x := ht.trans_le hle
    have hd : d ≤ t := WithTop.coe_le_coe.mp (hyt ▸ h.y.le_side)
    rw [if_neg (show ¬ (exact : Doubles (WithTop K)).lt v.sideDist.x v.sideDist.y = true from
      fun hcond => hlt (of_decide_eq_true hcond))]
    refine ⟨t, hd, hyt, h.clear_until hxt hyt.ge, ?_⟩
    rcases toNat_add_step hlines h.inside.2 (heading_eq dir.y) with ⟨hin, hcell⟩ | ⟨hout, hlast⟩
    · have hwait := h.x.wait hd hxt
      have henters := h.y.enters hyt
      rw [← hcell] at henters
      refine Or.inl ⟨⟨h.inside.1, hin⟩, hwait, h.y.step hyt hcell, ?_⟩
      exact Or.inr ⟨rfl, henters, hwait.within⟩
    · refine Or.inr ⟨fun hin => absurd hin.2 (Nat.not_lt.mpr hout), ?_⟩
      rintro u hu ⟨x, y, ⟨⟨-, hy⟩, -⟩, -, hamid⟩
      exact h.y.leave hyt hlast hu hy hamid

/-- What the result of the ray cast says about the ray. -/
structure RayPost (m : GameMap) (pos dir : Vec K) (range : K) (w : RayVars (WithTop K)) (t : K) :
    Prop where
  distance : w.distance = t
  nonneg : 0 ≤ t
  wall : w.hit = true → Inside m w.mapPos.x.toNat w.mapPos.y.toNat ∧
    0 < m.cell w.mapPos.x.toNat w.mapPos.y.toNat
  /-- A wall that is hit is the first one, and within the range. -/
  hit : w.hit = true → OnFace pos dir w.mapPos.x.toNat w.mapPos.y.toNat w.side t ∧
    (∀ u, 0 ≤ u → u < t → ¬ MeetsWall m pos dir u) ∧ (0 < range → t ≤ range)
  /-- When none is hit, there is none within the range. -/
  miss : w.hit = false → ∀ u, 0 ≤ u → (0 < range → u ≤ range) → ¬ MeetsWall m pos dir u

/-- **The loop starts** in the cell of the start. -/
theorem rayInv_start (hlines : m.lines ≤ 65535) (hcolumns : m.columns ≤ 65535)
    (hx : 0 ≤ pos.x ∧ pos.x < m.columns) (hy : 0 ≤ pos.y ∧ pos.y < m.lines) :
    RayInv m pos dir (rayStart exact pos.lift dir.lift) 0 := by
  have hsmall : ∀ {p : K} {size : ℕ}, size ≤ 65535 → p < size → p < 65536 := by
    intro p size hsize hp
    have hcast : (size : K) ≤ 65535 := by exact_mod_cast hsize
    linarith
  have hfloor : ∀ {p : K} {size : ℕ}, size ≤ 65535 → 0 ≤ p → p < size →
      ((exact : Doubles (WithTop K)).toCoord p).toNat < size := by
    intro p size hsize h0 hp
    have hcell := toCoord_exact h0 (hsmall hsize hp)
    have hlt : ⌊p⌋ < size := Int.floor_lt.mpr (by exact_mod_cast hp)
    omega
  have hcellx := toCoord_exact hx.1 (hsmall hcolumns hx.2)
  have hcelly := toCoord_exact hy.1 (hsmall hlines hy.2)
  refine ⟨⟨hfloor hcolumns hx.1 hx.2, hfloor hlines hy.1 hy.2⟩,
    .start hx.1 (hsmall hcolumns hx.2) dir.x, .start hy.1 (hsmall hlines hy.2) dir.y,
    fun hwall => hwall.2.2 ⟨hcellx, hcelly⟩, ?_⟩
  rintro t h0 ht ⟨x, y, ⟨-, -, hother⟩, hamidx, hamidy⟩
  have hzero : t = 0 := le_antisymm ht h0
  rw [hzero, zero_mul, add_zero] at hamidx hamidy
  exact hother ⟨(within_floor _).eq_of_amid hamidx, (within_floor _).eq_of_amid hamidy⟩

theorem exact_lt_zero (range : K) :
    ((exact : Doubles (WithTop K)).lt ((exact : Doubles (WithTop K)).ofInt 0) range) = true ↔
      0 < range := by
  show decide ((((0 : ℤ) : K) : WithTop K) < range) = true ↔ _
  rw [Int.cast_zero, decide_eq_true_eq, WithTop.coe_lt_coe]

theorem exact_lt {x y : WithTop K} : (exact : Doubles (WithTop K)).lt x y = true ↔ x < y :=
  decide_eq_true_iff

/-- **A pass that goes on.** -/
theorem RayInv.next (hlines : m.lines ≤ 65535) (hcolumns : m.columns ≤ 65535)
    (hdir : dir.x ≠ 0 ∨ dir.y ≠ 0) {range : K} (h : RayInv m pos dir v d) (hhit : v.hit = false)
    {w : RayVars (WithTop K)} (hbody : rayBody exact m dir.lift range v = .inl w) :
    (w.hit = false ∧ ∃ t, d ≤ t ∧ RayInv m pos dir w t) ∧
      passesLeft exact m dir.lift w < passesLeft exact m dir.lift v := by
  obtain ⟨t, hd, hadvanced⟩ := h.advance hlines hcolumns hdir
  rcases rayBody_cases exact m dir.lift range v with
    ⟨-, hout⟩ | ⟨-, -, -, hfar⟩ | ⟨hin, -, ⟨-, hwall⟩ | ⟨hcell, hgo⟩⟩
  · rw [hout] at hbody; cases hbody
  · rw [hfar] at hbody; cases hbody
  · rw [hwall] at hbody; cases hbody
  · rw [hgo] at hbody
    cases hbody
    refine ⟨⟨(hit_advance exact dir.lift v).trans hhit, t, hd, ?_⟩,
      passesLeft_advance exact hlines hcolumns dir.lift v hin⟩
    rcases hadvanced.cell with ⟨-, hx, hy, -⟩ | ⟨hout, -⟩
    · exact ⟨hin, hx, hy, fun hwall => absurd hwall.2.1 (not_lt.mpr hcell), hadvanced.clear⟩
    · exact absurd hin hout

/-- **A pass that leaves the loop.** -/
theorem RayInv.leave (hlines : m.lines ≤ 65535) (hcolumns : m.columns ≤ 65535)
    (hdir : dir.x ≠ 0 ∨ dir.y ≠ 0) {range : K} (h : RayInv m pos dir v d) (h0 : 0 ≤ d)
    (hhit : v.hit = false) {w : RayVars (WithTop K)}
    (hbody : rayBody exact m dir.lift range v = .inr w) : ∃ t, RayPost m pos dir range w t := by
  obtain ⟨t, hd, hadvanced⟩ := h.advance hlines hcolumns hdir
  have hmiss : (v.advance exact dir.lift).hit = true → False := by
    rw [hit_advance, hhit]
    exact Bool.false_ne_true
  refine ⟨t, ?_⟩
  rcases rayBody_cases exact m dir.lift range v with
    ⟨hout, hleave⟩ | ⟨-, hrange, hfar, hleave⟩ | ⟨hin, hnear, ⟨hcell, hwall⟩ | ⟨-, hgo⟩⟩
  · -- the ray has left the map
    rw [hleave] at hbody
    cases hbody
    refine ⟨hadvanced.distance, h0.trans hd, fun hit => (hmiss hit).elim,
      fun hit => (hmiss hit).elim, fun _ u hu _ => ?_⟩
    rcases hadvanced.cell with ⟨hin, -⟩ | ⟨-, hbeyond⟩
    · exact absurd hin hout
    · rcases le_total u t with hut | hut
      · exact hadvanced.clear u hu hut
      · exact hbeyond u hut
  · -- the ray is beyond the range
    rw [hleave] at hbody
    cases hbody
    refine ⟨hadvanced.distance, h0.trans hd, fun hit => (hmiss hit).elim,
      fun hit => (hmiss hit).elim, fun _ u hu hur => ?_⟩
    rw [exact_lt_zero] at hrange
    rw [exact_lt, hadvanced.distance, WithTop.coe_lt_coe] at hfar
    exact hadvanced.clear u hu ((hur hrange).trans hfar.le)
  · rw [hwall] at hbody
    cases hbody
    rcases hadvanced.cell with ⟨-, -, -, hface⟩ | ⟨hout, -⟩
    · refine ⟨hadvanced.distance, h0.trans hd, fun _ => ⟨hin, hcell⟩,
        fun _ => ⟨hface, ?_, fun hrange => ?_⟩, nofun⟩
      · exact fun u hu hut => hadvanced.clear u hu hut.le
      · by_contra hfar
        apply hnear
        rw [exact_lt_zero, exact_lt, hadvanced.distance, WithTop.coe_lt_coe]
        exact ⟨hrange, not_le.mp hfar⟩
    · exact absurd hin hout
  · rw [hgo] at hbody; cases hbody

/-- The result of the ray cast, from every start inside the map. -/
theorem shootRay_post (hlines : m.lines ≤ 65535) (hcolumns : m.columns ≤ 65535)
    (hx : 0 ≤ pos.x ∧ pos.x < m.columns) (hy : 0 ≤ pos.y ∧ pos.y < m.lines)
    (hdir : dir.x ≠ 0 ∨ dir.y ≠ 0) (range : K) :
    ∃ w, shootRay exact m pos.lift dir.lift range (m.lines + m.columns + 1) = some w ∧
      ∃ t, RayPost m pos dir range w t := by
  refine Loop.run_total (J := fun v => v.hit = false ∧ ∃ d, 0 ≤ d ∧ RayInv m pos dir v d)
    (passesLeft exact m dir.lift) ?_ ?_ _ _ ⟨rfl, 0, le_rfl, rayInv_start hlines hcolumns hx hy⟩
    (Nat.lt_succ_of_le (passesLeft_le exact m dir.lift _))
  · rintro v w ⟨hhit, d, h0, hinv⟩ hbody
    obtain ⟨⟨hhit', d', hd, hinv'⟩, hless⟩ := hinv.next hlines hcolumns hdir hhit hbody
    exact ⟨⟨hhit', d', h0.trans hd, hinv'⟩, hless⟩
  · rintro v w ⟨hhit, d, h0, hinv⟩ hbody
    exact hinv.leave hlines hcolumns hdir h0 hhit hbody

/-- **The ray cast finds the first wall.**  From every start inside the map, in every
direction other than `(0, 0)` and with every range: a hit is the wall that the ray enters
first, through the face of the given side; without one, the ray meets no wall within the
range, or none at all when there is no range. -/
theorem shootRay_first_wall (m : GameMap) (hlines : m.lines ≤ 65535) (hcolumns : m.columns ≤ 65535)
    (pos dir : Vec K) (range : K) (hx : 0 ≤ pos.x ∧ pos.x < m.columns)
    (hy : 0 ≤ pos.y ∧ pos.y < m.lines) (hdir : dir.x ≠ 0 ∨ dir.y ≠ 0) :
    ∃ (w : RayVars (WithTop K)) (t : K),
      shootRay exact m pos.lift dir.lift range (m.lines + m.columns + 1) = some w ∧
      w.distance = t ∧
      (w.hit = true →
        (Inside m w.mapPos.x.toNat w.mapPos.y.toNat ∧
          0 < m.cell w.mapPos.x.toNat w.mapPos.y.toNat) ∧
        OnFace pos dir w.mapPos.x.toNat w.mapPos.y.toNat w.side t ∧
        ∀ u, 0 ≤ u → u < t → ¬ MeetsWall m pos dir u) ∧
      (w.hit = false → ∀ u, 0 ≤ u → (0 < range → u ≤ range) → ¬ MeetsWall m pos dir u) := by
  obtain ⟨w, hw, t, hpost⟩ := shootRay_post hlines hcolumns hx hy hdir range
  refine ⟨w, t, hw, hpost.distance, fun hhit => ?_, hpost.miss⟩
  obtain ⟨hface, hfirst, -⟩ := hpost.hit hhit
  exact ⟨hpost.wall hhit, hface, hfirst⟩

/-- A corridor with a wall at its end, looked along. -/
theorem shootRay_first_wall_corridor :
    let m : GameMap := { matrix := [[0, 0, 1]], lines := 1, columns := 3 }
    let pos : Vec ℚ := ⟨1 / 2, 1 / 2⟩
    let dir : Vec ℚ := ⟨1, 0⟩
    ((m.lines ≤ 65535 ∧ m.columns ≤ 65535) ∧ (0 ≤ pos.x ∧ pos.x < m.columns) ∧
      (0 ≤ pos.y ∧ pos.y < m.lines) ∧ (dir.x ≠ 0 ∨ dir.y ≠ 0)) ∧
    ∃ (w : RayVars (WithTop ℚ)) (t : ℚ),
      shootRay exact m pos.lift dir.lift ((0 : ℚ) : WithTop ℚ) (m.lines + m.columns + 1) = some w ∧
      w.distance = t ∧
      (w.hit = true →
        (Inside m w.mapPos.x.toNat w.mapPos.y.toNat ∧
          0 < m.cell w.mapPos.x.toNat w.mapPos.y.toNat) ∧
        OnFace pos dir w.mapPos.x.toNat w.mapPos.y.toNat w.side t ∧
        ∀ u, 0 ≤ u → u < t → ¬ MeetsWall m pos dir u) ∧
      (w.hit = false → ∀ u, 0 ≤ u → ((0 : ℚ) < 0 → u ≤ 0) → ¬ MeetsWall m pos dir u) :=
  ⟨by decide +kernel,
    shootRay_first_wall _ (by decide) (by decide) _ _ 0 (by decide +kernel) (by decide +kernel)
      (by decide +kernel)⟩

example : (shootRay exact { matrix := [[0, 0, 1]], lines := 1, columns := 3 }
    (Vec.lift ⟨1 / 2, 1 / 2⟩) (Vec.lift ⟨1, 0⟩) ((0 : ℚ) : WithTop ℚ) 5).map
      (fun w => (w.hit, w.side, w.distance)) = some (true, 0, ((3 / 2 : ℚ) : WithTop ℚ)) := by
  decide +kernel

end Loop

end Exact

end OperationMinix
