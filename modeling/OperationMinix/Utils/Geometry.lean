import Mathlib.Algebra.Order.Floor.Ring

/-!
# Vectors, circles and rectangles

The geometry of `utils.c`, in exact arithmetic: a `double` is an element of an
ordered field `K` with a floor, so that a statement can be read over the
rationals, where the definitions run, or over the reals.  The functions of the C
library that leave the field are parameters (`Libm`).
-/

namespace OperationMinix

/-! ### Numerals

The numerals of `K` that more than one module has, so that all of them have the same one. -/

instance atLeastTwo_two : Nat.AtLeastTwo 2 := ⟨by decide⟩

instance atLeastTwo_three : Nat.AtLeastTwo 3 := ⟨by decide⟩

instance atLeastTwo_five : Nat.AtLeastTwo 5 := ⟨by decide⟩

instance atLeastTwo_six : Nat.AtLeastTwo 6 := ⟨by decide⟩

instance atLeastTwo_seven : Nat.AtLeastTwo 7 := ⟨by decide⟩

instance atLeastTwo_eight : Nat.AtLeastTwo 8 := ⟨by decide⟩

instance atLeastTwo_nine : Nat.AtLeastTwo 9 := ⟨by decide⟩

instance atLeastTwo_ten : Nat.AtLeastTwo 10 := ⟨by decide⟩

instance atLeastTwo_eleven : Nat.AtLeastTwo 11 := ⟨by decide⟩

instance atLeastTwo_thirteen : Nat.AtLeastTwo 13 := ⟨by decide⟩

instance atLeastTwo_fifteen : Nat.AtLeastTwo 15 := ⟨by decide⟩

instance atLeastTwo_sixteen : Nat.AtLeastTwo 16 := ⟨by decide⟩

instance atLeastTwo_seventeen : Nat.AtLeastTwo 17 := ⟨by decide⟩

instance atLeastTwo_nineteen : Nat.AtLeastTwo 19 := ⟨by decide⟩

instance atLeastTwo_twenty : Nat.AtLeastTwo 20 := ⟨by decide⟩

instance atLeastTwo_twentyOne : Nat.AtLeastTwo 21 := ⟨by decide⟩

instance atLeastTwo_twentyFour : Nat.AtLeastTwo 24 := ⟨by decide⟩

instance atLeastTwo_twentyEight : Nat.AtLeastTwo 28 := ⟨by decide⟩

instance atLeastTwo_thirtyTwo : Nat.AtLeastTwo 32 := ⟨by decide⟩

instance atLeastTwo_thirtySeven : Nat.AtLeastTwo 37 := ⟨by decide⟩

instance atLeastTwo_forty : Nat.AtLeastTwo 40 := ⟨by decide⟩

instance atLeastTwo_fortyOne : Nat.AtLeastTwo 41 := ⟨by decide⟩

instance atLeastTwo_fiftyFive : Nat.AtLeastTwo 55 := ⟨by decide⟩

instance atLeastTwo_sixtyOne : Nat.AtLeastTwo 61 := ⟨by decide⟩

instance atLeastTwo_sixtyFive : Nat.AtLeastTwo 65 := ⟨by decide⟩

instance atLeastTwo_hundredTwentyEight : Nat.AtLeastTwo 128 := ⟨by decide⟩

instance atLeastTwo_hundredEighty : Nat.AtLeastTwo 180 := ⟨by decide⟩

/-- The functions of `math.h` that are not field operations. -/
structure Libm (K : Type*) where
  sqrt : K → K
  cos : K → K
  sin : K → K
  tan : K → K
  atan2 : K → K → K
  /-- `M_PI`. -/
  pi : K

/-- `vector_t`. -/
structure Vec (K : Type*) where
  x : K
  y : K
  deriving DecidableEq, Repr

/-- `circle_t`. -/
structure Circle (K : Type*) where
  center : Vec K
  radius : K
  deriving DecidableEq, Repr

/-- `rectangle_t`. -/
structure Rectangle (K : Type*) where
  leftCorner : Vec K
  width : ℤ
  height : ℤ
  deriving DecidableEq, Repr

/-- `map_t`: the matrix, line by line. -/
structure GameMap where
  matrix : List (List ℤ)
  lines : ℕ
  columns : ℕ
  deriving DecidableEq, Repr

/-- `matrix[y][x]`; `0`, an empty cell, outside the map. -/
def GameMap.cell (m : GameMap) (x y : ℤ) : ℤ := (m.matrix.getD y.toNat []).getD x.toNat 0

variable {K : Type*} [Field K] [LinearOrder K] [FloorRing K]

/-- The conversion `(int) v`, which rounds towards zero. -/
def truncate (v : K) : ℤ := if 0 ≤ v then ⌊v⌋ else -⌊-v⌋

theorem truncate_of_nonneg {x : K} (h : 0 ≤ x) : truncate x = ⌊x⌋ := if_pos h

/-- `abs_double`. -/
def absDouble (val : K) : K := if val < 0 then val * -1 else val

/-- `prod_int`. -/
def prodInt (v1 v2 : Vec K) : K := v1.x * v2.x + v1.y * v2.y

/-- `determinant`. -/
def determinant (v1 v2 : Vec K) : K := v1.x * v2.y - v1.y * v2.x

/-- `degree`. -/
def degree (l : Libm K) (v1 v2 : Vec K) : K :=
  l.atan2 (determinant v1 v2) (prodInt v1 v2) * 180 / l.pi

/-- `vec_mag_squared`. -/
def vecMagSquared (v : Vec K) : K := v.x ^ 2 + v.y ^ 2

/-- `vec_mag`. -/
def vecMag (l : Libm K) (v : Vec K) : K := l.sqrt (v.x ^ 2 + v.y ^ 2)

/-- `normalize`. -/
def normalize (l : Libm K) (v : Vec K) : Vec K := { x := v.x / vecMag l v, y := v.y / vecMag l v }

/-- `dist_positions_squared`. -/
def distPositionsSquared (v1 v2 : Vec K) : K := (v1.x - v2.x) ^ 2 + (v1.y - v2.y) ^ 2

/-- The coordinate of a rectangle's side from `low` to `low + size` that is
closest to `c`. -/
def closestOn (c low : K) (size : ℤ) : K :=
  if c < low then low else if c > low + size then low + size else c

/-- The point of a rectangle closest to the centre of a circle. -/
def closestPoint (circle : Circle K) (rect : Rectangle K) : Vec K where
  x := closestOn circle.center.x rect.leftCorner.x rect.width
  y := closestOn circle.center.y rect.leftCorner.y rect.height

/-- `check_circle_rect_collision`. -/
def checkCircleRectCollision (circle : Circle K) (rect : Rectangle K) : Bool :=
  distPositionsSquared circle.center (closestPoint circle rect) < circle.radius * circle.radius

/-- `circle_rect_distance`. -/
def circleRectDistance (circle : Circle K) (rect : Rectangle K) : Vec K where
  x := (closestPoint circle rect).x - circle.center.x
  y := (closestPoint circle rect).y - circle.center.y

/-- The cells `start .. end` of one axis around a coordinate, cut to a side of
the given size: the bounds of the loops over the neighbourhood of a point. -/
def neighbourhood (c : K) (size : ℕ) : List ℤ :=
  let first := max (truncate c - 1) 0
  let last := if truncate c + 1 ≥ size then (size : ℤ) - 1 else truncate c + 1
  (List.range (last + 1 - first).toNat).map fun i => first + i

/-- The unit cell with corner `(x, y)`. -/
def unitCell (x y : ℤ) : Rectangle K := { leftCorner := ⟨x, y⟩, width := 1, height := 1 }

end OperationMinix
