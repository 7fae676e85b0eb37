import OperationMinix.Utils.Geometry
import Mathlib.Algebra.Field.Basic
import Mathlib.Data.Nat.Cast.Field
import Mathlib.Data.Nat.Sqrt
import Mathlib.Data.Rat.Floor

/-!
# Numbers to run the program with

A run that is to be evaluated needs numbers to evaluate it with.  Rational numbers are
exact, but the functions of `math.h` have no rational values; here they are cut to
multiples of `2 ^ -20`.

It is the field operations and the comparisons that the evaluation of a run waits for.
They are given other definitions, with few steps on natural numbers, that are proved to
be the operations of the rational numbers.

## Main definitions

* `quickField`, `quickOrder`, `quickFloor` — the ordered field of the rational numbers.
* `cutSqrt`, `cutLibm` — the functions of `math.h`, to a few digits.

## Main results

* `plus_eq`, `times_eq`, `below_iff` — the operations are those of the rational numbers.
* `cutSqrt_mem` — the square root loses nothing but the digits beyond `2 ^ -20`.
-/

namespace OperationMinix

/-! ### The field -/

/-- `n / d` in lowest terms. -/
def ratio (n d : ℕ) (h : d ≠ 0) : ℚ where
  num := Int.ofNat (n / n.gcd d)
  den := d / n.gcd d
  den_nz := (Nat.div_gcd_pos_of_pos_right n (Nat.pos_of_ne_zero h)).ne'
  reduced := Nat.coprime_div_gcd_div_gcd (Nat.gcd_pos_of_pos_right n (Nat.pos_of_ne_zero h))

theorem ratio_eq (n d : ℕ) (h : d ≠ 0) : ratio n d h = n / d := by
  have hgcd : ((n.gcd d : ℕ) : ℚ) ≠ 0 :=
    Nat.cast_ne_zero.mpr (Nat.gcd_pos_of_pos_right n (Nat.pos_of_ne_zero h)).ne'
  rw [← Rat.num_div_den (ratio n d h)]
  show (((n / n.gcd d : ℕ) : ℤ) : ℚ) / ((d / n.gcd d : ℕ) : ℚ) = n / d
  rw [Int.cast_natCast, Nat.cast_div (Nat.gcd_dvd_left n d) hgcd,
    Nat.cast_div (Nat.gcd_dvd_right n d) hgcd, div_div_div_cancel_right₀ hgcd]

/-- `(p - q) / d` in lowest terms. -/
def difference (p q d : ℕ) (h : d ≠ 0) : ℚ :=
  match Nat.ble q p with
  | true => ratio (p - q) d h
  | false => -ratio (q - p) d h

theorem difference_eq (p q d : ℕ) (h : d ≠ 0) : difference p q d h = (p - q) / d := by
  unfold difference
  split
  · next hle => rw [ratio_eq, Nat.cast_sub (Nat.le_of_ble_eq_true hle)]
  · next hle =>
    have hlt : p ≤ q := (Nat.lt_of_not_le fun h => by simp [Nat.ble_eq.mpr h] at hle).le
    rw [ratio_eq, Nat.cast_sub hlt, ← neg_div, neg_sub]

theorem den_mul_den_ne_zero (a b : ℚ) : a.den * b.den ≠ 0 := Nat.mul_ne_zero a.den_nz b.den_nz

/-- `a + b`. -/
def plus (a b : ℚ) : ℚ :=
  match a.num, b.num with
  | .ofNat n, .ofNat m =>
    ratio (n * b.den + m * a.den) (a.den * b.den) (den_mul_den_ne_zero a b)
  | .ofNat n, .negSucc m =>
    difference (n * b.den) ((m + 1) * a.den) (a.den * b.den) (den_mul_den_ne_zero a b)
  | .negSucc n, .ofNat m =>
    difference (m * a.den) ((n + 1) * b.den) (a.den * b.den) (den_mul_den_ne_zero a b)
  | .negSucc n, .negSucc m =>
    -ratio ((n + 1) * b.den + (m + 1) * a.den) (a.den * b.den) (den_mul_den_ne_zero a b)

/-- `a * b`. -/
def times (a b : ℚ) : ℚ :=
  match a.num, b.num with
  | .ofNat n, .ofNat m => ratio (n * m) (a.den * b.den) (den_mul_den_ne_zero a b)
  | .ofNat n, .negSucc m => -ratio (n * (m + 1)) (a.den * b.den) (den_mul_den_ne_zero a b)
  | .negSucc n, .ofNat m => -ratio ((n + 1) * m) (a.den * b.den) (den_mul_den_ne_zero a b)
  | .negSucc n, .negSucc m =>
    ratio ((n + 1) * (m + 1)) (a.den * b.den) (den_mul_den_ne_zero a b)

/-- **The sum is the sum.** -/
theorem plus_eq (a b : ℚ) : plus a b = a + b := by
  have ha : (a.den : ℚ) ≠ 0 := Nat.cast_ne_zero.mpr a.den_nz
  have hb : (b.den : ℚ) ≠ 0 := Nat.cast_ne_zero.mpr b.den_nz
  have hsum : a + b = (a.num * b.den + a.den * b.num) / (a.den * b.den) := by
    rw [← div_add_div _ _ ha hb, Rat.num_div_den, Rat.num_div_den]
  rw [hsum, plus]
  split <;> rename_i n m hn hm <;> rw [hn, hm] <;>
    simp only [ratio_eq, difference_eq, Int.ofNat_eq_natCast, Int.cast_natCast,
      Int.cast_negSucc] <;> push_cast <;> ring

/-- **The product is the product.** -/
theorem times_eq (a b : ℚ) : times a b = a * b := by
  have hproduct : a * b = (a.num * b.num) / (a.den * b.den) := by
    rw [← div_mul_div_comm, Rat.num_div_den, Rat.num_div_den]
  rw [hproduct, times]
  split <;> rename_i n m hn hm <;> rw [hn, hm] <;>
    simp only [ratio_eq, Int.ofNat_eq_natCast, Int.cast_natCast, Int.cast_negSucc] <;>
    push_cast <;> ring

theorem plus_neg_eq (a b : ℚ) : plus a (Rat.neg b) = a - b :=
  (plus_eq a (-b)).trans (sub_eq_add_neg a b).symm

theorem times_inv_eq (a b : ℚ) : times a (Rat.inv b) = a / b :=
  (times_eq a b⁻¹).trans (div_eq_mul_inv a b).symm

/-- **The field of the rational numbers**, with quick operations. -/
@[reducible] def quickField : Field ℚ :=
  let field := Rat.instField
  @Function.Injective.field ℚ ℚ ⟨field.zero⟩ ⟨plus⟩ ⟨Rat.neg⟩ ⟨fun a b => plus a (Rat.neg b)⟩
    ⟨field.one⟩ ⟨times⟩ ⟨Rat.inv⟩ ⟨fun a b => times a (Rat.inv b)⟩ ⟨field.nsmul⟩ ⟨field.zsmul⟩
    ⟨field.nnqsmul⟩ ⟨field.qsmul⟩ ⟨fun a n => field.npow n a⟩ ⟨fun a n => field.zpow n a⟩
    ⟨field.natCast⟩ ⟨field.intCast⟩ ⟨field.nnratCast⟩ ⟨field.ratCast⟩ id Function.injective_id
    field rfl rfl plus_eq times_eq (fun _ => rfl) plus_neg_eq (fun _ => rfl) times_inv_eq
    (fun _ _ => rfl) (fun _ _ => rfl) (fun _ _ => rfl) (fun _ _ => rfl) (fun _ _ => rfl)
    (fun _ _ => rfl) (fun _ => rfl) (fun _ => rfl) (fun _ => rfl) fun _ => rfl

/-! ### The order -/

/-- `a < b`, on the numerators and denominators. -/
def below (a b : ℚ) : Bool :=
  match a.num, b.num with
  | .ofNat n, .ofNat m => !Nat.ble (m * a.den) (n * b.den)
  | .negSucc _, .ofNat _ => true
  | .ofNat _, .negSucc _ => false
  | .negSucc n, .negSucc m => !Nat.ble ((n + 1) * b.den) ((m + 1) * a.den)

theorem below_iff (a b : ℚ) : below a b = true ↔ a < b := by
  have ha : (0 : ℤ) < a.den := by exact_mod_cast a.den_pos
  have hb : (0 : ℤ) < b.den := by exact_mod_cast b.den_pos
  rw [Rat.lt_iff, below]
  split <;> rename_i n m hn hm <;> rw [hn, hm]
  · rw [Bool.not_eq_true', ← Bool.not_eq_true, Nat.ble_eq, not_le, Int.ofNat_eq_natCast,
      Int.ofNat_eq_natCast]
    exact_mod_cast Iff.rfl
  · have hneg : Int.negSucc n * (b.den : ℤ) < 0 :=
      mul_neg_of_neg_of_pos (Int.negSucc_lt_zero n) hb
    exact iff_of_true rfl (hneg.trans_le (mul_nonneg (Int.natCast_nonneg m) ha.le))
  · have hneg : Int.negSucc m * (a.den : ℤ) < 0 :=
      mul_neg_of_neg_of_pos (Int.negSucc_lt_zero m) ha
    refine iff_of_false Bool.false_ne_true (not_lt.mpr (hneg.le.trans ?_))
    exact mul_nonneg (Int.natCast_nonneg n) hb.le
  · rw [Bool.not_eq_true', ← Bool.not_eq_true, Nat.ble_eq, not_le, Int.negSucc_eq,
      Int.negSucc_eq, neg_mul, neg_mul, neg_lt_neg_iff]
    exact_mod_cast Iff.rfl

theorem below_eq_false_iff (a b : ℚ) : below b a = false ↔ a ≤ b := by
  rw [← not_lt, ← below_iff, Bool.not_eq_true]

/-- `a < b`, decided by `below`. -/
def decideLt (a b : ℚ) : Decidable (a < b) :=
  decidable_of_iff (below a b = true) (below_iff a b)

/-- `a ≤ b`, decided by `below`. -/
def decideLe (a b : ℚ) : Decidable (a ≤ b) :=
  decidable_of_iff (below b a = false) (below_eq_false_iff a b)

/-- **The order of the rational numbers**, with quick decisions. -/
@[reducible] def quickOrder : LinearOrder ℚ where
  le_refl := le_refl
  le_trans _ _ _ := le_trans
  le_antisymm _ _ := le_antisymm
  le_total := le_total
  lt_iff_le_not_ge _ _ := lt_iff_le_not_ge
  min a b := @ite _ (a ≤ b) (decideLe a b) a b
  max a b := @ite _ (a ≤ b) (decideLe a b) b a
  toDecidableLE := decideLe
  toDecidableLT := decideLt

/-- The floor, for this field and this order. -/
@[reducible] def quickFloor : @FloorRing ℚ quickField.toRing quickOrder :=
  let floor : @FloorRing ℚ _ Rat.linearOrder := inferInstance
  @FloorRing.mk ℚ quickField.toRing quickOrder floor.floor floor.ceil floor.gc_coe_floor
    floor.gc_ceil_coe

/-! ### The functions of `math.h` -/

/-- Newton's iteration for the square root of `n`. -/
def newton (n : ℕ) : ℕ → ℕ → ℕ
  | 0, guess => guess
  | k + 1, guess =>
    let next := (guess + n / guess) / 2
    if next < guess then newton n k next else guess

/-- The square root, cut to an integer.  The iteration has no proof; what it finds is tested. -/
def quickSqrt (n : ℕ) : ℕ :=
  let root := newton n 60 (2 ^ (n.log2 / 2 + 1))
  if root * root ≤ n ∧ n < (root + 1) * (root + 1) then root else n.sqrt

theorem quickSqrt_eq (n : ℕ) : quickSqrt n = n.sqrt := by
  unfold quickSqrt
  dsimp only
  split
  · next hroot => exact Nat.eq_sqrt.mpr hroot
  · rfl

/-- The square root, cut to multiples of `2 ^ -20`. -/
def cutSqrt (x : ℚ) : ℚ := (quickSqrt (x.num * 1099511627776 / x.den).toNat : ℚ) / 2 ^ 20

/-- **The square root is the largest multiple of `2 ^ -20`** that is not above it. -/
theorem cutSqrt_mem {x : ℚ} (hx : 0 ≤ x) :
    cutSqrt x ^ 2 ≤ x ∧ x < (cutSqrt x + 1 / 2 ^ 20) ^ 2 := by
  have hscaled : x * 2 ^ 40 = ((x.num * 1099511627776 : ℤ) : ℚ) / x.den := by
    rw [Int.cast_mul, mul_div_right_comm, Rat.num_div_den]
    norm_num
  have hdigits : x.num * 1099511627776 / x.den = ⌊x * 2 ^ 40⌋ := by
    rw [hscaled, Rat.floor_intCast_div_natCast]
  have hfloor : ((⌊x * 2 ^ 40⌋.toNat : ℤ) : ℚ) = ⌊x * 2 ^ 40⌋ := by
    rw [Int.toNat_of_nonneg (Int.floor_nonneg.mpr (by positivity))]
  have hle := Int.floor_le (x * 2 ^ 40)
  have hlt := Int.lt_floor_add_one (x * 2 ^ 40)
  rw [← hfloor] at hle hlt
  rw [cutSqrt, hdigits, quickSqrt_eq]
  generalize ⌊x * 2 ^ 40⌋.toNat = n at hle hlt ⊢
  have hsqrt : ((Nat.sqrt n : ℚ)) ^ 2 ≤ n := by exact_mod_cast Nat.sqrt_le' n
  have hnext : (n : ℚ) + 1 ≤ ((Nat.sqrt n : ℚ) + 1) ^ 2 := by
    exact_mod_cast Nat.lt_succ_sqrt' n
  push_cast at hle hlt
  constructor
  · rw [div_pow, div_le_iff₀ (by positivity)]
    linarith
  · rw [← add_div, div_pow, lt_div_iff₀ (by positivity)]
    linarith

/-- A number in units of `2 ^ -32`, cut to an integer. -/
def toFixed (x : ℚ) : ℤ := x.num * 4294967296 / x.den

/-- The number of so many units, cut to multiples of `2 ^ -20`. -/
def ofFixed (n : ℤ) : ℚ := ((n / 4096 : ℤ) : ℚ) / 2 ^ 20

/-- The product of two numbers in units of `2 ^ -32`. -/
def mulFixed (a b : ℤ) : ℤ := a * b / 4294967296

/-- A polynomial, by its coefficients from the constant one on. -/
def polynomial (x : ℤ) : List ℤ → ℤ
  | [] => 0
  | c :: cs => c + mulFixed x (polynomial x cs)

/-- The series of the cosine, up to the twelfth power. -/
def cosFixed (x : ℤ) : ℤ :=
  polynomial (mulFixed x x) [4294967296, -2147483648, 178956971, -5965232, 106522, -1184, 9]

/-- The series of the sine, up to the thirteenth power. -/
def sinFixed (x : ℤ) : ℤ :=
  mulFixed x
    (polynomial (mulFixed x x) [4294967296, -715827883, 35791394, -852176, 11836, -108, 1])

/-- The arc tangent of `-1` to `1`, from a polynomial of degree seventeen. -/
def atanFixed (t : ℤ) : ℤ :=
  mulFixed t
    (polynomial (mulFixed t t)
      [4294967296, -1431647689, 858716470, -610267584, 457683051, -323366542, 184295388,
        -69431310, 12310346])

/-- `M_PI`. -/
def piFixed : ℤ := 13493037705

/-- The angle of a point to the first axis. -/
def atan2Fixed (y x : ℤ) : ℤ :=
  if y.natAbs > x.natAbs then
    (if y > 0 then piFixed / 2 else -piFixed / 2) - atanFixed (x * 4294967296 / y)
  else if x > 0 then atanFixed (y * 4294967296 / x)
  else if x = 0 then 0
  else (if y ≥ 0 then piFixed else -piFixed) + atanFixed (y * 4294967296 / x)

/-- The functions of `math.h`, to a few digits: the sine and the cosine for the angles that a
turn has. -/
def cutLibm : Libm ℚ where
  sqrt := cutSqrt
  cos x := ofFixed (cosFixed (toFixed x))
  sin x := ofFixed (sinFixed (toFixed x))
  tan x := ofFixed (sinFixed (toFixed x) * 4294967296 / cosFixed (toFixed x))
  atan2 y x := ofFixed (atan2Fixed (toFixed y) (toFixed x))
  pi := ofFixed piFixed

end OperationMinix
