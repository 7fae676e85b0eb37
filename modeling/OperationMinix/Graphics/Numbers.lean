import Mathlib.Data.Nat.Digits.Lemmas
import OperationMinix.Lib.Blit

/-!
# Numbers on the screen

`digitize` fills an array with the digits of a number, the last of them first, and
`render_number` and `render_time_number` draw the sprites that these digits choose.  The loop
goes on as long as there are digits, not as long as there are places: a number with more
digits than places is written on beyond the front of the array.

## Main definitions

* `IntArray` — an array of `int`, with the writes that miss it.
* `digitize`, `renderNumber`, `renderTimeNumber` — the three functions.
* `Digitizes` — what is to be expected of them.

## Main results

* `digitize_spec` — what is in the array, and which places beside it have been written to.
* `renderNumber_isSome`, `renderTimeNumber_isSome` — the digits are always drawn.
* `digitizes_iff` — **all is as expected exactly when the number fits its places.**
-/

namespace OperationMinix

/-- An array of `int`; a write to a place that it does not have is recorded. -/
structure IntArray where
  vals : List ℤ
  /-- The indices outside of the array that have been written to, in order. -/
  stray : List ℤ
  deriving DecidableEq, Repr

/-- `memset` of an array of `n` numbers. -/
def IntArray.zeros (n : ℕ) : IntArray := { vals := List.replicate n 0, stray := [] }

/-- `res[i] = v`. -/
def IntArray.write (res : IntArray) (i v : ℤ) : IntArray :=
  if 0 ≤ i ∧ i < res.vals.length then { res with vals := res.vals.set i.toNat v }
  else { res with stray := res.stray ++ [i] }

/-- The loop of `digitize`.  The index is computed without sign; where it would be below zero it
wraps around, and so does the address, which is then in front of the array. -/
def digitizeLoop (maxSize : ℕ) (num : ℤ) (digits : ℕ) (res : IntArray) : IntArray :=
  if 0 < num then
    digitizeLoop maxSize (num.tdiv 10) (digits + 1)
      (res.write (maxSize - 1 - digits) (num.tmod 10))
  else res
termination_by num.toNat
decreasing_by
  rw [Int.tdiv_eq_ediv_of_nonneg (by omega)]
  omega

/-- `digitize`. -/
def digitize (num : ℤ) (maxSize : ℕ) (res : IntArray) : ℕ × IntArray :=
  (maxSize, digitizeLoop maxSize num 0 res)

/-- The indices into `number`: the digits that `digitize` leaves in the array `nums`. -/
def digitIndices (value : ℤ) (maxDigits : ℕ) : List ℤ :=
  let r := digitize value maxDigits (.zeros maxDigits)
  r.2.vals.take r.1

/-- `number[val]`. -/
def glyph (number : List Sprite) (val : ℤ) : Option Sprite :=
  if 0 ≤ val then number[val.toNat]? else none

/-- A sprite drawn at a position, which moves on behind it. -/
def drawGlyph (m : VideoMode) (ptr : Sprite) (r : Pair × List Color) : Option (Pair × List Color) :=
  (drawSprite m r.1 ptr r.2).map fun page =>
    ({ r.1 with x := r.1.x + BitVec.ofNat 32 (ptr.textureSize.1 + 2) }, page)

/-- The loop of `render_number` over the digits that are left; `gotNum` says that one of those
before was not zero. -/
def renderNumberLoop (m : VideoMode) (number : List Sprite) :
    List ℤ → Bool → Pair × List Color → Option (Pair × List Color)
  | [], _, r => some r
  | val :: nums, gotNum, r => do
    let gotNum := gotNum || val ≠ 0
    let ptr ← glyph number val
    -- zeros in front are left out, but for the last digit
    if gotNum || nums = [] then renderNumberLoop m number nums gotNum (← drawGlyph m ptr r)
    else renderNumberLoop m number nums gotNum r

/-- `render_number`: the position behind the number, and the page. -/
def renderNumber (m : VideoMode) (number : List Sprite) (value : ℤ) (maxDigits : ℕ)
    (r : Pair × List Color) : Option (Pair × List Color) :=
  renderNumberLoop m number (digitIndices value maxDigits) false r

/-- `render_time_number`, which draws every digit. -/
def renderTimeNumber (m : VideoMode) (number : List Sprite) (value : ℤ) (maxDigits : ℕ)
    (r : Pair × List Color) : Option (Pair × List Color) :=
  (digitIndices value maxDigits).foldlM
    (fun r val => (glyph number val).bind fun ptr => drawGlyph m ptr r) r

/-! ### The digits -/

@[simp] theorem IntArray.length_write (res : IntArray) (i v : ℤ) :
    (res.write i v).vals.length = res.vals.length := by
  unfold write
  split
  · exact List.length_set
  · rfl

/-- The array after `k` digits of `num`, the places that it has no digit for yet being zero. -/
structure Filled (num maxSize k : ℕ) (res : IntArray) : Prop where
  length : res.vals.length = maxSize
  done : ∀ j < maxSize, j < k → res.vals[maxSize - 1 - j]? = some (num / 10 ^ j % 10 : ℕ)
  rest : ∀ j < maxSize, k ≤ j → res.vals[maxSize - 1 - j]? = some 0
  stray : res.stray = (List.range' maxSize (k - maxSize)).map fun j : ℕ => (maxSize : ℤ) - 1 - j

theorem Filled.zeros (num maxSize : ℕ) : Filled num maxSize 0 (.zeros maxSize) where
  length := List.length_replicate
  done := nofun
  rest := fun j hj _ => by
    rw [IntArray.zeros, List.getElem?_replicate, if_pos (by omega)]
  stray := by rw [Nat.zero_sub]; rfl

/-- One digit more. -/
theorem Filled.next {num maxSize k : ℕ} {res : IntArray} (h : Filled num maxSize k res) :
    Filled num maxSize (k + 1)
      (res.write (maxSize - 1 - k) (((num / 10 ^ k : ℕ) : ℤ).tmod 10)) := by
  have hdigit : ((num / 10 ^ k : ℕ) : ℤ).tmod 10 = (num / 10 ^ k % 10 : ℕ) := rfl
  rw [hdigit]
  rcases Nat.lt_or_ge k maxSize with hk | hk
  · -- there is a place for the digit
    have hplace : (maxSize : ℤ) - 1 - k = (maxSize - 1 - k : ℕ) := by omega
    have hwrite : res.write (maxSize - 1 - k) (num / 10 ^ k % 10 : ℕ) =
        { res with vals := res.vals.set (maxSize - 1 - k) (num / 10 ^ k % 10 : ℕ) } := by
      rw [IntArray.write, hplace, if_pos ⟨Int.natCast_nonneg _, by rw [h.length]; omega⟩]
      rfl
    rw [hwrite]
    have hother : ∀ j < maxSize, j ≠ k →
        (res.vals.set (maxSize - 1 - k) ((num / 10 ^ k % 10 : ℕ) : ℤ))[maxSize - 1 - j]? =
          res.vals[maxSize - 1 - j]? :=
      fun j hj hne => List.getElem?_set_ne (by omega)
    refine ⟨List.length_set.trans h.length, fun j hj hlt => ?_, fun j hj hle => ?_, ?_⟩
    · rcases Nat.lt_succ_iff_lt_or_eq.mp hlt with hlt | rfl
      · exact (hother j hj hlt.ne).trans (h.done j hj hlt)
      · exact List.getElem?_set_self (by rw [h.length]; omega)
    · exact (hother j hj (by omega)).trans (h.rest j hj (by omega))
    · refine h.stray.trans ?_
      rw [show k - maxSize = 0 by omega, show k + 1 - maxSize = 0 by omega]
  · have hwrite : res.write (maxSize - 1 - k) (num / 10 ^ k % 10 : ℕ) =
        { res with stray := res.stray ++ [(maxSize : ℤ) - 1 - k] } := by
      rw [IntArray.write, if_neg (by omega)]
    rw [hwrite]
    refine ⟨h.length, fun j hj _ => h.done j hj (by omega), fun j hj hle => by omega, ?_⟩
    show res.stray ++ [(maxSize : ℤ) - 1 - k] = _
    rw [h.stray, Nat.succ_sub hk, List.range'_1_concat, List.map_append, List.map_singleton,
      Nat.add_sub_cancel' hk]

/-- There is a digit left exactly when the number, without those before, is not zero. -/
theorem digits_left_iff (num k : ℕ) : k < (Nat.digits 10 num).length ↔ 0 < num / 10 ^ k := by
  rw [Nat.lt_digits_length_iff (by decide), Nat.div_pos_iff]
  exact ⟨fun h => ⟨Nat.pow_pos (by decide), h⟩, fun h => h.2⟩

/-- The loop goes on until no digit is left. -/
theorem digitizeLoop_filled {num maxSize : ℕ} : ∀ (n k : ℕ) (res : IntArray),
    (Nat.digits 10 num).length = k + n → Filled num maxSize k res →
    Filled num maxSize (k + n) (digitizeLoop maxSize ((num / 10 ^ k : ℕ) : ℤ) k res) := by
  intro n
  induction n with
  | zero =>
    intro k res hn hres
    have hzero : num / 10 ^ k = 0 :=
      Nat.eq_zero_of_not_pos ((digits_left_iff num k).not.mp (by omega))
    rw [digitizeLoop, if_neg (by rw [hzero]; decide)]
    exact hres
  | succ n ih =>
    intro k res hn hres
    have hpos := (digits_left_iff num k).mp (by omega)
    have hnext : ((num / 10 ^ k : ℕ) : ℤ).tdiv 10 = (num / 10 ^ (k + 1) : ℕ) := by
      rw [pow_succ, ← Nat.div_div_eq_div_mul]
      rfl
    rw [digitizeLoop, if_pos (by exact_mod_cast hpos), hnext, Nat.add_comm n 1, ← Nat.add_assoc]
    exact ih (k + 1) _ (by omega) hres.next

/-- **What `digitize` does.**  Every place of the array has its digit, and the places in front
of the array have been written to for the digits of the number that are too many. -/
theorem digitize_spec (num maxSize : ℕ) :
    (digitize num maxSize (.zeros maxSize)).2.vals =
      (List.range maxSize).map (fun i => ((num / 10 ^ (maxSize - 1 - i) % 10 : ℕ) : ℤ)) ∧
    (digitize num maxSize (.zeros maxSize)).2.stray =
      (List.range' maxSize ((Nat.digits 10 num).length - maxSize)).map
        fun j : ℕ => (maxSize : ℤ) - 1 - j := by
  have h := digitizeLoop_filled (Nat.digits 10 num).length 0 _ (Nat.zero_add _).symm
    (Filled.zeros num maxSize)
  rw [pow_zero, Nat.div_one, Nat.zero_add] at h
  refine ⟨List.ext_getElem? fun i => ?_, h.stray⟩
  rw [List.getElem?_map]
  rcases Nat.lt_or_ge i maxSize with hi | hi
  · rw [List.getElem?_range hi, Option.map_some]
    have hplace : maxSize - 1 - (maxSize - 1 - i) = i := by omega
    rcases Nat.lt_or_ge (maxSize - 1 - i) (Nat.digits 10 num).length with hlt | hge
    · have hdigit := h.done (maxSize - 1 - i) (by omega) hlt
      rwa [hplace] at hdigit
    · -- the number has no digit there
      have hdigit := h.rest (maxSize - 1 - i) (by omega) hge
      rw [hplace] at hdigit
      have hzero : num / 10 ^ (maxSize - 1 - i) = 0 :=
        Nat.eq_zero_of_not_pos ((digits_left_iff num _).not.mp hge.not_gt)
      rw [hzero]
      exact hdigit
  · have hrange : (List.range maxSize)[i]? = none :=
      List.getElem?_eq_none (by rw [List.length_range]; exact hi)
    rw [hrange, Option.map_none]
    exact List.getElem?_eq_none (h.length.trans_le hi)

/-- The write in front of the array is made exactly when the number does not fit. -/
theorem digitize_stray_iff (num maxSize : ℕ) :
    (digitize num maxSize (.zeros maxSize)).2.stray = [] ↔ num < 10 ^ maxSize := by
  rw [(digitize_spec num maxSize).2, List.map_eq_nil_iff, List.range'_eq_nil_iff,
    Nat.sub_eq_zero_iff_le, Nat.digits_length_le_iff (by decide)]

theorem digitIndices_eq (num maxDigits : ℕ) : digitIndices num maxDigits =
    (List.range maxDigits).map fun i => ((num / 10 ^ (maxDigits - 1 - i) % 10 : ℕ) : ℤ) := by
  show List.take maxDigits _ = _
  rw [(digitize_spec num maxDigits).1]
  exact List.take_of_length_le (by rw [List.length_map, List.length_range])

/-- **Every index is a digit**, however large the number is. -/
theorem digitIndices_range {num maxDigits : ℕ} {v : ℤ} (hv : v ∈ digitIndices num maxDigits) :
    0 ≤ v ∧ v ≤ 9 := by
  rw [digitIndices_eq] at hv
  obtain ⟨i, -, rfl⟩ := List.mem_map.mp hv
  omega

/-! ### Drawing -/

/-- The glyphs are there: the ten digits at least, each a sprite as it is loaded. -/
structure Glyphs (number : List Sprite) : Prop where
  digits : 10 ≤ number.length
  loaded : ∀ s ∈ number, s.Loaded ∧ 1 ≤ s.textureSize.2

theorem Glyphs.exists_glyph {number : List Sprite} (h : Glyphs number) {v : ℤ} (h0 : 0 ≤ v)
    (h9 : v ≤ 9) : ∃ s, glyph number v = some s ∧ s.Loaded ∧ 1 ≤ s.textureSize.2 := by
  have hlt : v.toNat < number.length := by
    have := h.digits
    omega
  refine ⟨number[v.toNat], ?_, h.loaded _ (List.getElem_mem hlt)⟩
  rw [glyph, if_pos h0, List.getElem?_eq_getElem hlt]

section

variable (m : VideoMode) {number : List Sprite} {r : Pair × List Color}

/-- The glyph of a digit is drawn on a page of the size of the screen. -/
theorem Glyphs.exists_draw (h : Glyphs number) {v : ℤ} (hv : 0 ≤ v ∧ v ≤ 9)
    (hr : r.2.length = m.hRes * m.vRes) :
    ∃ s r', glyph number v = some s ∧ drawGlyph m s r = some r' ∧
      r'.2.length = m.hRes * m.vRes := by
  obtain ⟨s, hs, hloaded, hh⟩ := h.exists_glyph hv.1 hv.2
  obtain ⟨page, hpage, hpaint⟩ := blit_paints hloaded hh m r.1 id r.2 hr
  exact ⟨s, _, hs, congrArg (Option.map _) hpage, hpaint.length.trans hr⟩

theorem renderNumberLoop_isSome (h : Glyphs number) : ∀ (nums : List ℤ) (gotNum : Bool)
    (r : Pair × List Color), (∀ v ∈ nums, 0 ≤ v ∧ v ≤ 9) → r.2.length = m.hRes * m.vRes →
    ∃ r', renderNumberLoop m number nums gotNum r = some r' ∧
      r'.2.length = m.hRes * m.vRes := by
  intro nums
  induction nums with
  | nil => intro gotNum r _ hr; exact ⟨r, rfl, hr⟩
  | cons val nums ih =>
    intro gotNum r hnums hr
    obtain ⟨hval, hrest⟩ := List.forall_mem_cons.mp hnums
    obtain ⟨s, r₁, hs, hr₁, hlen₁⟩ := h.exists_draw m hval hr
    simp only [renderNumberLoop, hs, hr₁, Option.bind_eq_bind, Option.bind_some]
    split
    · exact ih _ r₁ hrest hlen₁
    · -- a zero in front: the page stays as it is
      exact ih _ r hrest hr

/-- **`render_number` draws every number**, with the digits that it has places for. -/
theorem renderNumber_isSome (h : Glyphs number) (value maxDigits : ℕ)
    (hr : r.2.length = m.hRes * m.vRes) :
    ∃ r', renderNumber m number value maxDigits r = some r' ∧
      r'.2.length = m.hRes * m.vRes :=
  renderNumberLoop_isSome m h _ false r (fun _ hv => digitIndices_range hv) hr

theorem drawGlyphs_isSome (h : Glyphs number) : ∀ (nums : List ℤ) (r : Pair × List Color),
    (∀ v ∈ nums, 0 ≤ v ∧ v ≤ 9) → r.2.length = m.hRes * m.vRes →
    ∃ r', nums.foldlM (fun r val => (glyph number val).bind fun ptr => drawGlyph m ptr r) r =
      some r' ∧ r'.2.length = m.hRes * m.vRes := by
  intro nums
  induction nums with
  | nil => intro r _ hr; exact ⟨r, rfl, hr⟩
  | cons val nums ih =>
    intro r hnums hr
    obtain ⟨hval, hrest⟩ := List.forall_mem_cons.mp hnums
    obtain ⟨s, r₁, hs, hr₁, hlen₁⟩ := h.exists_draw m hval hr
    obtain ⟨r', hr', hlen'⟩ := ih r₁ hrest hlen₁
    refine ⟨r', ?_, hlen'⟩
    rw [List.foldlM_cons, hs, Option.bind_some, hr₁]
    exact hr'

/-- **`render_time_number` draws every number.** -/
theorem renderTimeNumber_isSome (h : Glyphs number) (value maxDigits : ℕ)
    (hr : r.2.length = m.hRes * m.vRes) :
    ∃ r', renderTimeNumber m number value maxDigits r = some r' ∧
      r'.2.length = m.hRes * m.vRes :=
  drawGlyphs_isSome m h _ r (fun _ hv => digitIndices_range hv) hr

end

/-! ### What is to be expected -/

/-- The last `maxSize` digits of `num` are written to an array of that size, and to nothing else,
and the glyphs are chosen by digits. -/
structure Digitizes (num maxSize : ℕ) : Prop where
  inside : (digitize num maxSize (.zeros maxSize)).2.stray = []
  result : (digitize num maxSize (.zeros maxSize)).1 = maxSize
  digits : (digitize num maxSize (.zeros maxSize)).2.vals =
    (List.range maxSize).map fun i => ((num / 10 ^ (maxSize - 1 - i) % 10 : ℕ) : ℤ)
  indices : ∀ v ∈ digitIndices num maxSize, 0 ≤ v ∧ v ≤ 9

/-- **The digits are written as they should be exactly when the number fits its places.** -/
theorem digitizes_iff (num maxSize : ℕ) : Digitizes num maxSize ↔ num < 10 ^ maxSize := by
  constructor
  · intro h
    exact (digitize_stray_iff num maxSize).mp h.inside
  · intro h
    exact
      { inside := (digitize_stray_iff num maxSize).mpr h
        result := rfl
        digits := (digitize_spec num maxSize).1
        indices := fun v hv => digitIndices_range hv }

/-- The seconds of a time that has stepped over zero, cut to a byte, in their two places: the `2`
is written in front of the array. -/
theorem secondsBelowZero_not_digitizes : ¬ Digitizes 255 2 := by
  intro h
  have hstray : (digitize 255 2 (.zeros 2)).2.stray = [-1] := by
    have hspec := (digitize_spec 255 2).2
    norm_num at hspec
    exact hspec
  have hinside := h.inside
  rw [show ((255 : ℕ) : ℤ) = 255 from rfl, hstray] at hinside
  cases hinside

end OperationMinix
