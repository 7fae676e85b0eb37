import OperationMinix.Lib.VideoGraphics
import OperationMinix.Runs.Raster

/-!
# Drawing a sprite as it is

`draw_sprite` copies the texels of a sprite to the page buffer, one to a pixel, and
`draw_sprite_color_mask` fills its shape with one colour.  The start is a signed position
that is kept in unsigned variables, and both loops are left at the first row or column
behind the screen.  A sprite that begins left of the screen or above it begins far behind
it after the conversion, so that nothing of it is drawn; and the loop over the rows ends
one row early.

## Main definitions

* `drawSprite`, `drawSpriteColorMask` — the two functions; they are `none` when they read
  outside of the texture or write outside of the buffer.
* `Sprite.Shows` — the pixels at which a sprite is to be seen.
* `Blits` — both functions paint these pixels, and no others.

## Main results

* `blit_paints` — what is painted, for every sprite and every start.
* `blits_iff` — **the drawing is right exactly when** nothing is to be seen of the last row,
  and nothing at all of a sprite that begins left of the screen or above it.
-/

namespace OperationMinix

open Runs

/-- The size of the screen, which the graphics mode gives in 16 bits. -/
structure VideoMode where
  /-- `h_res`. -/
  hRes : ℕ
  /-- `v_res`. -/
  vRes : ℕ
  hRes_lt : hRes < 2 ^ 16
  vRes_lt : vRes < 2 ^ 16

/-- `pair_t`, with its two `long`. -/
structure Pair where
  x : BitVec 32
  y : BitVec 32
  deriving DecidableEq, Repr

/-- `set_px`; it is `none` outside of the buffer. -/
def setPx (m : VideoMode) (xPos yPos : ℕ) (color : Color) (page : List Color) :
    Option (List Color) :=
  let i := (xPos + yPos * m.hRes) % 2 ^ 32
  if i < page.length then some (page.set i color) else none

/-- The inner loop of `draw_sprite` and of `draw_sprite_color_mask`; `paint` gives the colour
in which a texel is drawn.  The first number bounds the passes. -/
def blitColumns (m : VideoMode) (sprite : Sprite) (paint : Color → Color) (y texY : ℕ) :
    ℕ → ℕ → ℕ → List Color → Option (List Color)
  | 0, _, _, _ => none
  | n + 1, x, texX, page =>
    if texX < sprite.textureSize.1 then
      if x ≥ m.hRes then some page
      else do
        let color ← sprite.map[texY + texX]?
        let page ← if color ≠ sprite.invisColor then setPx m x y (paint color) page else some page
        blitColumns m sprite paint y texY n (x + 1) (texX + 1) page
    else some page

/-- The outer loop, with the bound `yEnd` that is computed anew for every row in the source. -/
def blitRows (m : VideoMode) (sprite : Sprite) (paint : Color → Color) (xStart yEnd : ℕ) :
    ℕ → ℕ → ℕ → List Color → Option (List Color)
  | 0, _, _, _ => none
  | n + 1, y, texY, page =>
    if y < yEnd then
      if y ≥ m.vRes then some page
      else do
        let page ← blitColumns m sprite paint y texY (m.hRes + 1) xStart 0 page
        blitRows m sprite paint xStart yEnd n (y + 1) (texY + sprite.textureSize.1) page
    else some page

/-- The body of both functions. -/
def blit (m : VideoMode) (startPos : Pair) (sprite : Sprite) (paint : Color → Color)
    (page : List Color) : Option (List Color) :=
  let yStart := startPos.y.toNat
  let xStart := startPos.x.toNat
  -- unsigned arithmetic: for a sprite without rows the bound is before the start
  let yEnd := (yStart + sprite.textureSize.2 + (2 ^ 32 - 1)) % 2 ^ 32
  blitRows m sprite paint xStart yEnd (m.vRes + 1) yStart 0 page

/-- `draw_sprite`. -/
def drawSprite (m : VideoMode) (startPos : Pair) (sprite : Sprite) (page : List Color) :
    Option (List Color) :=
  blit m startPos sprite id page

/-- `draw_sprite_color_mask`. -/
def drawSpriteColorMask (m : VideoMode) (startPos : Pair) (sprite : Sprite) (color : Color)
    (page : List Color) : Option (List Color) :=
  blit m startPos sprite (fun _ => color) page

/-! ### What is to be drawn -/

/-- A sprite as it is loaded: its size has 16 bits, and there is a texel for every place. -/
structure Sprite.Loaded (s : Sprite) : Prop where
  width : s.textureSize.1 < 2 ^ 16
  height : s.textureSize.2 < 2 ^ 16
  map : s.map.length = s.textureSize.1 * s.textureSize.2

/-- The texel of a sprite at `startPos` that lies on a pixel. -/
def Sprite.texelAt (s : Sprite) (startPos : Pair) (x y : ℕ) : Color :=
  s.texel ((y - startPos.y.toInt) * s.textureSize.1 + (x - startPos.x.toInt))

/-- A sprite at `startPos` covers a pixel, and its texel there is not transparent. -/
def Sprite.Shows (s : Sprite) (startPos : Pair) (x y : ℕ) : Prop :=
  0 ≤ x - startPos.x.toInt ∧ x - startPos.x.toInt < s.textureSize.1 ∧
    0 ≤ y - startPos.y.toInt ∧ y - startPos.y.toInt < s.textureSize.2 ∧
    s.texelAt startPos x y ≠ s.invisColor

instance (s : Sprite) (startPos : Pair) (x y : ℕ) : Decidable (s.Shows startPos x y) :=
  inferInstanceAs (Decidable (_ ∧ _ ∧ _ ∧ _ ∧ _))

/-- On every page buffer, `f` stays inside of the texture and of the buffer, and paints the
pixels of `S`. -/
def PaintsPage (m : VideoMode) (f : List Color → Option (List Color)) (S : ℕ → ℕ → Prop)
    (col : ℕ → ℕ → Color) : Prop :=
  ∀ page : List Color, page.length = m.hRes * m.vRes →
    ∃ page', f page = some page' ∧ Raster.Painted m.hRes m.vRes S col page page'

/-- The sprite is drawn where it shows and nowhere else, and the mask has the same shape. -/
structure Blits (m : VideoMode) (startPos : Pair) (sprite : Sprite) : Prop where
  texels : PaintsPage m (drawSprite m startPos sprite) (sprite.Shows startPos)
    (sprite.texelAt startPos)
  shape : ∀ color, PaintsPage m (drawSpriteColorMask m startPos sprite color)
    (sprite.Shows startPos) fun _ _ => color

/-- The part of the sprite that the loops reach. -/
def Sprite.Drawn (s : Sprite) (startPos : Pair) (x y : ℕ) : Prop :=
  s.Shows startPos x y ∧ 0 ≤ startPos.x.toInt ∧ 0 ≤ startPos.y.toInt ∧
    y + 1 < startPos.y.toInt + s.textureSize.2

/-! ### The loops -/

section

variable {m : VideoMode} {s : Sprite} {paint : Color → Color} {xStart yStart : ℕ}

theorem setPx_eq {x y : ℕ} {page : List Color} (color : Color) (hx : x < m.hRes) (hy : y < m.vRes)
    (hlen : page.length = m.hRes * m.vRes) :
    setPx m x y color page = some (page.set (x + y * m.hRes) color) := by
  have hlt := Raster.index_lt hx hy
  have hsize : m.hRes * m.vRes ≤ 2 ^ 16 * 2 ^ 16 :=
    Nat.mul_le_mul (Nat.le_of_lt m.hRes_lt) (Nat.le_of_lt m.vRes_lt)
  have hmod : (x + y * m.hRes) % 2 ^ 32 = x + y * m.hRes := Nat.mod_eq_of_lt (by omega)
  simp only [setPx, hmod]
  rw [if_pos (hlen ▸ hlt)]

/-- The texel on a pixel, for a start on the screen. -/
def Sprite.texelFrom (s : Sprite) (xStart yStart x y : ℕ) : Color :=
  s.map.getD ((y - yStart) * s.textureSize.1 + (x - xStart)) 0

/-- What the inner loop paints in row `y`, from column `x` on. -/
def Sprite.InRow (s : Sprite) (xStart yStart x y x' y' : ℕ) : Prop :=
  y' = y ∧ x ≤ x' ∧ x' - xStart < s.textureSize.1 ∧
    s.texelFrom xStart yStart x' y' ≠ s.invisColor

theorem Sprite.Loaded.getElem?_map (hs : s.Loaded) {x y : ℕ} (hx : x - xStart < s.textureSize.1)
    (hy : y - yStart < s.textureSize.2) :
    s.map[(y - yStart) * s.textureSize.1 + (x - xStart)]? =
      some (s.texelFrom xStart yStart x y) := by
  have hlt := Raster.index_lt hx hy
  rw [Nat.add_comm, ← hs.map] at hlt
  rw [Sprite.texelFrom, List.getD_eq_getElem?_getD, List.getElem?_eq_getElem hlt]
  rfl

theorem Sprite.inRow_self (x y : ℕ) (hx : x - xStart < s.textureSize.1)
    (h : s.texelFrom xStart yStart x y ≠ s.invisColor) (x' y' : ℕ) :
    (x' = x ∧ y' = y) ∨ s.InRow xStart yStart (x + 1) y x' y' ↔
      s.InRow xStart yStart x y x' y' := by
  constructor
  · rintro (⟨rfl, rfl⟩ | ⟨hy, hle, hrest⟩)
    · exact ⟨rfl, Nat.le_refl _, hx, h⟩
    · exact ⟨hy, by omega, hrest⟩
  · rintro ⟨rfl, hle, hrest⟩
    rcases Nat.lt_or_ge x x' with hlt | hge
    · exact Or.inr ⟨rfl, hlt, hrest⟩
    · exact Or.inl ⟨by omega, rfl⟩

theorem Sprite.inRow_succ (x y : ℕ) (h : s.texelFrom xStart yStart x y = s.invisColor)
    (x' y' : ℕ) :
    s.InRow xStart yStart (x + 1) y x' y' ↔ s.InRow xStart yStart x y x' y' := by
  constructor
  · rintro ⟨hy, hle, hrest⟩
    exact ⟨hy, by omega, hrest⟩
  · rintro ⟨rfl, hle, hrest⟩
    refine ⟨rfl, Nat.lt_of_le_of_ne hle ?_, hrest⟩
    rintro rfl
    exact hrest.2 h

/-- The inner loop paints its row. -/
theorem blitColumns_paints (hs : s.Loaded) (paint : Color → Color) {y : ℕ} (hy : y < m.vRes)
    (hrow : y - yStart < s.textureSize.2) :
    ∀ (n x : ℕ) (page : List Color), 0 < n → m.hRes < n + x → xStart ≤ x →
      page.length = m.hRes * m.vRes →
      ∃ page', blitColumns m s paint y ((y - yStart) * s.textureSize.1) n x (x - xStart) page =
          some page' ∧
        Raster.Painted m.hRes m.vRes (s.InRow xStart yStart x y)
          (fun x y => paint (s.texelFrom xStart yStart x y)) page page' := by
  intro n
  induction n with
  | zero => intro x page h; exact absurd h (Nat.lt_irrefl 0)
  | succ n ih =>
    intro x page _ hn hle hlen
    simp only [blitColumns]
    by_cases hw : x - xStart < s.textureSize.1
    · rw [if_pos hw]
      by_cases hx : x ≥ m.hRes
      · rw [if_pos hx]
        refine ⟨page, rfl, (Raster.Painted.refl _ page).congr fun x' hx' y' _ => ?_⟩
        constructor
        · exact False.elim
        · rintro ⟨-, h, -⟩; omega
      · rw [if_neg hx, hs.getElem?_map hw hrow]
        have hnext : x - xStart + 1 = x + 1 - xStart := by omega
        by_cases hc : s.texelFrom xStart yStart x y = s.invisColor
        · obtain ⟨page', hrun, hpaint⟩ := ih (x + 1) page (by omega) (by omega) (by omega) hlen
          refine ⟨page', ?_, hpaint.congr fun x' _ y' _ => Sprite.inRow_succ x y hc x' y'⟩
          simp [hc, hnext, hrun]
        · have hset := Raster.painted_set (fun x y => paint (s.texelFrom xStart yStart x y))
            (Nat.lt_of_not_le hx) hy hlen
          obtain ⟨page', hrun, hpaint⟩ := ih (x + 1) _ (by omega) (by omega) (by omega)
            (hset.length.trans hlen)
          refine ⟨page', ?_, (hset.union hpaint).congr fun x' _ y' _ =>
            Sprite.inRow_self x y hw hc x' y'⟩
          simp [hc, hnext, hrun, setPx_eq _ (Nat.lt_of_not_le hx) hy hlen]
    · rw [if_neg hw]
      refine ⟨page, rfl, (Raster.Painted.refl _ page).congr fun x' hx' y' _ => ?_⟩
      constructor
      · exact False.elim
      · rintro ⟨-, h, h', -⟩; omega

/-- What the outer loop paints from row `y` on. -/
def Sprite.FromRow (s : Sprite) (xStart yStart yEnd y x' y' : ℕ) : Prop :=
  y ≤ y' ∧ y' < yEnd ∧ s.InRow xStart yStart xStart y' x' y'

theorem Sprite.fromRow_succ {yEnd y : ℕ} (hy : y < yEnd) (x' y' : ℕ) :
    s.InRow xStart yStart xStart y x' y' ∨ s.FromRow xStart yStart yEnd (y + 1) x' y' ↔
      s.FromRow xStart yStart yEnd y x' y' := by
  constructor
  · rintro (h | ⟨h1, h2, h3⟩)
    · obtain rfl := h.1
      exact ⟨Nat.le_refl _, hy, h⟩
    · exact ⟨by omega, h2, h3⟩
  · rintro ⟨h1, h2, h3⟩
    rcases Nat.eq_or_lt_of_le h1 with rfl | hlt
    · exact Or.inl h3
    · exact Or.inr ⟨hlt, h2, h3⟩

/-- The outer loop paints its rows. -/
theorem blitRows_paints (hs : s.Loaded) (paint : Color → Color) (xStart : ℕ) {yEnd : ℕ}
    (hend : yEnd ≤ yStart + s.textureSize.2) :
    ∀ (n y : ℕ) (page : List Color), 0 < n → m.vRes < n + y → yStart ≤ y →
      page.length = m.hRes * m.vRes →
      ∃ page', blitRows m s paint xStart yEnd n y ((y - yStart) * s.textureSize.1) page =
          some page' ∧
        Raster.Painted m.hRes m.vRes (s.FromRow xStart yStart yEnd y)
          (fun x y => paint (s.texelFrom xStart yStart x y)) page page' := by
  intro n
  induction n with
  | zero => intro y page h; exact absurd h (Nat.lt_irrefl 0)
  | succ n ih =>
    intro y page _ hn hle hlen
    simp only [blitRows]
    by_cases hy : y < yEnd
    · rw [if_pos hy]
      by_cases hv : y ≥ m.vRes
      · rw [if_pos hv]
        refine ⟨page, rfl, (Raster.Painted.refl _ page).congr fun x' _ y' hy' => ?_⟩
        constructor
        · exact False.elim
        · rintro ⟨h, -⟩; omega
      · rw [if_neg hv]
        obtain ⟨mid, hmid, hrow⟩ := blitColumns_paints hs paint
          (Nat.lt_of_not_le hv) (show y - yStart < s.textureSize.2 by omega) (m.hRes + 1) xStart
          page (by omega) (by omega) (Nat.le_refl _) hlen
        obtain ⟨page', hrun, hrest⟩ := ih (y + 1) mid (by omega) (by omega) (by omega)
          (hrow.length.trans hlen)
        refine ⟨page', ?_, (hrow.union hrest).congr fun x' _ y' _ =>
          Sprite.fromRow_succ hy x' y'⟩
        have hnext : (y - yStart) * s.textureSize.1 + s.textureSize.1 =
            (y + 1 - yStart) * s.textureSize.1 := by
          rw [Nat.succ_sub hle, Nat.succ_mul]
        rw [Nat.sub_self] at hmid
        simp [hmid, hnext, hrun]
    · rw [if_neg hy]
      refine ⟨page, rfl, (Raster.Painted.refl _ page).congr fun x' _ y' _ => ?_⟩
      constructor
      · exact False.elim
      · rintro ⟨h, h', -⟩; omega

/-! ### What is drawn -/

/-- A start that is not negative is not changed by the conversion. -/
theorem toInt_eq_toNat_of_nonneg {b : BitVec 32} (h : 0 ≤ b.toInt) : b.toInt = b.toNat := by
  rw [BitVec.toInt_eq_toNat_cond] at h ⊢
  split at h
  · next hlt => rw [if_pos hlt]
  · have := b.isLt
    omega

/-- Nor is one that is on the screen after it. -/
theorem toInt_eq_toNat_of_le {b : BitVec 32} {x res : ℕ} (hx : x < res) (hres : res < 2 ^ 16)
    (h : b.toNat ≤ x) : b.toInt = b.toNat :=
  BitVec.toInt_eq_toNat_of_lt (by omega)

variable {startPos : Pair}

theorem Sprite.texelAt_eq {x y : ℕ} (hx : startPos.x.toInt = startPos.x.toNat)
    (hy : startPos.y.toInt = startPos.y.toNat) (hxle : startPos.x.toNat ≤ x)
    (hyle : startPos.y.toNat ≤ y) :
    s.texelAt startPos x y = s.texelFrom startPos.x.toNat startPos.y.toNat x y := by
  have hindex : ((y - startPos.y.toInt) * s.textureSize.1 + (x - startPos.x.toInt) : ℤ) =
      ((y - startPos.y.toNat) * s.textureSize.1 + (x - startPos.x.toNat) : ℕ) := by
    rw [hx, hy]
    push_cast [Nat.cast_sub hxle, Nat.cast_sub hyle]
    rfl
  rw [texelAt, texel, hindex, Int.toNat_natCast, texelFrom]

/-- On the screen, the loops reach the part of the sprite that `Drawn` describes. -/
theorem Sprite.fromRow_iff_drawn (hs : s.Loaded) (hh : 1 ≤ s.textureSize.2) {x y : ℕ}
    (hx : x < m.hRes) (hy : y < m.vRes) :
    s.FromRow startPos.x.toNat startPos.y.toNat
        ((startPos.y.toNat + s.textureSize.2 + (2 ^ 32 - 1)) % 2 ^ 32) startPos.y.toNat x y ↔
      s.Drawn startPos x y := by
  have hsize := hs.height
  constructor
  · rintro ⟨hyle, hyend, -, hxle, hw, hc⟩
    have hxs := toInt_eq_toNat_of_le hx m.hRes_lt hxle
    have hys := toInt_eq_toNat_of_le hy m.vRes_lt hyle
    have hvres := m.vRes_lt
    rw [← Sprite.texelAt_eq hxs hys hxle hyle] at hc
    refine ⟨⟨?_, ?_, ?_, ?_, hc⟩, ?_, ?_, ?_⟩ <;> omega
  · rintro ⟨⟨h1, h2, h3, h4, hc⟩, hx0, hy0, hlast⟩
    have hxs := toInt_eq_toNat_of_nonneg hx0
    have hys := toInt_eq_toNat_of_nonneg hy0
    have hvres := m.vRes_lt
    have hxle : startPos.x.toNat ≤ x := by omega
    have hyle : startPos.y.toNat ≤ y := by omega
    rw [Sprite.texelAt_eq hxs hys hxle hyle] at hc
    refine ⟨?_, ?_, rfl, ?_, ?_, hc⟩ <;> omega

/-- **What is painted, for every sprite and every start.** -/
theorem blit_paints (hs : s.Loaded) (hh : 1 ≤ s.textureSize.2) (m : VideoMode) (startPos : Pair)
    (paint : Color → Color) :
    PaintsPage m (blit m startPos s paint) (s.Drawn startPos) fun x y =>
      paint (s.texelAt startPos x y) := by
  intro page hlen
  obtain ⟨page', hrun, hpaint⟩ := blitRows_paints hs paint startPos.x.toNat
    (show (startPos.y.toNat + s.textureSize.2 + (2 ^ 32 - 1)) % 2 ^ 32 ≤
      startPos.y.toNat + s.textureSize.2 by omega) (m.vRes + 1) startPos.y.toNat page (by omega)
    (by omega) (Nat.le_refl _) hlen
  rw [Nat.sub_self, Nat.zero_mul] at hrun
  refine ⟨page', hrun, (hpaint.congr fun x hx y hy => Sprite.fromRow_iff_drawn hs hh hx hy).recolour
    fun x hx y hy hS => ?_⟩
  obtain ⟨⟨h1, -, h3, -, -⟩, hx0, hy0, -⟩ := hS
  have hxs := toInt_eq_toNat_of_nonneg hx0
  have hys := toInt_eq_toNat_of_nonneg hy0
  rw [Sprite.texelAt_eq hxs hys (by omega) (by omega)]

instance : Nontrivial Color := ⟨0, 1, by decide⟩

/-- Drawing that is right reaches all that shows. -/
theorem Blits.drawn (hs : s.Loaded) (hh : 1 ≤ s.textureSize.2) (hb : Blits m startPos s) :
    ∀ x < m.hRes, ∀ y < m.vRes, s.Shows startPos x y → s.Drawn startPos x y :=
  Raster.painted_unique hb.texels (blit_paints hs hh m startPos id)

/-- **A sprite is drawn as it is to be seen exactly when** nothing of its last row shows, and
nothing at all if it begins left of the screen or above it. -/
theorem blits_iff (m : VideoMode) (startPos : Pair) (sprite : Sprite) (hs : sprite.Loaded)
    (hh : 1 ≤ sprite.textureSize.2) :
    Blits m startPos sprite ↔
      ∀ x < m.hRes, ∀ y < m.vRes, sprite.Shows startPos x y →
        0 ≤ startPos.x.toInt ∧ 0 ≤ startPos.y.toInt ∧
          y + 1 < startPos.y.toInt + sprite.textureSize.2 := by
  constructor
  · intro hb x hx y hy hS
    exact (hb.drawn hs hh x hx y hy hS).2
  · intro hshows
    have hset : ∀ x < m.hRes, ∀ y < m.vRes,
        (sprite.Drawn startPos x y ↔ sprite.Shows startPos x y) :=
      fun x hx y hy => ⟨fun h => h.1, fun h => ⟨h, hshows x hx y hy h⟩⟩
    constructor
    · intro page hlen
      obtain ⟨page', hrun, hpaint⟩ := blit_paints hs hh m startPos id page hlen
      exact ⟨page', hrun, hpaint.congr hset⟩
    · intro color page hlen
      obtain ⟨page', hrun, hpaint⟩ := blit_paints hs hh m startPos (fun _ => color) page hlen
      exact ⟨page', hrun, hpaint.congr hset⟩

end

/-- The graphics mode of the game. -/
def gameMode : VideoMode := ⟨1024, 768, by decide, by decide⟩

/-- A sprite of two by two white texels, the upper ones or all of them seen. -/
def whiteSprite (lower : Color) : Sprite where
  textureSize := (2, 2)
  invisColor := 0
  xOffset := 0
  yOffset := 0
  map := [0xffffff, 0xffffff, lower, lower]

theorem whiteSprite_loaded (lower : Color) : (whiteSprite lower).Loaded :=
  ⟨by simp [whiteSprite], by simp [whiteSprite], rfl⟩

/-- A sprite with a transparent last row, at the middle of the screen. -/
theorem blits_iff_whiteSprite : Blits gameMode ⟨512, 384⟩ (whiteSprite 0) := by
  refine (blits_iff gameMode ⟨512, 384⟩ (whiteSprite 0) (whiteSprite_loaded 0) (by decide)).mpr ?_
  rintro x - y - ⟨h1, h2, h3, h4, hc⟩
  refine ⟨by decide, by decide, ?_⟩
  change 0 ≤ (x : ℤ) - 512 at h1
  change (x : ℤ) - 512 < 2 at h2
  change 0 ≤ (y : ℤ) - 384 at h3
  change (y : ℤ) - 384 < 2 at h4
  change (y : ℤ) + 1 < 384 + 2
  by_contra hlast
  obtain rfl : y = 385 := by omega
  obtain rfl | rfl : x = 512 ∨ x = 513 := by omega
  · exact hc (by decide)
  · exact hc (by decide)

/-- Of a sprite at the corner of the screen the last row is lost, and one that begins a
column to the left is lost as a whole. -/
theorem whiteSprite_not_blits :
    ¬ Blits gameMode ⟨0, 0⟩ (whiteSprite 0xffffff) ∧
      ¬ Blits gameMode ⟨-1, 0⟩ (whiteSprite 0xffffff) := by
  constructor
  · intro hb
    have hd := hb.drawn (whiteSprite_loaded _) (by decide) 0 (by decide) 1 (by decide) (by decide)
    exact absurd hd.2.2.2 (by decide)
  · intro hb
    have hd := hb.drawn (whiteSprite_loaded _) (by decide) 0 (by decide) 0 (by decide) (by decide)
    exact absurd hd.2.1 (by decide)

end OperationMinix
