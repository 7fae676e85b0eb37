import Mathlib.Data.Rat.Floor
import Mathlib.Tactic.Linarith
import OperationMinix.Lib.VideoGraphics
import OperationMinix.Runs.Cache

/-!
# Scaling a sprite

`draw_rect_sprite` goes through the part of the sprite that is on the screen, row by row,
and leaves out the columns that a wall hides.  The colour of the last texel is kept for
the pixels that follow, as long as they have the same column of the sprite.  It is kept
from row to row as well, although the row of the sprite is then another one.  This is not
seen unless all the columns that are not hidden show the same column of the sprite.

## Main definitions

* `drawRectSprite` — `draw_rect_sprite`, as the list of the pixels that it sets.
* `SpriteAxis.Shows` — which place of the sprite is seen at which place of the screen.
* `SamplesEach` — what is set is what every pixel on its own would be.

## Main results

* `drawRectSprite_pixels` — the pixels are those of a cache of one entry.
* `drawRectSprite_samples_iff` — **the cache is right exactly when** no single column of the
  sprite is stretched over all that is seen, or its colours are the same in all rows.
-/

namespace OperationMinix

set_option linter.unusedSectionVars false

section

variable {K T : Type*} [Field K] [LinearOrder K] [FloorRing K]

/-- What `draw_rect_sprite` is called with. -/
structure SpriteRender (K : Type*) where
  endPos : ℤ × ℤ
  offset : ℤ × ℤ
  boundingBox : ℤ × ℤ
  sprite : Sprite
  distance : K
  factor : K

/-- What `draw_rect_sprite` computes before its loops, for the columns or for the rows. -/
structure SpriteAxis (K : Type*) where
  /-- `start_col` or `start_line`. -/
  start : ℤ
  /-- `end_pos->x` or `end_pos->y`. -/
  stop : ℤ
  /-- `start_tex_x` or `start_tex_y`. -/
  startTex : K
  /-- `step_x` or `step_y`. -/
  step : K
  /-- `texture_size.x` or `texture_size.y`. -/
  size : ℕ

/-- The end of a sprite on the screen. -/
def clampStop (res : ℕ) (stop : ℤ) : ℤ :=
  let stop := if stop ≥ res then (res : ℤ) - 1 else stop
  if stop < 0 then 0 else stop

/-- The start of a sprite on the screen. -/
def clampStart (res : ℕ) (start : ℤ) : ℤ :=
  let start := if start < 0 then 0 else start
  if start ≥ res then (res : ℤ) - 1 else start

/-- The columns or the rows of a sprite; `extent` is `MAX_SPRITE_WIDTH` or
`MAX_SPRITE_HEIGHT`. -/
def spriteAxis (res : ℕ) (extent stop offset box spriteOffset : ℤ) (size : ℕ) : SpriteAxis K :=
  let start :=
    clampStart res ((512 * box * spriteOffset + extent * offset).tdiv (512 * extent))
  let startTex : K := (start - offset / 512) * extent / box - spriteOffset
  { start, stop := clampStop res stop, size
    startTex := if startTex < 0 then 0 else startTex
    step := extent / box }

/-- The columns of a sprite. -/
def SpriteRender.columns (r : SpriteRender K) (hRes : ℕ) : SpriteAxis K :=
  spriteAxis hRes maxSpriteWidth r.endPos.1 r.offset.1 r.boundingBox.1 r.sprite.xOffset
    r.sprite.textureSize.1

/-- The rows of a sprite. -/
def SpriteRender.rows (r : SpriteRender K) (vRes : ℕ) : SpriteAxis K :=
  spriteAxis vRes maxSpriteHeight r.endPos.2 r.offset.2 r.boundingBox.2 r.sprite.yOffset
    r.sprite.textureSize.2

/-- `g_data.lines[i].dist`. -/
def lineDist (lines : List (ScreenLine K T)) (i : ℤ) : K := (lines.getD i.toNat .zero).dist

/-- No wall hides the sprite in column `i`. -/
def SpriteRender.unhidden (r : SpriteRender K) (lines : List (ScreenLine K T)) (i : ℤ) : Bool :=
  lineDist lines i < 0 ∨ lineDist lines i ≥ r.distance

/-- The variables of `draw_rect_sprite` that are kept from pixel to pixel, and the pixels
that are set: column, row and colour. -/
structure SpriteVars where
  oldTextureX : ℤ
  color : Color
  dColor : Color
  pixels : List (ℤ × ℤ × Color)

/-- The variables before the loops. -/
def SpriteVars.start : SpriteVars where
  oldTextureX := -1
  color := 0
  dColor := 0
  pixels := []

/-- `set_px`. -/
def SpriteVars.setPx (i line : ℤ) (color : Color) (v : SpriteVars) : SpriteVars :=
  { v with pixels := v.pixels ++ [(i, line, color)] }

/-- The colour of a texel at the distance of the sprite. -/
def SpriteRender.shade (r : SpriteRender K) (color : Color) : Color :=
  if r.distance ≥ startDarken then darken color r.factor else color

/-- The body of the inner loop of `draw_rect_sprite`, for a pixel that no wall hides. -/
def spritePixel (r : SpriteRender K) (line realTextureY : ℤ) (v : SpriteVars)
    (i textureX : ℤ) : SpriteVars :=
  if v.oldTextureX ≠ textureX then
    let color := r.sprite.texel (textureX + realTextureY)
    let v := { v with oldTextureX := textureX, color }
    if color ≠ r.sprite.invisColor then
      let dColor := r.shade color
      { v with dColor }.setPx i line dColor
    else v
  else if v.color ≠ r.sprite.invisColor then v.setPx i line v.dColor
  else v

/-- The inner loop of `draw_rect_sprite`, over `n` columns from `i` on. -/
def spriteColumns (r : SpriteRender K) (cols : SpriteAxis K) (lines : List (ScreenLine K T))
    (line realTextureY : ℤ) : ℕ → ℤ → K → SpriteVars → SpriteVars
  | 0, _, _, v => v
  | n + 1, i, countX, v =>
    let textureX := truncate countX
    if textureX ≥ cols.size then v
    else
      let v := if r.unhidden lines i then spritePixel r line realTextureY v i textureX else v
      spriteColumns r cols lines line realTextureY n (i + 1) (countX + cols.step) v

/-- The number of rounds of a loop from `start` to `stop`. -/
def SpriteAxis.rounds (a : SpriteAxis K) : ℕ := (a.stop + 1 - a.start).toNat

/-- The outer loop of `draw_rect_sprite`, over `n` rows from `line` on. -/
def spriteRows (r : SpriteRender K) (cols rows : SpriteAxis K) (lines : List (ScreenLine K T)) :
    ℕ → ℤ → K → SpriteVars → SpriteVars
  | 0, _, _, v => v
  | n + 1, line, countY, v =>
    let textureY := truncate countY
    if textureY ≥ rows.size then v
    else
      let realTextureY := textureY * r.sprite.textureSize.1
      let v := spriteColumns r cols lines line realTextureY cols.rounds cols.start cols.startTex v
      spriteRows r cols rows lines n (line + 1) (countY + rows.step) v

/-- `draw_rect_sprite`, with the pixels that it sets. -/
def drawRectSprite (hRes vRes : ℕ) (lines : List (ScreenLine K T)) (r : SpriteRender K) :
    List (ℤ × ℤ × Color) :=
  let cols := r.columns hRes
  let rows := r.rows vRes
  (spriteRows r cols rows lines rows.rounds rows.start rows.startTex .start).pixels

/-! ### Statements -/

/-- At place `i` of the screen, place `t` of the sprite is seen. -/
def SpriteAxis.Shows (a : SpriteAxis K) (i t : ℤ) : Prop :=
  a.start ≤ i ∧ i ≤ a.stop ∧ t = ⌊a.startTex + (i - a.start) * a.step⌋ ∧ 0 ≤ t ∧ t < a.size

/-- The colour that a texel puts on the screen; it is `none` for the transparent one. -/
def SpriteRender.sample (r : SpriteRender K) (tx ty : ℤ) : Option Color :=
  let color := r.sprite.texel (tx + ty * r.sprite.textureSize.1)
  if color ≠ r.sprite.invisColor then some (r.shade color) else none

/-- The pixels that are set are those that show a texel which no wall hides and which is not
transparent, and they get the colour of that texel. -/
def SamplesEach (hRes vRes : ℕ) (lines : List (ScreenLine K T)) (r : SpriteRender K) : Prop :=
  ∀ i line c, (i, line, c) ∈ drawRectSprite hRes vRes lines r ↔
    ∃ tx ty, (r.columns hRes).Shows i tx ∧ (r.rows vRes).Shows line ty ∧
      r.unhidden lines i ∧ r.sample tx ty = some c

/-- If what no wall hides of the sprite all shows its column `tx`, then the rows that are
seen have the same colour in that column. -/
def PlainColumn (hRes vRes : ℕ) (lines : List (ScreenLine K T)) (r : SpriteRender K) : Prop :=
  ∀ tx, (∃ i, (r.columns hRes).Shows i tx ∧ r.unhidden lines i) →
    (∀ i t, (r.columns hRes).Shows i t → r.unhidden lines i → t = tx) →
    ∀ line ty line' ty', (r.rows vRes).Shows line ty → (r.rows vRes).Shows line' ty' →
      r.sample tx ty = r.sample tx ty'

/-! ### The loops -/

/-- The rounds of a loop along an axis that are not cut short by the end of the sprite: the
places of the screen, each with its place of the sprite. -/
def reached (size : ℕ) (step : K) : ℕ → ℤ → K → List (ℤ × ℤ)
  | 0, _, _ => []
  | n + 1, i, count =>
    if truncate count ≥ size then []
    else (i, truncate count) :: reached size step n (i + 1) (count + step)

/-- The columns of an axis that are painted. -/
def SpriteRender.painted (r : SpriteRender K) (cols : SpriteAxis K)
    (lines : List (ScreenLine K T)) (n : ℕ) (i : ℤ) (count : K) : List (ℤ × ℤ) :=
  (reached cols.size cols.step n i count).filter fun c => r.unhidden lines c.1

theorem spriteColumns_eq (r : SpriteRender K) (cols : SpriteAxis K)
    (lines : List (ScreenLine K T)) (line realTextureY : ℤ) :
    ∀ (n : ℕ) (i : ℤ) (count : K) (v : SpriteVars),
      spriteColumns r cols lines line realTextureY n i count v =
        (r.painted cols lines n i count).foldl
          (fun v c => spritePixel r line realTextureY v c.1 c.2) v := by
  intro n
  induction n with
  | zero => intro i count v; rfl
  | succ n ih =>
    intro i count v
    rw [spriteColumns, SpriteRender.painted, reached]
    split
    · rfl
    · rw [ih, List.filter_cons]
      split
      · rfl
      · rfl

theorem spriteRows_eq (r : SpriteRender K) (cols rows : SpriteAxis K)
    (lines : List (ScreenLine K T)) :
    ∀ (n : ℕ) (line : ℤ) (count : K) (v : SpriteVars),
      spriteRows r cols rows lines n line count v =
        (reached rows.size rows.step n line count ×ˢ
          r.painted cols lines cols.rounds cols.start cols.startTex).foldl
          (fun v p => spritePixel r p.1.1 (p.1.2 * r.sprite.textureSize.1) v p.2.1 p.2.2) v := by
  intro n
  induction n with
  | zero => intro line count v; rfl
  | succ n ih =>
    intro line count v
    rw [spriteRows, reached]
    split
    · rfl
    · rw [ih, List.product_cons, List.foldl_append, spriteColumns_eq,
        List.foldl_map]

/-- The colour that a pixel gets when it shows the same column as the one before. -/
def SpriteVars.kept (r : SpriteRender K) (v : SpriteVars) : Option Color :=
  if v.color ≠ r.sprite.invisColor then some v.dColor else none

/-- What a colour puts at a place of the screen. -/
def put (i line : ℤ) (color : Option Color) : Option (ℤ × ℤ × Color) :=
  color.map fun c => (i, line, c)

/-- A pixel gets the colour that is kept when it shows the same column of the sprite, and
else its own, which is then kept. -/
theorem spritePixel_spec (r : SpriteRender K) (line ty : ℤ) (v : SpriteVars) (i tx : ℤ) :
    ∃ v', spritePixel r line (ty * r.sprite.textureSize.1) v i tx = v' ∧
      v'.oldTextureX = tx ∧
      v'.kept r = (if tx = v.oldTextureX then v.kept r else r.sample tx ty) ∧
      v'.pixels = v.pixels ++ (put i line (v'.kept r)).toList := by
  refine ⟨_, rfl, ?_⟩
  unfold spritePixel SpriteVars.kept SpriteRender.sample put SpriteVars.setPx
  by_cases hkey : tx = v.oldTextureX
  · subst hkey
    by_cases hcolor : v.color = r.sprite.invisColor <;> simp [hcolor]
  · have hne : v.oldTextureX ≠ tx := Ne.symm hkey
    by_cases hcolor : r.sprite.texel (tx + ty * r.sprite.textureSize.1) = r.sprite.invisColor <;>
      simp [hkey, hne, hcolor]

/-- The answers of the cache, for the rows and the columns that are painted. -/
def SpriteRender.answers (r : SpriteRender K) (k : ℤ) (b : Option Color)
    (l : List ((ℤ × ℤ) × ℤ × ℤ)) : List (Option Color) :=
  Runs.cached (fun p => p.2.2) (fun p => r.sample p.2.2 p.1.2) k b l

theorem foldl_spritePixel (r : SpriteRender K) :
    ∀ (l : List ((ℤ × ℤ) × ℤ × ℤ)) (v : SpriteVars),
      (l.foldl (fun v p => spritePixel r p.1.1 (p.1.2 * r.sprite.textureSize.1) v p.2.1 p.2.2)
          v).pixels =
        v.pixels ++ (l.zip (r.answers v.oldTextureX (v.kept r) l)).filterMap
          fun a => put a.1.2.1 a.1.1.1 a.2 := by
  intro l
  induction l with
  | nil => intro v; simp
  | cons p l ih =>
    intro v
    obtain ⟨v', hv', hold, hkept, hpixels⟩ := spritePixel_spec r p.1.1 p.1.2 v p.2.1 p.2.2
    have hhead : r.answers v.oldTextureX (v.kept r) (p :: l) =
        v'.kept r :: r.answers v'.oldTextureX (v'.kept r) l := by
      rw [SpriteRender.answers, Runs.cached, hkept, hold]
      split
      · rename_i hkey
        rw [← hkey]
        rfl
      · rfl
    rw [List.foldl_cons, hv', ih, hhead, hpixels, List.zip_cons_cons, List.append_assoc]
    congr 1
    rw [List.filterMap_cons]
    cases put p.2.1 p.1.1 (v'.kept r) <;> rfl

/-- **The pixels are those of a cache of one entry**, over the rows and the columns that are
painted. -/
theorem drawRectSprite_pixels (hRes vRes : ℕ) (lines : List (ScreenLine K T))
    (r : SpriteRender K) :
    ∃ b, drawRectSprite hRes vRes lines r =
      let cols := r.columns hRes
      let rows := r.rows vRes
      let l := reached rows.size rows.step rows.rounds rows.start rows.startTex ×ˢ
        r.painted cols lines cols.rounds cols.start cols.startTex
      (l.zip (r.answers (-1) b l)).filterMap fun a => put a.1.2.1 a.1.1.1 a.2 := by
  refine ⟨SpriteVars.kept r .start, ?_⟩
  rw [drawRectSprite, spriteRows_eq, foldl_spritePixel]
  rfl

end

section Exact

variable {K T : Type*} [Field K] [LinearOrder K] [IsStrictOrderedRing K] [FloorRing K]

/-- Along an axis the places of the sprite grow, so that no place that is inside comes after
the first one that is not. -/
theorem mem_reached (size : ℕ) {step : K} (hstep : 0 < step) :
    ∀ (n : ℕ) (i : ℤ) (count : K), 0 ≤ count → ∀ j t, (j, t) ∈ reached size step n i count ↔
      i ≤ j ∧ j < i + n ∧ t = ⌊count + (j - i) * step⌋ ∧ t < size := by
  intro n
  induction n with
  | zero =>
    intro i count _ j t
    simp [reached]
    omega
  | succ n ih =>
    intro i count hcount j t
    have hgrow : i ≤ j → ⌊count⌋ ≤ ⌊count + (j - i) * step⌋ := by
      intro hij
      have hij : (0 : K) ≤ j - i := sub_nonneg.mpr (Int.cast_le.mpr hij)
      exact Int.floor_mono (le_add_of_nonneg_right (mul_nonneg hij hstep.le))
    have hnext : count + step + (j - ((i + 1 : ℤ) : K)) * step = count + (j - i) * step := by
      push_cast
      ring
    rw [reached, truncate_of_nonneg hcount]
    split
    · rename_i hend
      constructor
      · nofun
      · rintro ⟨hij, -, rfl, hsize⟩
        exact absurd (hend.trans (hgrow hij)) (not_le.mpr hsize)
    · rename_i hend
      rw [List.mem_cons, ih (i + 1) (count + step) (add_nonneg hcount hstep.le), hnext,
        Prod.mk.injEq]
      constructor
      · rintro (⟨rfl, rfl⟩ | ⟨hij, hjn, ht, hsize⟩)
        · refine ⟨le_rfl, by omega, ?_, not_le.mp hend⟩
          rw [sub_self, zero_mul, add_zero]
        · exact ⟨by omega, by omega, ht, hsize⟩
      · rintro ⟨hij, hjn, ht, hsize⟩
        rcases hij.eq_or_lt with rfl | hij
        · rw [sub_self, zero_mul, add_zero] at ht
          exact .inl ⟨rfl, ht⟩
        · exact .inr ⟨by omega, by omega, ht, hsize⟩

theorem pairwise_reached (size : ℕ) {step : K} (hstep : 0 < step) :
    ∀ (n : ℕ) (i : ℤ) (count : K), 0 ≤ count →
      (reached size step n i count).Pairwise fun p q => p.1 < q.1 ∧ p.2 ≤ q.2 := by
  intro n
  induction n with
  | zero => intro i count _; exact List.Pairwise.nil
  | succ n ih =>
    intro i count hcount
    rw [reached]
    split
    · exact List.Pairwise.nil
    · have hcount' : 0 ≤ count + step := add_nonneg hcount hstep.le
      refine List.pairwise_cons.mpr ⟨?_, ih (i + 1) _ hcount'⟩
      rintro ⟨j, t⟩ hj
      obtain ⟨hij, -, rfl, -⟩ := (mem_reached size hstep n (i + 1) _ hcount' j t).mp hj
      refine ⟨by omega, ?_⟩
      rw [truncate_of_nonneg hcount]
      have hij : (0 : K) ≤ j - (i + 1 : ℤ) := sub_nonneg.mpr (Int.cast_le.mpr hij)
      exact Int.floor_mono (by nlinarith only [mul_nonneg hij hstep.le, hstep])

/-- The step of an axis goes on, and it starts inside the sprite. -/
structure SpriteAxis.Forward (a : SpriteAxis K) : Prop where
  startTex_nonneg : 0 ≤ a.startTex
  step_pos : 0 < a.step

theorem spriteAxis_forward (res : ℕ) {extent box : ℤ} (stop offset spriteOffset : ℤ) (size : ℕ)
    (hextent : 0 < extent) (hbox : 0 < box) :
    (spriteAxis res extent stop offset box spriteOffset size : SpriteAxis K).Forward where
  startTex_nonneg := by
    unfold spriteAxis
    dsimp only
    split
    · exact le_rfl
    · rename_i h
      exact not_lt.mp h
  step_pos := div_pos (Int.cast_pos.mpr hextent) (Int.cast_pos.mpr hbox)

/-- The rounds of the loop along an axis. -/
def SpriteAxis.drawn (a : SpriteAxis K) : List (ℤ × ℤ) :=
  reached a.size a.step a.rounds a.start a.startTex

theorem SpriteAxis.Forward.mem_drawn {a : SpriteAxis K} (h : a.Forward) (i t : ℤ) :
    (i, t) ∈ a.drawn ↔ a.Shows i t := by
  unfold drawn Shows rounds
  rw [mem_reached a.size h.step_pos _ _ _ h.startTex_nonneg]
  constructor
  · rintro ⟨hstart, hstop, ht, hsize⟩
    refine ⟨hstart, by omega, ht, ?_, hsize⟩
    have hi : (0 : K) ≤ i - a.start := sub_nonneg.mpr (Int.cast_le.mpr hstart)
    rw [ht]
    exact Int.floor_nonneg.mpr (add_nonneg h.startTex_nonneg (mul_nonneg hi h.step_pos.le))
  · rintro ⟨hstart, hstop, ht, -, hsize⟩
    exact ⟨hstart, by omega, ht, hsize⟩

theorem SpriteAxis.Forward.pairwise_drawn {a : SpriteAxis K} (h : a.Forward) :
    a.drawn.Pairwise fun p q => p.1 < q.1 ∧ p.2 ≤ q.2 :=
  pairwise_reached a.size h.step_pos _ _ _ h.startTex_nonneg

section

variable (lines : List (ScreenLine K T)) (r : SpriteRender K) {cols rows : SpriteAxis K}

/-- The pixels that are painted: the rows of the sprite, and its columns that no wall hides. -/
def SpriteRender.grid (cols rows : SpriteAxis K) : List ((ℤ × ℤ) × ℤ × ℤ) :=
  rows.drawn ×ˢ r.painted cols lines cols.rounds cols.start cols.startTex

theorem mem_painted (hcols : cols.Forward) (i tx : ℤ) :
    (i, tx) ∈ r.painted cols lines cols.rounds cols.start cols.startTex ↔
      cols.Shows i tx ∧ r.unhidden lines i := by
  rw [SpriteRender.painted, List.mem_filter]
  exact and_congr_left' (hcols.mem_drawn i tx)

theorem mem_grid (hcols : cols.Forward) (hrows : rows.Forward) (line ty i tx : ℤ) :
    ((line, ty), i, tx) ∈ r.grid lines cols rows ↔
      rows.Shows line ty ∧ cols.Shows i tx ∧ r.unhidden lines i := by
  rw [SpriteRender.grid, List.mem_product, hrows.mem_drawn, mem_painted lines r hcols]

/-- What a pixel shows on its own, as a matter of the pixels that are painted. -/
theorem sampled_iff_grid (hcols : cols.Forward) (hrows : rows.Forward) (i line : ℤ) (c : Color) :
    (∃ tx ty, cols.Shows i tx ∧ rows.Shows line ty ∧ r.unhidden lines i ∧
        r.sample tx ty = some c) ↔
      ∃ p ∈ r.grid lines cols rows,
        (p.2.1, p.1.1) = (i, line) ∧ r.sample p.2.2 p.1.2 = some c := by
  constructor
  · rintro ⟨tx, ty, htx, hty, hshown, hc⟩
    exact ⟨((line, ty), i, tx), (mem_grid lines r hcols hrows ..).mpr ⟨hty, htx, hshown⟩, rfl, hc⟩
  · rintro ⟨⟨⟨line', ty⟩, i', tx⟩, hp, heq, hc⟩
    obtain ⟨rfl, rfl⟩ := Prod.mk.inj heq
    obtain ⟨hty, htx, hshown⟩ := (mem_grid lines r hcols hrows ..).mp hp
    exact ⟨tx, ty, htx, hty, hshown, hc⟩

/-- Every pixel is painted once. -/
theorem nodup_grid (hcols : cols.Forward) (hrows : rows.Forward) :
    ((r.grid lines cols rows).map fun p => (p.2.1, p.1.1)).Nodup := by
  have hrow : rows.drawn.Nodup :=
    hrows.pairwise_drawn.imp fun h heq => h.1.ne (congrArg Prod.fst heq)
  have hcol : (r.painted cols lines cols.rounds cols.start cols.startTex).Nodup :=
    (hcols.pairwise_drawn.imp fun h heq => h.1.ne (congrArg Prod.fst heq)).filter _
  refine (hrow.product hcol).map_on ?_
  rintro ⟨⟨line, ty⟩, i, tx⟩ hp ⟨⟨line', ty'⟩, i', tx'⟩ hq heq
  obtain ⟨hty, htx, -⟩ := (mem_grid lines r hcols hrows line ty i tx).mp hp
  obtain ⟨hty', htx', -⟩ := (mem_grid lines r hcols hrows line' ty' i' tx').mp hq
  obtain ⟨rfl, rfl⟩ := Prod.mk.inj heq
  rw [hty.2.2.1, hty'.2.2.1, htx.2.2.1, htx'.2.2.1]

/-- The cache answers with the colours of the texels unless no column of the sprite but one
is painted. -/
theorem answers_eq_iff (hcols : cols.Forward) (hrows : rows.Forward) (b : Option Color) :
    r.answers (-1) b (r.grid lines cols rows) =
        (r.grid lines cols rows).map (fun p => r.sample p.2.2 p.1.2) ↔
      ∀ tx, (∃ i, cols.Shows i tx ∧ r.unhidden lines i) →
        (∀ i t, cols.Shows i t → r.unhidden lines i → t = tx) →
        ∀ line ty line' ty', rows.Shows line ty → rows.Shows line' ty' →
          r.sample tx ty = r.sample tx ty' := by
  have hsorted : (r.painted cols lines cols.rounds cols.start cols.startTex).Pairwise
      fun c d => c.2 ≤ d.2 :=
    (hcols.pairwise_drawn.imp fun h => h.2).filter _
  have hgrid := Runs.isChain_rows_iff (fun c : ℤ × ℤ => c.2)
    (fun tx (row : ℤ × ℤ) => r.sample tx row.2) rows.drawn hsorted
  rw [SpriteRender.answers, Runs.cached_eq_map_iff, and_iff_right]
  · refine hgrid.trans (forall_congr' fun tx => ?_)
    simp only [Prod.exists, Prod.forall, mem_painted lines r hcols, hrows.mem_drawn]
    constructor
    · rintro h ⟨i, hi⟩ hall line ty line' ty' hty hty'
      exact h ⟨i, tx, hi, rfl⟩ (fun i t hi => hall i t hi.1 hi.2) line ty hty line' ty' hty'
    · rintro h ⟨i, t, hi, rfl⟩ hall line ty hty line' ty' hty'
      exact h ⟨i, hi⟩ (fun i t' hi hi' => hall i t' ⟨hi, hi'⟩) line ty line' ty' hty hty'
  · -- no column is before the first one
    rintro ⟨⟨line, ty⟩, i, tx⟩ hp hkey
    have hmem := List.mem_of_mem_head? hp
    have htx : 0 ≤ tx := ((mem_grid lines r hcols hrows line ty i tx).mp hmem).2.1.2.2.2.1
    exact absurd hkey (by dsimp only; omega)

end

theorem mem_written {i line : ℤ} {c : Color}
    {l : List (((ℤ × ℤ) × ℤ × ℤ) × Option Color)} :
    (i, line, c) ∈ l.filterMap (fun a => put a.1.2.1 a.1.1.1 a.2) ↔
      ∃ p, (p, some c) ∈ l ∧ (p.2.1, p.1.1) = (i, line) := by
  rw [List.mem_filterMap]
  constructor
  · rintro ⟨⟨p, color⟩, hp, hput⟩
    obtain ⟨c', rfl, heq⟩ := Option.map_eq_some_iff.mp hput
    obtain ⟨hi, hline, rfl⟩ : p.2.1 = i ∧ p.1.1 = line ∧ c' = c := by simpa using heq
    exact ⟨p, hp, Prod.ext hi hline⟩
  · rintro ⟨p, hp, heq⟩
    obtain ⟨rfl, rfl⟩ := Prod.mk.inj heq
    exact ⟨(p, some c), hp, rfl⟩

/-- What is set is right exactly when the answers of the cache are. -/
theorem samplesEach_iff_answers (hRes vRes : ℕ) (lines : List (ScreenLine K T))
    (r : SpriteRender K) (hcols : (r.columns hRes).Forward) (hrows : (r.rows vRes).Forward) :
    ∃ b, SamplesEach hRes vRes lines r ↔
      let grid := r.grid lines (r.columns hRes) (r.rows vRes)
      r.answers (-1) b grid = grid.map fun p => r.sample p.2.2 p.1.2 := by
  obtain ⟨b, hpixels⟩ := drawRectSprite_pixels hRes vRes lines r
  refine ⟨b, ?_⟩
  have hlength : (r.answers (-1) b (r.grid lines (r.columns hRes) (r.rows vRes))).length = _ :=
    Runs.length_cached ..
  dsimp only
  rw [← Runs.eq_map_iff_writes (nodup_grid lines r hcols hrows) hlength]
  have hwritten : ∀ i line c, (i, line, c) ∈ drawRectSprite hRes vRes lines r ↔
      ∃ p, (p, some c) ∈ (r.grid lines (r.columns hRes) (r.rows vRes)).zip
          (r.answers (-1) b (r.grid lines (r.columns hRes) (r.rows vRes))) ∧
        (p.2.1, p.1.1) = (i, line) := by
    intro i line c
    rw [hpixels]
    exact mem_written
  have hsampled := sampled_iff_grid lines r hcols hrows
  constructor
  · rintro h ⟨i, line⟩ c
    rw [← hwritten, ← hsampled]
    exact h i line c
  · intro h i line c
    rw [hwritten, hsampled]
    exact h (i, line) c

/-- **The cache is right** exactly when no single column of the sprite is stretched over all
that is seen of it, or the colours of that column are the same in all rows that are seen. -/
theorem drawRectSprite_samples_iff (hRes vRes : ℕ) (lines : List (ScreenLine K T))
    (r : SpriteRender K) (hx : 0 < r.boundingBox.1) (hy : 0 < r.boundingBox.2) :
    SamplesEach hRes vRes lines r ↔ PlainColumn hRes vRes lines r := by
  have hcols : (r.columns hRes).Forward := spriteAxis_forward hRes _ _ _ _ (by decide) hx
  have hrows : (r.rows vRes).Forward := spriteAxis_forward vRes _ _ _ _ (by decide) hy
  obtain ⟨b, hanswers⟩ := samplesEach_iff_answers hRes vRes lines r hcols hrows
  exact hanswers.trans (answers_eq_iff lines r hcols hrows b)

end Exact

/-! ### At the edge of the screen -/

/-- A sprite of which `n` columns are on the screen, at its left edge. -/
def edgeRender (n : ℤ) : SpriteRender ℚ where
  endPos := (n, 424)
  offset := ((n - 80) * 512, 344 * 512)
  boundingBox := (80, 80)
  sprite :=
    { textureSize := (80, 80), invisColor := 0xffffff, xOffset := 0, yOffset := 0
      map := (List.range 6400).map (BitVec.ofNat 32) }
  distance := 10
  factor := 1 / 2

/-- No wall is seen in any column. -/
def openLines : List (ScreenLine ℚ Unit) := List.replicate 1024 { ScreenLine.zero with dist := -1 }

theorem unhidden_openLines (r : SpriteRender ℚ) {i : ℤ} (hi : i.toNat < 1024) :
    r.unhidden openLines i := by
  have hdist : lineDist openLines i = -1 := by
    rw [lineDist, openLines, List.getD_eq_getElem?_getD, List.getElem?_replicate, if_pos hi]
    rfl
  simp [SpriteRender.unhidden, hdist]

/-- A sprite of the size of its texture shows it as it is. -/
theorem shows_unscaled {res : ℕ} {k : ℤ} (stop : ℤ) (hk : k < res) (hres : 0 < res) (i t : ℤ) :
    (spriteAxis res 80 stop (k * 512) 80 0 80 : SpriteAxis ℚ).Shows i t ↔
      max 0 k ≤ i ∧ i ≤ clampStop res stop ∧ t = i - k ∧ 0 ≤ t ∧ t < 80 := by
  have hstart : clampStart res ((512 * 80 * 0 + 80 * (k * 512)).tdiv (512 * 80)) = max 0 k := by
    rw [show (512 * 80 * 0 + 80 * (k * 512) : ℤ) = k * (512 * 80) by ring,
      Int.mul_tdiv_cancel _ (by decide)]
    unfold clampStart
    dsimp only
    omega
  have htex : ((max 0 k : ℤ) - (k * 512 : ℤ) / 512) * (80 : ℤ) / (80 : ℤ) - (0 : ℤ) =
      ((max 0 k - k : ℤ) : ℚ) := by
    push_cast
    ring
  have hnonneg : ¬ ((max 0 k - k : ℤ) : ℚ) < 0 := by
    rw [not_lt, Int.cast_nonneg_iff]
    omega
  unfold spriteAxis SpriteAxis.Shows
  dsimp only
  rw [hstart, htex, if_neg hnonneg]
  have hfloor :
      ⌊((max 0 k - k : ℤ) : ℚ) + (i - (max 0 k : ℤ)) * ((80 : ℤ) / (80 : ℤ))⌋ = i - k := by
    rw [div_self (by norm_num), mul_one, ← Int.cast_sub, ← Int.cast_add, Int.floor_intCast]
    ring
  rw [hfloor]
  rfl

theorem edge_columns_shows (n : ℤ) (hn : n < 80) (i t : ℤ) :
    ((edgeRender n).columns 1024).Shows i t ↔
      max 0 (n - 80) ≤ i ∧ i ≤ clampStop 1024 n ∧ t = i - (n - 80) ∧ 0 ≤ t ∧ t < 80 :=
  shows_unscaled n (by omega) (by decide) i t

theorem edge_rows_shows (n line t : ℤ) :
    ((edgeRender n).rows 768).Shows line t ↔
      max 0 344 ≤ line ∧ line ≤ clampStop 768 424 ∧ t = line - 344 ∧ 0 ≤ t ∧ t < 80 :=
  shows_unscaled 424 (by decide) (by decide) line t

/-- With two columns on the screen all is well. -/
theorem drawRectSprite_samples_iff_edge : SamplesEach 1024 768 openLines (edgeRender 2) := by
  refine (drawRectSprite_samples_iff 1024 768 openLines (edgeRender 2) (by decide)
    (by decide)).mpr ?_
  rintro tx - hall
  have hshows := edge_columns_shows 2 (by decide)
  have h0 : (78 : ℤ) = tx :=
    hall 0 78 ((hshows 0 78).mpr (by decide)) (unhidden_openLines _ (by decide))
  have h1 : (79 : ℤ) = tx :=
    hall 1 79 ((hshows 1 79).mpr (by decide)) (unhidden_openLines _ (by decide))
  omega

/-- With one column on the screen, all rows are painted like the first one. -/
theorem edge_not_samplesEach : ¬ SamplesEach 1024 768 openLines (edgeRender 1) := by
  have hcols : ((edgeRender 1).columns 1024).Forward :=
    spriteAxis_forward 1024 _ _ _ _ (by decide) (by decide)
  have hrows : ((edgeRender 1).rows 768).Forward :=
    spriteAxis_forward 768 _ _ _ _ (by decide) (by decide)
  have hcol := edge_columns_shows 1 (by decide)
  obtain ⟨b, hanswers⟩ := samplesEach_iff_answers 1024 768 openLines _ hcols hrows
  rw [hanswers, answers_eq_iff openLines _ hcols hrows b]
  intro h
  have hsame := h 79 ⟨0, (hcol 0 79).mpr (by decide), unhidden_openLines _ (by decide)⟩
    (fun i t hi _ => by have := (hcol i t).mp hi; omega) 344 0 345 1
    ((edge_rows_shows 1 344 0).mpr (by decide)) ((edge_rows_shows 1 345 1).mpr (by decide))
  revert hsame
  decide +kernel

end OperationMinix
