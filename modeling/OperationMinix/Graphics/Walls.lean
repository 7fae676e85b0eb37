import OperationMinix.Graphics.Columns

/-!
# Painting the walls

`draw_walls` paints row by row.  Every column carries the place in its texture from row
to row, and a texel is only read when neither the column nor the pixel before has the
same one.

The rows of a column end with `draw_lower`, which is one more than the wall is high
unless it is cut off at the bottom of the screen.  The row too many is beyond the end of
the texture.  It is not painted as long as no other column reaches below it, because the
rows of the screen end before the lowest `draw_lower`.

## Main definitions

* `paintPixel`, `paintRow`, `drawWalls` — `draw_walls`, with the texels it reads.
* `ReadsTexture` — every texel that is read is inside the texture.
* `EndsTogether` — no wall that is not cut off ends above another.

## Main results

* `reads_iff_painted` — the texels read are inside exactly when the rows painted are.
* `painted_drawWalls` — **which row of the texture is painted in which row of the screen.**
* `drawWalls_reads_iff` — **the reads stay inside exactly when the walls end together.**
-/

namespace OperationMinix

set_option linter.unusedSectionVars false

section

variable {K T : Type*} [Field K] [LinearOrder K] [FloorRing K]

/-- The variables of `draw_walls`. -/
structure WallVars (T : Type*) where
  lastTex : Option T
  lastXIdx : ℤ
  lastYIdx : ℤ
  color : Color
  /-- The pixels that are set: column, row and colour. -/
  pixels : List (ℕ × ℤ × Color)
  /-- The texels that are read. -/
  reads : List ℤ
  /-- The values of `x_idx` and `y_idx` for the pixels. -/
  painted : List (ℤ × ℤ)

/-- The variables before the loop; `color` is assigned before it is read. -/
def WallVars.start : WallVars T where
  lastTex := none
  lastXIdx := -1
  lastYIdx := -1
  color := 0
  pixels := []
  reads := []
  painted := []

variable [DecidableEq T] (texOf : T → Sprite)

/-- A texel is read, and darkened. -/
def WallVars.load (tex : LineTex K T) (yIdx : ℤ) (v : WallVars T) : WallVars T :=
  let idx := maxSpriteWidth * yIdx + tex.texHitX
  let color := ((tex.tex.map texOf).map fun s => s.texel idx).getD 0
  { v with
    color := if tex.darken then darken color tex.darkenFactor else color
    reads := v.reads ++ [idx] }

/-- The colour of the next pixel of a column: the colour the column has, when it is still
in the same row of its texture, the colour of the pixel before, when it shows the same
texel, and else the texel. -/
def WallVars.fetch (l : ScreenLine K T) (yIdx : ℤ) (v : WallVars T) : WallVars T :=
  if l.texture.lastTexY ≠ yIdx then
    if l.texture.tex = v.lastTex ∧ v.lastXIdx = l.texture.texHitX ∧ v.lastYIdx = yIdx then v
    else v.load texOf l.texture yIdx
  else { v with color := l.color }

/-- The body of the loop of `draw_walls`, for a column of the screen and a row. -/
def paintPixel (line : ℤ) (col : ℕ) (l : ScreenLine K T) (v : WallVars T) :
    ScreenLine K T × WallVars T :=
  if l.drawHigher ≤ line ∧ l.drawLower ≥ line then
    let yIdx := truncate l.texture.texY
    let v := v.fetch texOf l yIdx
    ( { l with
        color := v.color
        texture := { l.texture with lastTexY := yIdx, texY := l.texture.texY + l.texture.step } },
      { v with
        pixels := v.pixels ++ [(col, line, v.color)]
        painted := v.painted ++ [(l.texture.texHitX, yIdx)]
        lastTex := l.texture.tex
        lastXIdx := l.texture.texHitX
        lastYIdx := yIdx } )
  else (l, v)

/-- The loop of `draw_walls` over the columns, from column `col` on. -/
def paintRow (line : ℤ) : ℕ → List (ScreenLine K T) → WallVars T →
    List (ScreenLine K T) × WallVars T
  | _, [], v => ([], v)
  | col, l :: ls, v =>
    let pixel := paintPixel texOf line col l v
    let rest := paintRow line (col + 1) ls pixel.2
    (pixel.1 :: rest.1, rest.2)

/-- The loop of `draw_walls` over `n` rows, from row `line` on. -/
def paintRows : ℕ → ℤ → List (ScreenLine K T) → WallVars T → WallVars T
  | 0, _, _, v => v
  | n + 1, line, ls, v =>
    let row := paintRow texOf line 0 ls v
    paintRows n (line + 1) row.1 row.2

/-- `draw_walls`, for the lines that `display_map` has filled. -/
def drawWalls (vRes : ℕ) (columns : List (Option (WallHit K T))) : WallVars T :=
  let bounds := wallBounds vRes columns
  paintRows texOf (bounds.2 - bounds.1).toNat bounds.1 (columns.map (columnLine vRes)) .start

/-! ### Statements -/

/-- A row or a column of a texture is inside. -/
def InTexture (i : ℤ) : Prop := 0 ≤ i ∧ i < 80

/-- Every texel that has been read is inside the texture. -/
def ReadsTexture (v : WallVars T) : Prop :=
  ∀ idx ∈ v.reads, 0 ≤ idx ∧ idx < maxSpriteWidth * maxSpriteHeight

/-- The lower end of a wall of the given height, whether it is on the screen or not. -/
def wallEnd (vRes lineHeight : ℕ) : ℤ := (vRes / 2 : ℕ) + (lineHeight - lineHeight / 2 : ℕ)

/-- No wall ends on the screen above the place where another one ends or is cut off. -/
def EndsTogether (vRes : ℕ) (columns : List (Option (WallHit K T))) : Prop :=
  ∀ w w', some w ∈ columns → some w' ∈ columns →
    ¬ wallEnd vRes w.lineHeight < min (wallEnd vRes w'.lineHeight) (vRes - 1)

/-! ### What is read and what is painted -/

/-- A texel is read unless its row is that of the pixel before in the column or on the
screen. -/
theorem fetch_cases (l : ScreenLine K T) (yIdx : ℤ) (v : WallVars T) :
    (v.fetch texOf l yIdx).painted = v.painted ∧
      (((v.fetch texOf l yIdx).reads = v.reads ∧
          (l.texture.lastTexY = yIdx ∨ v.lastYIdx = yIdx)) ∨
        (v.fetch texOf l yIdx).reads =
          v.reads ++ [maxSpriteWidth * yIdx + l.texture.texHitX]) := by
  unfold WallVars.fetch
  by_cases hstale : l.texture.lastTexY ≠ yIdx
  · rw [if_pos hstale]
    split
    · next hcached => exact ⟨rfl, Or.inl ⟨rfl, Or.inr hcached.2.2⟩⟩
    · exact ⟨rfl, Or.inr rfl⟩
  · rw [if_neg hstale]
    exact ⟨rfl, Or.inl ⟨rfl, Or.inl (not_not.mp hstale)⟩⟩

/-- A texel is read for every row of the texture that is new, so the first one beyond
its end is. -/
structure ReadInv (v : WallVars T) : Prop where
  sound : ∀ idx ∈ v.reads, ∃ p ∈ v.painted, idx = maxSpriteWidth * p.2 + p.1
  complete : ReadsTexture v → v.lastYIdx < 80 ∧ ∀ p ∈ v.painted, p.2 < 80

/-- The columns, between two pixels. -/
def ColumnsRead (v : WallVars T) (ls : List (ScreenLine K T)) : Prop :=
  ∀ l ∈ ls, InTexture l.texture.texHitX ∧ (ReadsTexture v → l.texture.lastTexY < 80)

/-- The texels that have been read after a fetch are those of the pixels painted so far and
of the one to come, and the row of that one is inside if they are. -/
theorem ReadInv.fetch {v : WallVars T} {l : ScreenLine K T} (h : ReadInv v)
    (hx : InTexture l.texture.texHitX) (hl : ReadsTexture v → l.texture.lastTexY < 80)
    (yIdx : ℤ) :
    (∀ idx ∈ (v.fetch texOf l yIdx).reads, ∃ p ∈ v.painted ++ [(l.texture.texHitX, yIdx)],
        idx = maxSpriteWidth * p.2 + p.1) ∧
      (ReadsTexture (v.fetch texOf l yIdx) → ReadsTexture v ∧ yIdx < 80) := by
  have hkept : ∀ idx ∈ v.reads, ∃ p ∈ v.painted ++ [(l.texture.texHitX, yIdx)],
      idx = maxSpriteWidth * p.2 + p.1 := by
    intro idx hidx
    obtain ⟨p, hp, heq⟩ := h.sound idx hidx
    exact ⟨p, List.mem_append_left _ hp, heq⟩
  unfold ReadsTexture
  rcases (fetch_cases texOf l yIdx v).2 with ⟨hsame, hold⟩ | hnew
  · rw [hsame]
    refine ⟨hkept, fun hin => ⟨hin, ?_⟩⟩
    rcases hold with hold | hold
    · exact hold ▸ hl hin
    · exact hold ▸ (h.complete hin).1
  · rw [hnew]
    constructor
    · intro idx hidx
      rcases List.mem_append.mp hidx with hidx | hidx
      · exact hkept idx hidx
      · exact ⟨(l.texture.texHitX, yIdx), List.mem_append_right _ (List.mem_singleton_self _),
          List.mem_singleton.mp hidx⟩
    · intro hin
      refine ⟨fun idx hidx => hin idx (List.mem_append_left _ hidx), ?_⟩
      have hlt := (hin _ (List.mem_append_right _ (List.mem_singleton_self _))).2
      have hx0 := hx.1
      unfold maxSpriteWidth maxSpriteHeight at hlt
      omega

/-- **One pixel.** -/
theorem ReadInv.paintPixel {v : WallVars T} {l : ScreenLine K T} (h : ReadInv v)
    (hx : InTexture l.texture.texHitX) (hl : ReadsTexture v → l.texture.lastTexY < 80) (line : ℤ)
    (col : ℕ) :
    let pixel := paintPixel texOf line col l v
    ReadInv pixel.2 ∧ ColumnsRead pixel.2 [pixel.1] ∧ (ReadsTexture pixel.2 → ReadsTexture v) := by
  intro pixel
  by_cases hrow : l.drawHigher ≤ line ∧ l.drawLower ≥ line
  · have hpixel : pixel = _ := if_pos hrow
    obtain ⟨hsound, hin⟩ := h.fetch texOf hx hl (truncate l.texture.texY)
    have hpaint : pixel.2.painted =
        v.painted ++ [(l.texture.texHitX, truncate l.texture.texY)] := by
      rw [hpixel]
      exact congrArg (· ++ _) (fetch_cases texOf l (truncate l.texture.texY) v).1
    have hreads : pixel.2.reads = (v.fetch texOf l (truncate l.texture.texY)).reads := by
      rw [hpixel]
    have hlast : pixel.2.lastYIdx = truncate l.texture.texY := by rw [hpixel]
    have hline : pixel.1.texture.lastTexY = truncate l.texture.texY ∧
        pixel.1.texture.texHitX = l.texture.texHitX := by
      rw [hpixel]
      exact ⟨rfl, rfl⟩
    have hinside : ReadsTexture pixel.2 → ReadsTexture v ∧ truncate l.texture.texY < 80 := by
      intro hread
      refine hin ?_
      unfold ReadsTexture at hread ⊢
      rwa [← hreads]
    clear_value pixel
    refine ⟨⟨?_, fun hread => ⟨?_, ?_⟩⟩, ?_, fun hread => (hinside hread).1⟩
    · rw [hreads, hpaint]
      exact hsound
    · rw [hlast]
      exact (hinside hread).2
    · intro p hp
      rw [hpaint] at hp
      rcases List.mem_append.mp hp with hp | hp
      · exact (h.complete (hinside hread).1).2 p hp
      · rw [List.mem_singleton.mp hp]
        exact (hinside hread).2
    · intro l' hl'
      rw [List.mem_singleton.mp hl', hline.1, hline.2]
      exact ⟨hx, fun hread => (hinside hread).2⟩
  · have hpixel : pixel = (l, v) := if_neg hrow
    rw [hpixel]
    refine ⟨h, ?_, id⟩
    intro l' hl'
    rw [List.mem_singleton.mp hl']
    exact ⟨hx, hl⟩

/-- **One row.** -/
theorem ReadInv.paintRow (line : ℤ) : ∀ (ls : List (ScreenLine K T)) (col : ℕ) (v : WallVars T),
    ReadInv v → ColumnsRead v ls →
      ReadInv (paintRow texOf line col ls v).2 ∧
        ColumnsRead (paintRow texOf line col ls v).2 (paintRow texOf line col ls v).1 ∧
        (ReadsTexture (paintRow texOf line col ls v).2 → ReadsTexture v) := by
  intro ls
  induction ls with
  | nil => intro col v hv hls; exact ⟨hv, hls, id⟩
  | cons l ls ih =>
    intro col v hv hls
    obtain ⟨hx, hl⟩ := hls l List.mem_cons_self
    obtain ⟨hpixel, hcolumn, hback⟩ := hv.paintPixel texOf hx hl line col
    have hrest : ColumnsRead (OperationMinix.paintPixel texOf line col l v).2 ls := by
      intro l' hl'
      obtain ⟨hx', hlast'⟩ := hls l' (List.mem_cons_of_mem _ hl')
      exact ⟨hx', fun hread => hlast' (hback hread)⟩
    obtain ⟨hrow, hcolumns, hback'⟩ := ih (col + 1) _ hpixel hrest
    refine ⟨hrow, ?_, fun hread => hback (hback' hread)⟩
    intro l' hl'
    rcases List.mem_cons.mp hl' with rfl | hl'
    · obtain ⟨hx', hlast'⟩ := hcolumn _ (List.mem_singleton_self _)
      exact ⟨hx', fun hread => hlast' (hback' hread)⟩
    · exact hcolumns l' hl'

/-- **All rows.** -/
theorem ReadInv.paintRows : ∀ (n : ℕ) (line : ℤ) (ls : List (ScreenLine K T)) (v : WallVars T),
    ReadInv v → ColumnsRead v ls → ReadInv (paintRows texOf n line ls v) := by
  intro n
  induction n with
  | zero => intro line ls v hv _; exact hv
  | succ n ih =>
    intro line ls v hv hls
    obtain ⟨hrow, hcolumns, -⟩ := hv.paintRow texOf line ls 0 v hls
    exact ih (line + 1) _ _ hrow hcolumns

/-! ### Which rows are painted -/

/-- The row of its texture that a column, as `display_map` has filled it, shows in a row
of the screen. -/
def texelRow (l₀ : ScreenLine K T) (line : ℤ) : ℤ :=
  truncate (l₀.texture.texY + ((line - l₀.drawHigher : ℤ) : K) * l₀.texture.step)

/-- What a row of the screen shows of a column. -/
def rowPaints (line : ℤ) (l₀ : ScreenLine K T) : List (ℤ × ℤ) :=
  if l₀.drawHigher ≤ line ∧ l₀.drawLower ≥ line then [(l₀.texture.texHitX, texelRow l₀ line)]
  else []

/-- What has become of a column when a row of the screen is due. -/
structure Due (line : ℤ) (l₀ l : ScreenLine K T) : Prop where
  higher : l.drawHigher = l₀.drawHigher
  lower : l.drawLower = l₀.drawLower
  hitX : l.texture.texHitX = l₀.texture.texHitX
  step : l.texture.step = l₀.texture.step
  texY : line ≤ l₀.drawLower + 1 → l.texture.texY =
    l₀.texture.texY + ((max 0 (line - l₀.drawHigher) : ℤ) : K) * l₀.texture.step

theorem Due.paintPixel {line : ℤ} {l₀ l : ScreenLine K T} (h : Due line l₀ l) (col : ℕ)
    (v : WallVars T) :
    Due (line + 1) l₀ (paintPixel texOf line col l v).1 ∧
      (paintPixel texOf line col l v).2.painted = v.painted ++ rowPaints line l₀ := by
  unfold OperationMinix.paintPixel rowPaints
  rw [h.higher, h.lower]
  by_cases hrow : l₀.drawHigher ≤ line ∧ l₀.drawLower ≥ line
  · rw [if_pos hrow, if_pos hrow]
    have hnow : max 0 (line - l₀.drawHigher) = line - l₀.drawHigher := by omega
    have hnext : max 0 (line + 1 - l₀.drawHigher) = line - l₀.drawHigher + 1 := by omega
    have htexY := h.texY (by omega)
    rw [hnow] at htexY
    refine ⟨⟨rfl, rfl, h.hitX, h.step, fun _ => ?_⟩, ?_⟩
    · show l.texture.texY + l.texture.step = _
      rw [hnext, htexY, h.step]
      push_cast
      ring
    · show (v.fetch texOf l (truncate l.texture.texY)).painted ++ _ = _
      rw [(fetch_cases texOf l _ v).1, h.hitX, texelRow, htexY]
  · rw [if_neg hrow, if_neg hrow, List.append_nil]
    refine ⟨⟨h.higher, h.lower, h.hitX, h.step, fun hend => ?_⟩, rfl⟩
    have hnow : max 0 (line - l₀.drawHigher) = max 0 (line + 1 - l₀.drawHigher) := by omega
    rw [← hnow]
    exact h.texY (by omega)

theorem Due.paintRow {line : ℤ} {ls₀ ls : List (ScreenLine K T)}
    (h : List.Forall₂ (Due line) ls₀ ls) : ∀ (col : ℕ) (v : WallVars T),
      List.Forall₂ (Due (line + 1)) ls₀ (paintRow texOf line col ls v).1 ∧
        (paintRow texOf line col ls v).2.painted = v.painted ++ ls₀.flatMap (rowPaints line) := by
  induction h with
  | nil => intro col v; exact ⟨.nil, (List.append_nil _).symm⟩
  | cons hl _ ih =>
    intro col v
    obtain ⟨hpixel, hpainted⟩ := hl.paintPixel texOf col v
    obtain ⟨hrow, hpainted'⟩ := ih (col + 1) _
    refine ⟨.cons hpixel hrow, ?_⟩
    rw [List.flatMap_cons, ← List.append_assoc, ← hpainted]
    exact hpainted'

/-- **Which row of the texture is painted in which row of the screen**, column by
column. -/
theorem Due.paintRows {ls₀ : List (ScreenLine K T)} : ∀ (n : ℕ) (line : ℤ)
    (ls : List (ScreenLine K T)) (v : WallVars T), List.Forall₂ (Due line) ls₀ ls →
      (paintRows texOf n line ls v).painted =
        v.painted ++ (List.range n).flatMap fun k : ℕ => ls₀.flatMap (rowPaints (line + k)) := by
  intro n
  induction n with
  | zero => intro line ls v _; exact (List.append_nil _).symm
  | succ n ih =>
    intro line ls v h
    obtain ⟨hrow, hpainted⟩ := Due.paintRow texOf h 0 v
    rw [OperationMinix.paintRows, ih (line + 1) _ _ hrow, hpainted, List.range_succ_eq_map,
      List.flatMap_cons, List.flatMap_map, List.append_assoc]
    congr 2
    · simp
    · congr 1
      funext k
      congr 2
      push_cast
      ring

end

section Exact

variable {K T : Type*} [Field K] [LinearOrder K] [IsStrictOrderedRing K] [FloorRing K]

/-! ### The lines of a wall -/

/-- The column of the texture is inside. -/
theorem inTexture_texHitX (rayDir : Vec K) (side : ℕ) (xHit : K) :
    InTexture (texHitX rayDir side xHit) := by
  have hlow : 0 ≤ xHit - ⌊xHit⌋ := sub_nonneg.mpr (Int.floor_le xHit)
  have hhigh : xHit - ⌊xHit⌋ < 1 := by linarith [Int.lt_floor_add_one xHit]
  have hhit : 0 ≤ truncate ((xHit - ⌊xHit⌋) * (maxSpriteWidth : K)) ∧
      truncate ((xHit - ⌊xHit⌋) * (maxSpriteWidth : K)) < 80 := by
    have hcast : ((maxSpriteWidth : ℤ) : K) = 80 := by norm_num [maxSpriteWidth]
    rw [hcast, truncate, if_pos (by positivity)]
    refine ⟨Int.floor_nonneg.mpr (by positivity), Int.floor_lt.mpr ?_⟩
    push_cast
    linarith
  unfold texHitX InTexture
  dsimp only
  split
  · unfold maxSpriteWidth at hhit ⊢
    omega
  · exact hhit

/-- The rows of the screen that a wall takes. -/
theorem fillLine_rows (vRes : ℕ) (w : WallHit K T) :
    (fillLine vRes w).drawHigher = max 0 ((vRes / 2 : ℕ) - (w.lineHeight / 2 : ℕ) : ℤ) ∧
      (fillLine vRes w).drawLower = min (wallEnd vRes w.lineHeight) (vRes - 1) := by
  unfold fillLine wallEnd
  dsimp only
  constructor
  · split <;> omega
  · split <;> split <;> omega

/-- The rows of its texture that a wall shows. -/
theorem texelRow_fillLine (vRes : ℕ) {w : WallHit K T} (hw : 1 ≤ w.lineHeight) {line : ℤ}
    (hline : (fillLine vRes w).drawHigher ≤ line) :
    0 ≤ texelRow (fillLine vRes w) line ∧
      (texelRow (fillLine vRes w) line < 80 ↔ line < wallEnd vRes w.lineHeight) := by
  rw [(fillLine_rows vRes w).1] at hline
  -- the row of the wall, counted from its upper end on or above the screen
  obtain ⟨k, hk⟩ : ∃ k : ℕ, (k : ℤ) = line - (vRes / 2 : ℕ) + (w.lineHeight / 2 : ℕ) :=
    Int.eq_ofNat_of_zero_le (by omega) |>.imp fun _ h => h.symm
  have hheight : (0 : K) < w.lineHeight := by exact_mod_cast hw
  have hrow : texelRow (fillLine vRes w) line = truncate ((k : K) * (80 / w.lineHeight)) := by
    have hrow' : ((k : ℤ) : K) = ((line - (vRes / 2 : ℕ) + (w.lineHeight / 2 : ℕ) : ℤ) : K) := by
      rw [hk]
    have hcast : ((maxSpriteHeight : ℤ) : K) = 80 := by norm_num [maxSpriteHeight]
    unfold texelRow fillLine
    dsimp only
    rw [hcast, ← add_mul, ← Int.cast_add, ← Int.cast_natCast k, hrow']
    congr 3
    ring
  have hpos : (0 : K) ≤ (k : K) * (80 / w.lineHeight) := by positivity
  rw [hrow, truncate, if_pos hpos]
  refine ⟨Int.floor_nonneg.mpr hpos, ?_⟩
  rw [Int.floor_lt, ← mul_div_assoc, div_lt_iff₀ hheight]
  have hiff : ((k : K) * 80 < ((80 : ℤ) : K) * w.lineHeight) ↔ k < w.lineHeight := by
    push_cast
    rw [mul_comm (80 : K), mul_lt_mul_iff_left₀ (by norm_num), Nat.cast_lt]
  rw [hiff]
  unfold wallEnd
  omega

/-- The rows of the screen that are painted. -/
theorem wallBounds_spec (vRes : ℕ) (columns : List (Option (WallHit K T))) :
    (wallBounds vRes columns).1 ≤ vRes ∧
      (∀ w, some w ∈ columns → (wallBounds vRes columns).1 ≤ (fillLine vRes w).drawHigher) ∧
      ∀ line, line < (wallBounds vRes columns).2 ↔
        line < 0 ∨ ∃ w, some w ∈ columns ∧ line < (fillLine vRes w).drawLower := by
  unfold wallBounds
  generalize hbounds : ((vRes : ℤ), (0 : ℤ)) = bounds
  rw [show (vRes : ℤ) = bounds.1 by rw [← hbounds], show (0 : ℤ) = bounds.2 by rw [← hbounds]]
  clear hbounds
  induction columns generalizing bounds with
  | nil => exact ⟨le_rfl, nofun, fun line => by simp⟩
  | cons column columns ih =>
    rw [List.foldl_cons]
    cases column with
    | none =>
      obtain ⟨hfirst, hall, hlast⟩ := ih bounds
      refine ⟨hfirst, fun w hw => hall w ?_, fun line => ?_⟩
      · simpa using hw
      · simpa using hlast line
    | some w =>
      dsimp only
      obtain ⟨hfirst, hall, hlast⟩ :=
        ih (if (fillLine vRes w).drawHigher < bounds.1 then (fillLine vRes w).drawHigher
            else bounds.1,
          if (fillLine vRes w).drawLower > bounds.2 then (fillLine vRes w).drawLower
            else bounds.2)
      dsimp only at hfirst hlast
      refine ⟨hfirst.trans ?_, fun w' hw' => ?_, fun line => ?_⟩
      · split <;> omega
      · rcases List.mem_cons.mp hw' with heq | hw'
        · rw [Option.some.inj heq]
          exact hfirst.trans (by split <;> omega)
        · exact hall w' hw'
      · rw [hlast]
        have hmax : line < (if (fillLine vRes w).drawLower > bounds.2 then
            (fillLine vRes w).drawLower else bounds.2) ↔
            line < bounds.2 ∨ line < (fillLine vRes w).drawLower := by split <;> omega
        simp only [hmax, List.mem_cons, Option.some.injEq, or_and_right, exists_or,
          exists_eq_left, or_assoc]

/-- The walls of a screen end together exactly when no row beyond its texture is painted
of any column. -/
theorem endsTogether_iff {vRes : ℕ} (hRes : 1 ≤ vRes) {columns : List (Option (WallHit K T))} :
    EndsTogether vRes columns ↔ ∀ line, (wallBounds vRes columns).1 ≤ line →
      line < (wallBounds vRes columns).2 → ∀ w, some w ∈ columns →
        (fillLine vRes w).drawHigher ≤ line → line ≤ (fillLine vRes w).drawLower →
          line < wallEnd vRes w.lineHeight := by
  obtain ⟨-, hhigher, hlower⟩ := wallBounds_spec vRes columns
  constructor
  · intro h line _ hline w hw hfirst hlast
    rw [(fillLine_rows vRes w).1] at hfirst
    rw [(fillLine_rows vRes w).2] at hlast
    by_contra hbeyond
    rcases (hlower line).mp hline with hneg | ⟨w', hw', hbelow⟩
    · omega
    · rw [(fillLine_rows vRes w').2] at hbelow
      exact h w w' hw hw' (by omega)
  · intro h w w' hw hw' hends
    -- the row right below the wall
    have hrow := h (wallEnd vRes w.lineHeight) ?_ ?_ w hw ?_ ?_
    · exact lt_irrefl _ hrow
    · refine (hhigher w hw).trans ?_
      rw [(fillLine_rows vRes w).1]
      unfold wallEnd
      omega
    · refine (hlower _).mpr (Or.inr ⟨w', hw', ?_⟩)
      rw [(fillLine_rows vRes w').2]
      exact hends
    · rw [(fillLine_rows vRes w).1]
      unfold wallEnd
      omega
    · rw [(fillLine_rows vRes w).2]
      omega

/-! ### The whole screen -/

variable [DecidableEq T] (texOf : T → Sprite) {vRes : ℕ} {columns : List (Option (WallHit K T))}

/-- The loop starts with no row of any column painted. -/
theorem due_start : List.Forall₂ (Due (wallBounds vRes columns).1)
    (columns.map (columnLine vRes)) (columns.map (columnLine vRes)) := by
  obtain ⟨hfirst, hall, -⟩ := wallBounds_spec vRes columns
  rw [List.forall₂_same]
  intro l hl
  obtain ⟨column, hcolumn, rfl⟩ := List.mem_map.mp hl
  have hle : (wallBounds vRes columns).1 ≤ (columnLine vRes column).drawHigher := by
    cases column with
    | none => exact hfirst
    | some w => exact hall w hcolumn
  refine ⟨rfl, rfl, rfl, rfl, fun _ => ?_⟩
  rw [max_eq_left (by omega), Int.cast_zero, zero_mul, add_zero]

theorem columnsRead_start : ColumnsRead (.start : WallVars T) (columns.map (columnLine vRes)) := by
  intro l hl
  obtain ⟨column, -, rfl⟩ := List.mem_map.mp hl
  cases column with
  | none => exact ⟨⟨le_rfl, (by norm_num : (0 : ℤ) < 80)⟩, fun _ => (by norm_num : (0 : ℤ) < 80)⟩
  | some w => exact ⟨inTexture_texHitX _ _ _, fun _ => (by norm_num : (-1 : ℤ) < 80)⟩

theorem readInv_drawWalls : ReadInv (drawWalls texOf vRes columns) :=
  ReadInv.paintRows texOf _ _ _ _
    ⟨nofun, fun _ => ⟨(by norm_num : (-1 : ℤ) < 80), nofun⟩⟩ columnsRead_start

/-- **What is painted**: every wall, in the rows of the screen that it takes. -/
theorem mem_painted_drawWalls (hRes : 1 ≤ vRes) {p : ℤ × ℤ} :
    p ∈ (drawWalls texOf vRes columns).painted ↔ ∃ line,
      ((wallBounds vRes columns).1 ≤ line ∧ line < (wallBounds vRes columns).2) ∧
      ∃ w, some w ∈ columns ∧
        ((fillLine vRes w).drawHigher ≤ line ∧ line ≤ (fillLine vRes w).drawLower) ∧
        p = ((fillLine vRes w).texture.texHitX, texelRow (fillLine vRes w) line) := by
  have hpainted : (drawWalls texOf vRes columns).painted = _ :=
    Due.paintRows texOf _ _ _ .start due_start
  have hrow : ∀ line, p ∈ (columns.map (columnLine vRes)).flatMap (rowPaints line) ↔
      ∃ w, some w ∈ columns ∧
        ((fillLine vRes w).drawHigher ≤ line ∧ line ≤ (fillLine vRes w).drawLower) ∧
        p = ((fillLine vRes w).texture.texHitX, texelRow (fillLine vRes w) line) := by
    intro line
    rw [List.mem_flatMap]
    constructor
    · rintro ⟨l, hl, hp⟩
      obtain ⟨column, hcolumn, rfl⟩ := List.mem_map.mp hl
      unfold rowPaints at hp
      split at hp
      · next hvisible =>
        cases column with
        | none =>
          -- a column without a wall is below the screen
          have hbelow : (vRes : ℤ) ≤ line := hvisible.1
          have habove : line ≤ 0 := hvisible.2
          omega
        | some w => exact ⟨w, hcolumn, hvisible, List.mem_singleton.mp hp⟩
      · cases hp
    · rintro ⟨w, hw, hvisible, rfl⟩
      refine ⟨fillLine vRes w, List.mem_map.mpr ⟨some w, hw, rfl⟩, ?_⟩
      rw [rowPaints, if_pos hvisible]
      exact List.mem_singleton_self _
  rw [hpainted]
  simp only [WallVars.start, List.nil_append, List.mem_flatMap, List.mem_range]
  constructor
  · rintro ⟨k, hk, hp⟩
    exact ⟨_, by omega, (hrow _).mp (List.mem_flatMap.mpr hp)⟩
  · rintro ⟨line, hline, hp⟩
    refine ⟨(line - (wallBounds vRes columns).1).toNat, by omega, ?_⟩
    rw [show (wallBounds vRes columns).1 + ((line - (wallBounds vRes columns).1).toNat : ℤ) = line
      by omega]
    exact List.mem_flatMap.mp ((hrow line).mpr hp)

/-- **The reads stay inside the texture exactly when the walls end together.**  For every
height of the screen and all columns with walls of a height of `1` or more: every texel
that `draw_walls` reads is inside the texture, and every row of a texture that it paints
is, if and only if no wall ends on the screen above the place where another ends or is
cut off. -/
theorem drawWalls_reads_iff (hRes : 1 ≤ vRes)
    (hheights : ∀ w, some w ∈ columns → 1 ≤ w.lineHeight) :
    (ReadsTexture (drawWalls texOf vRes columns) ↔ EndsTogether vRes columns) ∧
      ((∀ p ∈ (drawWalls texOf vRes columns).painted, InTexture p.1 ∧ InTexture p.2) ↔
        EndsTogether vRes columns) := by
  have hpaints : (∀ p ∈ (drawWalls texOf vRes columns).painted, p.2 < 80) ↔
      EndsTogether vRes columns := by
    rw [endsTogether_iff hRes]
    constructor
    · intro h line hfirst hlast w hw hhigher hlower
      have hp := h _ ((mem_painted_drawWalls texOf hRes).mpr
        ⟨line, ⟨hfirst, hlast⟩, w, hw, ⟨hhigher, hlower⟩, rfl⟩)
      exact (texelRow_fillLine vRes (hheights w hw) hhigher).2.mp hp
    · intro h p hp
      obtain ⟨line, ⟨hfirst, hlast⟩, w, hw, ⟨hhigher, hlower⟩, rfl⟩ :=
        (mem_painted_drawWalls texOf hRes).mp hp
      exact (texelRow_fillLine vRes (hheights w hw) hhigher).2.mpr
        (h line hfirst hlast w hw hhigher hlower)
  have hin : ∀ p ∈ (drawWalls texOf vRes columns).painted, InTexture p.1 ∧ 0 ≤ p.2 := by
    intro p hp
    obtain ⟨line, -, w, hw, ⟨hhigher, -⟩, rfl⟩ := (mem_painted_drawWalls texOf hRes).mp hp
    exact ⟨inTexture_texHitX _ _ _, (texelRow_fillLine vRes (hheights w hw) hhigher).1⟩
  have hread : ReadInv (drawWalls texOf vRes columns) := readInv_drawWalls texOf
  constructor
  · rw [← hpaints]
    refine ⟨fun h => (hread.complete h).2, fun h idx hidx => ?_⟩
    obtain ⟨q, hq, rfl⟩ := hread.sound idx hidx
    obtain ⟨⟨hx0, hx⟩, hy0⟩ := hin q hq
    have hy := h q hq
    unfold maxSpriteWidth maxSpriteHeight
    omega
  · rw [← hpaints]
    exact ⟨fun h p hp => (h p hp).2.2, fun h p hp => ⟨(hin p hp).1, (hin p hp).2, h p hp⟩⟩

end Exact

/-! ### Two walls of different heights -/

/-- A wall of a height, seen from the front. -/
def wallOf (lineHeight : ℕ) : Option (WallHit ℚ Unit) :=
  some
    { lineHeight, rayDir := ⟨1, 0⟩, side := 0, xHit := 1 / 2, dist := 10, darkenFactor := 1 / 2
      tex := () }

/-- A texture of one colour. -/
def plainTexture : Unit → Sprite := fun _ =>
  { textureSize := (80, 80), invisColor := 0, xOffset := 0, yOffset := 0, map := [] }

/-- Two walls of the same height. -/
theorem drawWalls_reads_iff_even :
    (1 ≤ 10 ∧ ∀ w, some w ∈ [wallOf 4, wallOf 4] → 1 ≤ w.lineHeight) ∧
      (ReadsTexture (drawWalls plainTexture 10 [wallOf 4, wallOf 4]) ↔
        EndsTogether 10 [wallOf 4, wallOf 4]) ∧
      ((∀ p ∈ (drawWalls plainTexture 10 [wallOf 4, wallOf 4]).painted,
        InTexture p.1 ∧ InTexture p.2) ↔ EndsTogether 10 [wallOf 4, wallOf 4]) := by
  have hheights : ∀ w, some w ∈ [wallOf 4, wallOf 4] → 1 ≤ w.lineHeight := by
    intro w hw
    simp only [wallOf, List.mem_cons, List.not_mem_nil, or_false, Option.some.injEq, or_self] at hw
    rw [hw]
    decide
  exact ⟨⟨by decide, hheights⟩, drawWalls_reads_iff plainTexture (by decide) hheights⟩

/-- The lower wall is painted one row too far, because the higher one reaches below it. -/
theorem uneven_not_readsTexture :
    ¬ ReadsTexture (drawWalls plainTexture 10 [wallOf 2, wallOf 4]) := by
  unfold ReadsTexture
  decide +kernel

end OperationMinix
