import OperationMinix.Game.Everyone
import OperationMinix.Graphics.Project
import OperationMinix.Lib.Blit
import OperationMinix.Lib.RectSprite
import OperationMinix.Runs.Layers

/-!
# What is painted over the walls

`render_player` sets up the picture of a player, seen from one of eight sides, and two bars over
its head; `render_pickup` sets up the picture of a pickup.  They are painted the farthest first,
each only in the columns whose wall is behind it.  `set_px` does not look where it writes, and
neither do the functions that call it here: the ends of a picture are cut to the screen, those
of a bar are cut before they are converted to 16 bits without a sign, and a bar whose end comes
before its start would be as wide as a number of 16 bits can be.

Health and armour are in range for everyone, so a bar never ends before it starts; the
animations are in order, so every picture that is asked for is there.

## Main definitions

* `renderPlayer`, `renderPickup` — what is set up for a player and a pickup.
* `drawDarkenRect`, `renderPixels`, `renderObjectRenders` — painting it.
* `renderScene` — what `render_game` paints over the walls.
* `Portrays` — every pixel shows the nearest thing there.

## Main results

* `renderPlayer_fits` — pictures and bars of a player that is fit.
* `scene_portrayed` — **in every game the scene is painted on the page, and every pixel shows
  the nearest thing there.**
-/

namespace OperationMinix

open Runs

set_option linter.unusedSectionVars false

section Model

variable {K T : Type*} [Field K] [LinearOrder K] [FloorRing K]

/-! ### What is set up -/

/-- The pictures that have been loaded. -/
structure Pictures where
  /-- By animation, side and frame. -/
  player : ℕ → ℕ → ℕ → Sprite
  /-- By kind and frame. -/
  pickup : PickupDetails → ℕ → Sprite

/-- `memset` of a `render_t`. -/
def Render.zero : Render K :=
  { hasSprite := false, sprite := none, color := 0, endPos := (0, 0), offset := (0, 0)
    boundingBox := (0, 0), distance := 0, factor := 0 }

/-- `round`: halves are rounded away from zero. -/
def roundAway (v : K) : ℤ := if 0 ≤ v then ⌊v + 1 / 2⌋ else -⌊-v + 1 / 2⌋

/-- `idx` of `render_player`: the side from which a player is seen. -/
def spriteIdx (l : Libm K) (relPosition : Vec K) (p2 : PlayerInfo K) : ℤ :=
  let ang := degree l relPosition p2.direction + 180
  let idx := (roundAway (ang / (45 : ℤ))).tmod 8
  -- the animation of a shot has no pictures from the front left and the front right
  if p2.currAnim = 4 ∧ (idx = 7 ∨ idx < 2) then 0 else idx

/-- `sprites[curr_anim][idx].sprite`; it is `none` behind one of the arrays. -/
def PlayerInfo.picture (pictures : Pictures) (p : PlayerInfo K) (idx : ℕ) : Option Sprite := do
  let views ← p.sprites[p.currAnim]?
  let a ← views[idx]?
  some (pictures.player p.currAnim idx a.curFrame)

/-- The bar of `render_player` that is filled to the part `rem`. -/
def renderBar (hRes vRes : ℕ) (playerRender : Render K) (rem distance : K) (color : Color) :
    Render K :=
  let spriteHeight := playerRender.boundingBox.2
  let spriteWidth := playerRender.boundingBox.1
  let barWidth := truncate ((spriteWidth : K) / 2)
  let initDraw := playerRender.endPos.1 - spriteWidth.tdiv 2 - barWidth.tdiv 2
  let maxDraw := truncate (initDraw + rem * barWidth)
  let yDraw := playerRender.endPos.2 - spriteHeight
  let yDrawEnd := truncate (playerRender.endPos.2 - spriteHeight * ((9 : ℤ) / 10) : K)
  { hasSprite := false, sprite := none, color, distance, factor := playerRender.factor
    offset := (clampStart hRes initDraw, clampStart vRes yDraw)
    endPos := (clampStart hRes maxDraw, clampStart vRes yDrawEnd)
    boundingBox := (barWidth, truncate ((spriteHeight : K) / 10)) }

variable (l : Libm K) (fov : ℤ) (m : VideoMode) (pictures : Pictures) (range : K)

/-- `render_player`: the player, its health and its armour. -/
def renderPlayer (p1 p2 : PlayerInfo K) : Option (Render K × Render K × Render K) :=
  let relPosition : Vec K := ⟨p2.position.x - p1.position.x, p2.position.y - p1.position.y⟩
  let idx := spriteIdx l relPosition p2
  match renderObject l fov m.hRes m.vRes p1 relPosition range .zero with
  | none => none
  | some playerRender =>
    let playerRender :=
      { playerRender with sprite := p2.picture pictures idx.toNat, hasSprite := true }
    let remHealth : K := p2.health / p2.maxHealth
    let remArmor : K := p2.armor / p2.maxArmor
    let color := healthColors.getD (healthIdx p2.health p2.maxHealth).toNat 0
    some (playerRender,
      renderBar m.hRes m.vRes playerRender remHealth playerRender.distance color,
      renderBar m.hRes m.vRes playerRender remArmor
        (playerRender.distance - 1 / (256 : ℤ)) 0x0e80ea)

/-- `render_pickup`. -/
def renderPickup (p1 : PlayerInfo K) (pickup : Pickup K) : Option (Render K) :=
  let relPosition : Vec K :=
    ⟨pickup.collider.center.x - p1.position.x, pickup.collider.center.y - p1.position.y⟩
  match renderObject l fov m.hRes m.vRes p1 relPosition range .zero with
  | none => none
  | some pickupRender =>
    some
      { pickupRender with
        sprite := some (pictures.pickup pickup.details pickup.animation.curFrame)
        hasSprite := true }

/-! ### Painting it -/

/-- The conversion to `uint16_t`. -/
def toU16 (z : ℤ) : ℕ := (z % 65536).toNat

/-- `draw_dists_hor_line`, with the pixels that it sets. -/
def drawDistsHorLine (lines : List (ScreenLine K T)) (x y len : ℕ) (color : Color) (dist : K) :
    List (ℤ × ℤ × Color) :=
  (List.range len).filterMap fun (i : ℕ) =>
    let column : ℤ := x + i
    let d := lineDist lines column
    if dist < d ∨ d < 0 then some (column, (y : ℤ), color) else none

/-- `draw_darken_rect`, with the pixels that it sets: its corners are converted, and so is the
length of a row. -/
def drawDarkenRect (lines : List (ScreenLine K T)) (x y xEnd yEnd : ℤ) (color : Color)
    (factor dist : K) : List (ℤ × ℤ × Color) :=
  let color := darken color factor
  let len := toU16 ((toU16 xEnd : ℤ) - toU16 x)
  (List.range (toU16 yEnd - toU16 y)).flatMap fun j =>
    drawDistsHorLine lines (toU16 x) (toU16 y + j) len color dist

/-- The body of the loop of `render_object_renders`, with the pixels that it sets; it is `none`
when the picture is not there. -/
def renderPixels (lines : List (ScreenLine K T)) (render : Render K) :
    Option (List (ℤ × ℤ × Color)) :=
  let distance := render.distance - 1 / 5
  if render.hasSprite then do
    let sprite ← render.sprite
    some (drawRectSprite m.hRes m.vRes lines
      { endPos := render.endPos, offset := render.offset, boundingBox := render.boundingBox
        sprite, distance, factor := render.factor })
  else
    some (drawDarkenRect lines render.offset.1 render.offset.2 render.endPos.1 render.endPos.2
      render.color render.factor distance)

/-- `set_px` for one pixel after the other. -/
def setPixels (pixels : List (ℤ × ℤ × Color)) (page : List Color) : Option (List Color) :=
  pixels.foldlM (fun page q => setPx m q.1.toNat q.2.1.toNat q.2.2 page) page

/-- `render_object_renders`. -/
def renderObjectRenders (lines : List (ScreenLine K T)) (renders : List (Render K))
    (page : List Color) : Option (List Color) :=
  renders.foldlM (fun page render => do setPixels m (← renderPixels m lines render) page) page

/-- What `render_game` paints over the walls; `renders` is its array, with what it holds at
first. -/
def renderScene (w : World K) (lines : List (ScreenLine K T)) (renders : List (Render K))
    (page : List Color) : Option (List Color) :=
  (setupRenders (renderPlayer l fov m pictures range w.player)
    (renderPickup l fov m pictures range w.player) w renders).bind fun r =>
      renderObjectRenders m lines (r.1.take r.2) page

/-! ### What is to be seen -/

/-- The colour that the last of some pixels at a place has. -/
def shownBy (pixels : List (ℤ × ℤ × Color)) (q : ℕ × ℕ) : Option Color :=
  pixels.foldl (fun (seen : Option Color) (p : ℤ × ℤ × Color) =>
    if p.1 = (q.1 : ℤ) ∧ p.2.1 = (q.2 : ℤ) then some p.2.2 else seen) none

/-- What a thing shows at a place, painted alone. -/
def Render.shows (lines : List (ScreenLine K T)) (render : Render K) (q : ℕ × ℕ) : Option Color :=
  shownBy ((renderPixels m lines render).getD []) q

/-- Everything that is set up for a world, as far as it has a distance. -/
def things (w : World K) : List (Render K) :=
  paintable (renderValues (renderPlayer l fov m pictures range w.player)
    (renderPickup l fov m pictures range w.player) w)

/-- Every pixel shows the nearest of the things that cover it, and where there is none what it
has shown before. -/
structure Portrays (lines : List (ScreenLine K T)) (vs : List (Render K))
    (page page' : List Color) : Prop where
  length : page'.length = page.length
  nearest : ∀ x < m.hRes, ∀ y < m.vRes, ∀ color,
    Layers.Nearest Render.distance (Render.shows m lines) vs (x, y) color →
      page'[x + y * m.hRes]? = some color
  elsewhere : ∀ x < m.hRes, ∀ y < m.vRes, (∀ v ∈ vs, v.shows m lines (x, y) = none) →
    page'[x + y * m.hRes]? = page[x + y * m.hRes]?

/-! ### Pixels on the page -/

/-- All pixels lie on the page. -/
def OnPage (m : VideoMode) (pixels : List (ℤ × ℤ × Color)) : Prop :=
  ∀ p ∈ pixels, (0 ≤ p.1 ∧ p.1 < m.hRes) ∧ 0 ≤ p.2.1 ∧ p.2.1 < m.vRes

theorem foldl_shown (pixels : List (ℤ × ℤ × Color)) (q : ℕ × ℕ) : ∀ seen : Option Color,
    pixels.foldl (fun (seen : Option Color) (p : ℤ × ℤ × Color) =>
      if p.1 = (q.1 : ℤ) ∧ p.2.1 = (q.2 : ℤ) then some p.2.2 else seen) seen =
        (shownBy pixels q).or seen := by
  unfold shownBy
  induction pixels with
  | nil => intro seen; rfl
  | cons p pixels ih =>
    intro seen
    rw [List.foldl_cons, List.foldl_cons, ih]
    split
    · rw [ih (some _), Option.or_assoc, Option.some_or]
    · rfl

theorem shownBy_cons (p : ℤ × ℤ × Color) (pixels : List (ℤ × ℤ × Color)) (q : ℕ × ℕ) :
    shownBy (p :: pixels) q =
      (shownBy pixels q).or (if p.1 = (q.1 : ℤ) ∧ p.2.1 = (q.2 : ℤ) then some p.2.2 else none) := by
  rw [shownBy, List.foldl_cons, foldl_shown]

variable {m : VideoMode}

/-- **Pixels on the page are set**, and a place shows the last one there. -/
theorem setPixels_spec : ∀ (pixels : List (ℤ × ℤ × Color)) (page : List Color), OnPage m pixels →
    page.length = m.hRes * m.vRes →
    ∃ page', setPixels m pixels page = some page' ∧ page'.length = page.length ∧
      ∀ x < m.hRes, ∀ y < m.vRes,
        page'[x + y * m.hRes]? = (shownBy pixels (x, y)).or page[x + y * m.hRes]? := by
  intro pixels
  induction pixels with
  | nil => intro page _ _; exact ⟨page, rfl, rfl, fun _ _ _ _ => rfl⟩
  | cons p pixels ih =>
    intro page hon hlen
    obtain ⟨⟨hx0, hx⟩, hy0, hy⟩ := hon p List.mem_cons_self
    have hxn : p.1.toNat < m.hRes := by omega
    have hyn : p.2.1.toNat < m.vRes := by omega
    have hset := setPx_eq p.2.2 hxn hyn hlen
    obtain ⟨page', hpage', hlen', hshown⟩ := ih (page.set (p.1.toNat + p.2.1.toNat * m.hRes) p.2.2)
      (fun q hq => hon q (List.mem_cons_of_mem p hq)) (by rw [List.length_set]; exact hlen)
    refine ⟨page', ?_, by rw [hlen', List.length_set], fun x hxm y hym => ?_⟩
    · unfold setPixels
      rw [List.foldlM_cons, hset]
      exact hpage'
    · have hpainted := Raster.painted_set (fun _ _ => p.2.2) hxn hyn hlen
      rw [hshown x hxm y hym, shownBy_cons, Option.or_assoc]
      congr 1
      by_cases hhere : p.1 = (x : ℤ) ∧ p.2.1 = (y : ℤ)
      · rw [if_pos hhere, Option.some_or]
        exact hpainted.inside x hxm y hym (by omega)
      · rw [if_neg hhere, Option.none_or]
        exact hpainted.outside x hxm y hym (by omega)

/-- A thing can be painted: its picture is there, and it is cut to the page. -/
def Render.Fits (m : VideoMode) (lines : List (ScreenLine K T)) (render : Render K) : Prop :=
  ∃ pixels, renderPixels m lines render = some pixels ∧ OnPage m pixels

/-- **Things that can be painted are**, one over the other. -/
theorem renderObjectRenders_spec (lines : List (ScreenLine K T)) :
    ∀ (renders : List (Render K)) (page : List Color), (∀ v ∈ renders, v.Fits m lines) →
    page.length = m.hRes * m.vRes →
    ∃ page', renderObjectRenders m lines renders page = some page' ∧ page'.length = page.length ∧
      ∀ x < m.hRes, ∀ y < m.vRes, page'[x + y * m.hRes]? =
        (Layers.painted (Render.shows m lines) renders (x, y)).or page[x + y * m.hRes]? := by
  intro renders
  induction renders with
  | nil => intro page _ _; exact ⟨page, rfl, rfl, fun _ _ _ _ => rfl⟩
  | cons v renders ih =>
    intro page hfits hlen
    obtain ⟨pixels, hpixels, hon⟩ := hfits v List.mem_cons_self
    obtain ⟨page₁, hpage₁, hlen₁, hshown₁⟩ := setPixels_spec pixels page hon hlen
    obtain ⟨page', hpage', hlen', hshown'⟩ := ih page₁
      (fun u hu => hfits u (List.mem_cons_of_mem v hu)) (hlen₁.trans hlen)
    refine ⟨page', ?_, hlen'.trans hlen₁, fun x hx y hy => ?_⟩
    · unfold renderObjectRenders
      rw [List.foldlM_cons, hpixels]
      simp only [Option.bind_eq_bind, Option.bind_some, hpage₁]
      exact hpage'
    · have hshows : v.shows m lines (x, y) = shownBy pixels (x, y) := by
        rw [Render.shows, hpixels, Option.getD_some]
      rw [hshown' x hx y hy, hshown₁ x hx y hy, Layers.painted_cons, Option.or_assoc, hshows]

/-! ### What is cut to the screen -/

theorem clampStart_mem {res : ℕ} (hres : 0 < res) (z : ℤ) :
    0 ≤ clampStart res z ∧ clampStart res z < res := by
  unfold clampStart
  dsimp only
  split_ifs <;> omega

theorem clampStart_mono {res : ℕ} (hres : 0 < res) {a b : ℤ} (h : a ≤ b) :
    clampStart res a ≤ clampStart res b := by
  unfold clampStart
  dsimp only
  split_ifs <;> omega

theorem clampStop_lt {res : ℕ} (hres : 0 < res) (z : ℤ) : clampStop res z < res := by
  unfold clampStop
  dsimp only
  split_ifs <;> omega

theorem toU16_of_mem {z : ℤ} (h : 0 ≤ z ∧ z < 65536) : toU16 z = z.toNat := by
  unfold toU16
  rw [Int.emod_eq_of_lt h.1 h.2]

/-- A bar that ends on the screen, and not before it starts. -/
structure BarOnScreen (m : VideoMode) (r : Render K) : Prop where
  across : 0 ≤ r.offset.1 ∧ r.offset.1 ≤ r.endPos.1 ∧ r.endPos.1 < m.hRes
  down : 0 ≤ r.offset.2 ∧ r.offset.2 ≤ r.endPos.2 ∧ r.endPos.2 < m.vRes

/-- **A bar on the screen is painted on the page.** -/
theorem BarOnScreen.fits {r : Render K} (h : BarOnScreen m r) (hbar : r.hasSprite = false)
    (lines : List (ScreenLine K T)) : r.Fits m lines := by
  obtain ⟨⟨hx0, hx, hxEnd⟩, hy0, hy, hyEnd⟩ := h
  have hh := m.hRes_lt
  have hv := m.vRes_lt
  refine ⟨_, by rw [renderPixels, hbar]; rfl, ?_⟩
  rintro ⟨i, line, color⟩ hp
  unfold drawDarkenRect at hp
  dsimp only at hp
  rw [toU16_of_mem (z := r.endPos.2) (by omega), toU16_of_mem (z := r.offset.2) (by omega),
    toU16_of_mem (z := r.endPos.1) (by omega), toU16_of_mem (z := r.offset.1) (by omega),
    toU16_of_mem (by omega)] at hp
  obtain ⟨j, hj, hp⟩ := List.mem_flatMap.mp hp
  unfold drawDistsHorLine at hp
  obtain ⟨k, hk, hp⟩ := List.mem_filterMap.mp hp
  rw [List.mem_range] at hj hk
  dsimp only at hp
  split at hp
  · obtain ⟨rfl, rfl, rfl⟩ : (r.offset.1.toNat : ℤ) + k = i ∧
        ((r.offset.2.toNat + j : ℕ) : ℤ) = line ∧ darken r.color r.factor = color := by
      simpa using hp
    dsimp only
    omega
  · cases hp

end Model

section Exact

variable {K T : Type*} [Field K] [LinearOrder K] [IsStrictOrderedRing K] [FloorRing K]
  {m : VideoMode}

/-- **A picture is painted on the page.** -/
theorem Render.fits_of_sprite {r : Render K} (hh : 0 < m.hRes) (hv : 0 < m.vRes)
    (hx : 0 < r.boundingBox.1) (hy : 0 < r.boundingBox.2) (hkind : r.hasSprite = true)
    (hpicture : r.sprite.isSome) (lines : List (ScreenLine K T)) : r.Fits m lines := by
  obtain ⟨sprite, hsprite⟩ := Option.isSome_iff_exists.mp hpicture
  refine ⟨_, by rw [renderPixels, hkind, hsprite]; rfl, ?_⟩
  generalize hr' : ({ endPos := r.endPos, offset := r.offset, boundingBox := r.boundingBox
                      sprite, distance := r.distance - 1 / 5, factor := r.factor } :
    SpriteRender K) = r'
  have hcols : (r'.columns m.hRes).Forward := by
    rw [← hr']
    exact spriteAxis_forward m.hRes _ _ _ _ (by decide) hx
  have hrows : (r'.rows m.vRes).Forward := by
    rw [← hr']
    exact spriteAxis_forward m.vRes _ _ _ _ (by decide) hy
  obtain ⟨b, hpixels⟩ := drawRectSprite_pixels m.hRes m.vRes lines r'
  rw [hpixels]
  rintro ⟨i, line, color⟩ hp
  obtain ⟨⟨⟨line', ty⟩, i', tx⟩, hmem, heq⟩ := mem_written.mp hp
  obtain ⟨rfl, rfl⟩ := Prod.mk.inj heq
  obtain ⟨hrow, hcol, -⟩ :=
    (mem_grid lines r' hcols hrows line' ty i' tx).mp (List.of_mem_zip hmem).1
  -- a pixel that is written is between the ends, which are cut to the screen
  have hleft := (clampStart_mem hh ((512 * r'.boundingBox.1 * r'.sprite.xOffset +
    maxSpriteWidth * r'.offset.1).tdiv (512 * maxSpriteWidth))).1
  have htop := (clampStart_mem hv ((512 * r'.boundingBox.2 * r'.sprite.yOffset +
    maxSpriteHeight * r'.offset.2).tdiv (512 * maxSpriteHeight))).1
  have hright := clampStop_lt hh r'.endPos.1
  have hbottom := clampStop_lt hv r'.endPos.2
  exact ⟨⟨hleft.trans hcol.1, hcol.2.1.trans_lt hright⟩, htop.trans hrow.1,
    hrow.2.1.trans_lt hbottom⟩

/-! ### A player that is fit -/

/-- Truncation does not go below a whole number. -/
theorem le_truncate {z : ℤ} {v : K} (h : (z : K) ≤ v) : z ≤ truncate v := by
  unfold truncate
  split
  · exact Int.le_floor.mpr h
  · have hceil : (z : K) ≤ ⌈v⌉ := h.trans (Int.le_ceil v)
    rw [← Int.ceil_neg, neg_neg]
    exact_mod_cast hceil

/-- **A bar that is not filled to less than nothing** ends on the screen, and not before it
starts. -/
theorem renderBar_onScreen (hh : 0 < m.hRes) (hv : 0 < m.vRes) {playerRender : Render K}
    (hx : 0 ≤ playerRender.boundingBox.1) (hy : 0 ≤ playerRender.boundingBox.2) {rem : K}
    (hrem : 0 ≤ rem) (distance : K) (color : Color) :
    BarOnScreen m (renderBar m.hRes m.vRes playerRender rem distance color) := by
  have hwidth : (0 : K) ≤ truncate ((playerRender.boundingBox.1 : K) / 2) := by
    have hhalf : ((0 : ℤ) : K) ≤ (playerRender.boundingBox.1 : K) / 2 := by
      rw [Int.cast_zero]
      exact div_nonneg (Int.cast_nonneg hx) zero_le_two
    exact_mod_cast le_truncate hhalf
  have hheight : (0 : K) ≤ playerRender.boundingBox.2 := Int.cast_nonneg hy
  refine ⟨⟨(clampStart_mem hh _).1, clampStart_mono hh ?_, (clampStart_mem hh _).2⟩,
    (clampStart_mem hv _).1, clampStart_mono hv ?_, (clampStart_mem hv _).2⟩
  · apply le_truncate
    exact le_add_of_nonneg_right (mul_nonneg hrem hwidth)
  · apply le_truncate
    push_cast
    linarith

/-- What `render_object` accepts is at least a pixel wide and high. -/
theorem renderObject_box {l : Libm K} {fov : ℤ} {hRes vRes : ℕ} {player : PlayerInfo K}
    {rel : Vec K} {range : K} {render r : Render K}
    (h : renderObject l fov hRes vRes player rel range render = some r) :
    0 < r.boundingBox.1 ∧ 0 < r.boundingBox.2 := by
  unfold renderObject at h
  dsimp only at h
  split_ifs at h with _ _ hwide
  rw [← Option.some.inj h]
  dsimp only
  omega

/-- The eight sides. -/
theorem spriteIdx_mem {l : Libm K} (hpi : 0 < l.pi)
    (hatan : ∀ y x, -l.pi ≤ l.atan2 y x ∧ l.atan2 y x ≤ l.pi) (rel : Vec K) (p : PlayerInfo K) :
    0 ≤ spriteIdx l rel p ∧ spriteIdx l rel p < 8 := by
  have hang : 0 ≤ degree l rel p.direction + 180 := by
    have hlow := (hatan (determinant rel p.direction) (prodInt rel p.direction)).1
    unfold degree
    rw [← sub_neg_eq_add, sub_nonneg, le_div_iff₀ hpi]
    linarith
  have hround : 0 ≤ roundAway ((degree l rel p.direction + 180) / (45 : ℤ)) := by
    have hquot : 0 ≤ (degree l rel p.direction + 180) / ((45 : ℤ) : K) :=
      div_nonneg hang (by norm_num)
    unfold roundAway
    rw [if_pos hquot]
    exact Int.floor_nonneg.mpr (by linarith)
  unfold spriteIdx
  dsimp only
  split
  · decide
  · exact ⟨Int.tmod_nonneg 8 hround, Int.tmod_lt_of_pos _ (by decide)⟩

omit [LinearOrder K] [IsStrictOrderedRing K] [FloorRing K] in
/-- The pictures of a player whose animations are in order are there. -/
theorem Animated.picture {p : PlayerInfo K} (h : Animated p) (pictures : Pictures) {idx : ℕ}
    (hidx : idx < 8) : (p.picture pictures idx).isSome := by
  have hanim : ∀ i < 6, ∃ v, (layout initPlayerAnims)[i]? = some v ∧ v.length = 8 := by decide
  obtain ⟨v, hv, hlen⟩ := hanim p.currAnim h.anim
  rw [← h.views, layout, List.getElem?_map] at hv
  obtain ⟨views, hviews, rfl⟩ := Option.map_eq_some_iff.mp hv
  rw [List.length_map] at hlen
  have hside : views[idx]? = some views[idx] := List.getElem?_eq_getElem (hlen ▸ hidx)
  unfold PlayerInfo.picture
  rw [hviews]
  simp [hside]

/-- **The picture and the bars of a player that is fit** can be painted. -/
theorem renderPlayer_fits (hh : 0 < m.hRes) (hv : 0 < m.vRes) {l : Libm K} (hpi : 0 < l.pi)
    (hatan : ∀ y x, -l.pi ≤ l.atan2 y x ∧ l.atan2 y x ≤ l.pi) (fov : ℤ) (pictures : Pictures)
    (range : K) (p1 : PlayerInfo K) {p2 : PlayerInfo K} (hfit : Fit p2)
    (lines : List (ScreenLine K T)) {r : Render K × Render K × Render K}
    (h : renderPlayer l fov m pictures range p1 p2 = some r) :
    r.1.Fits m lines ∧ r.2.1.Fits m lines ∧ r.2.2.Fits m lines := by
  unfold renderPlayer at h
  dsimp only at h
  split at h
  · cases h
  · next playerRender hrender =>
    obtain ⟨hx, hy⟩ := renderObject_box hrender
    obtain ⟨hlow, hhigh⟩ := spriteIdx_mem hpi hatan
      ⟨p2.position.x - p1.position.x, p2.position.y - p1.position.y⟩ p2
    have hpicture : (p2.picture pictures (spriteIdx l
        ⟨p2.position.x - p1.position.x, p2.position.y - p1.position.y⟩ p2).toNat).isSome :=
      hfit.animated.picture pictures (by omega)
    have hhealth : (0 : K) ≤ p2.health / p2.maxHealth :=
      div_nonneg (Int.cast_nonneg hfit.sound.vitals.health_nonneg)
        (Int.cast_nonneg hfit.sound.vitals.maxHealth_pos.le)
    have harmor : (0 : K) ≤ p2.armor / p2.maxArmor :=
      div_nonneg (Int.cast_nonneg hfit.sound.vitals.armor_nonneg)
        (Int.cast_nonneg hfit.sound.vitals.maxArmor_pos.le)
    rw [← Option.some.inj h]
    have hsprite := Render.fits_of_sprite
      (r := { playerRender with
        sprite := p2.picture pictures (spriteIdx l
          ⟨p2.position.x - p1.position.x, p2.position.y - p1.position.y⟩ p2).toNat
        hasSprite := true }) hh hv hx hy rfl hpicture lines
    exact ⟨hsprite,
      (renderBar_onScreen hh hv hx.le hy.le hhealth _ _).fits rfl lines,
      (renderBar_onScreen hh hv hx.le hy.le harmor _ _).fits rfl lines⟩

/-- **The picture of a pickup** can be painted. -/
theorem renderPickup_fits (hh : 0 < m.hRes) (hv : 0 < m.vRes) {l : Libm K} {fov : ℤ}
    {pictures : Pictures} {range : K} {p1 : PlayerInfo K} {pickup : Pickup K}
    (lines : List (ScreenLine K T)) {r : Render K}
    (h : renderPickup l fov m pictures range p1 pickup = some r) : r.Fits m lines := by
  unfold renderPickup at h
  dsimp only at h
  split at h
  · cases h
  · next pickupRender hrender =>
    obtain ⟨hx, hy⟩ := renderObject_box hrender
    rw [← Option.some.inj h]
    exact Render.fits_of_sprite
      (r := { pickupRender with
        sprite := some (pictures.pickup pickup.details pickup.animation.curFrame)
        hasSprite := true }) hh hv hx hy rfl rfl lines

/-- **Everything that is set up** can be painted when the enemies are fit. -/
theorem things_fit (hh : 0 < m.hRes) (hv : 0 < m.vRes) {l : Libm K} (hpi : 0 < l.pi)
    (hatan : ∀ y x, -l.pi ≤ l.atan2 y x ∧ l.atan2 y x ≤ l.pi) (fov : ℤ) (pictures : Pictures)
    (range : K) {w : World K} (hfit : ∀ p ∈ w.enemies, Fit p) (lines : List (ScreenLine K T)) :
    ∀ v ∈ things l fov m pictures range w, v.Fits m lines := by
  intro v hv'
  have hmem := (List.mem_filter.mp hv').1
  unfold renderValues at hmem
  rcases List.mem_append.mp hmem with hmem | hmem
  · obtain ⟨p, hp, hval⟩ := List.mem_flatMap.mp hmem
    unfold playerValues at hval
    split at hval
    · split at hval
      · cases hval
      · next playerRender healthRender armorRender heq =>
        obtain ⟨hsprite, hhealth, harmor⟩ :=
          renderPlayer_fits hh hv hpi hatan fov pictures range w.player (hfit p hp) lines heq
        simp only [List.mem_cons, List.not_mem_nil, or_false] at hval
        rcases hval with rfl | rfl | rfl
        · exact hsprite
        · exact hhealth
        · exact harmor
    · cases hval
  · obtain ⟨pickup, -, hval⟩ := List.mem_flatMap.mp hmem
    unfold pickupValues at hval
    split at hval
    · cases hval
    · exact renderPickup_fits hh hv lines (Option.mem_toList.mp hval)

/-! ### The scene -/

omit [IsStrictOrderedRing K] in
/-- What is painted are the things, sorted. -/
theorem setupRenders_take (l : Libm K) (fov : ℤ) (pictures : Pictures) (range : K) (w : World K)
    {renders : List (Render K)}
    (hlen : renders.length = 3 * w.enemies.length + w.pickups.pickups.length) :
    ∃ r, setupRenders (renderPlayer l fov m pictures range w.player)
        (renderPickup l fov m pictures range w.player) w renders = some r ∧
      r.1.take r.2 = Insertion.sort Render.distance (things l fov m pictures range w) := by
  rw [setupRenders_eq]
  have hvalues := length_renderValues (renderPlayer l fov m pictures range w.player)
    (renderPickup l fov m pictures range w.player) w
  have hroom : (things l fov m pictures range w).length ≤ renders.length :=
    (List.length_filter_le _ _).trans (hvalues.trans hlen.ge)
  obtain ⟨r, hr, hlists⟩ := Lists.foldlM _ [] (renders, 0) (.start renders) hroom
  refine ⟨r, hr, ?_⟩
  rw [hlists.array, hlists.size, List.take_left]
  rfl

/-- **The scene is painted** when the enemies are fit. -/
theorem renderScene_portrays (hh : 0 < m.hRes) (hv : 0 < m.vRes) {l : Libm K} (hpi : 0 < l.pi)
    (hatan : ∀ y x, -l.pi ≤ l.atan2 y x ∧ l.atan2 y x ≤ l.pi) (fov : ℤ) (pictures : Pictures)
    (range : K) {w : World K} (hfit : ∀ p ∈ w.enemies, Fit p) (lines : List (ScreenLine K T))
    {renders : List (Render K)}
    (hlen : renders.length = 3 * w.enemies.length + w.pickups.pickups.length)
    {page : List Color} (hpage : page.length = m.hRes * m.vRes) :
    ∃ page', renderScene l fov m pictures range w lines renders page = some page' ∧
      Portrays m lines (things l fov m pictures range w) page page' := by
  obtain ⟨r, hr, htake⟩ := setupRenders_take l fov pictures range w hlen
  have hall : ∀ v ∈ r.1.take r.2, v.Fits m lines := by
    rw [htake]
    intro v hv'
    exact things_fit hh hv hpi hatan fov pictures range hfit lines v
      ((Insertion.sort_perm _).mem_iff.mp hv')
  obtain ⟨page', hpage', hlen', hshown⟩ :=
    renderObjectRenders_spec lines (r.1.take r.2) page hall hpage
  refine ⟨page', by rw [renderScene, hr]; exact hpage', hlen', ?_, ?_⟩
  · intro x hx y hy color hnearest
    rw [hshown x hx y hy, htake, (Layers.painted_sort_iff _ _ _).mpr hnearest, Option.some_or]
  · intro x hx y hy hnone
    have hempty : Layers.painted (Render.shows m lines) (r.1.take r.2) (x, y) = none := by
      rw [htake, Layers.painted_eq_none_iff]
      intro v hv'
      exact hnone v ((Insertion.sort_perm _).mem_iff.mp hv')
    rw [hshown x hx y hy, hempty, Option.none_or]

/-- **In every game the scene is painted, and the nearest is seen.**  Let `atan2` lie between
`-M_PI` and `M_PI`.  In every state of every run of the program in which a game is on, and
whatever the walls are that the things are compared with: `setup_renders` has room in the array
of `render_game`, every picture that is asked for is there, and no pixel of a picture or a bar
is written next to the page.  Afterwards every pixel shows the nearest of the things that cover
it, and where there is none what it has shown before. -/
theorem scene_portrayed {c : Setting K} (hpi : 0 < c.libm.pi)
    (hatan : ∀ y x, -c.libm.pi ≤ c.libm.atan2 y x ∧ c.libm.atan2 y x ≤ c.libm.pi)
    (hh : 0 < m.hRes) (hv : 0 < m.vRes) (pictures : Pictures) (range : K) (w : World K) (rtc : Rtc)
    (is : List (GameInput K)) :
    (gameMachine c).Always (fun g => Playing g →
      ∀ (lines : List (ScreenLine K T)) (renders : List (Render K)) (page : List Color),
        renders.length = 3 * g.world.enemies.length + g.world.pickups.pickups.length →
        page.length = m.hRes * m.vRes →
        ∃ page', renderScene c.libm c.fov m pictures range g.world lines renders page = some page' ∧
          Portrays m lines (things c.libm c.fov m pictures range g.world) page page')
      (Game.start w rtc) is :=
  everyone_always fit_rule (fun p movm h => h.controls movm p.direction)
    (fun _ h _ lines _ _ hlen hpage =>
      renderScene_portrays hh hv hpi hatan c.fov pictures range h.enemies lines hlen hpage) w rtc is

end Exact

section Real

/-- Pictures that are all empty. -/
def noPictures : Pictures :=
  have blank : Sprite :=
    { textureSize := (64, 64), invisColor := 0, xOffset := 0, yOffset := 0
      map := List.replicate (64 * 64) 0 }
  ⟨fun _ _ _ => blank, fun _ _ => blank⟩

/-- A player that starts the first level and turns. -/
theorem scene_portrayed_hall : (gameMachine hall).Always (fun g => Playing g →
    ∀ (lines : List (ScreenLine ℝ Unit)) (renders : List (Render ℝ)) (page : List Color),
      renders.length = 3 * g.world.enemies.length + g.world.pickups.pickups.length →
      page.length = gameMode.hRes * gameMode.vRes →
      ∃ page', renderScene hall.libm hall.fov gameMode noPictures 20 g.world lines renders page =
          some page' ∧
        Portrays gameMode lines (things hall.libm hall.fov gameMode noPictures 20 g.world)
          page page')
      (Game.start { player := .zero, enemies := [], pickups := ⟨[], initCollisionTable 0 0⟩
                    map := ⟨[], 0, 0⟩, gunAnims := [], timeCounter := 0, state := .mainMenu
                    invMenu := .closed, nullTarget := false }
        { regA := 0, regB := 0, pieState := 0 })
      [.mouse ⟨0, 0⟩ true 0, .tick { polls := [], bots := fun _ => none },
        .mouse ⟨0, 0⟩ false (1 / 2), .tick { polls := [], bots := fun _ => none }] :=
  scene_portrayed Real.pi_pos
    (fun y x => ⟨(Complex.neg_pi_lt_arg ⟨x, y⟩).le, Complex.arg_le_pi ⟨x, y⟩⟩)
    (by decide) (by decide) noPictures 20 _ _ _

end Real

end OperationMinix
