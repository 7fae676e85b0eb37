import OperationMinix.Lib.VideoGraphics
import OperationMinix.Player.World
import OperationMinix.Utils.RayCast

/-!
# The columns of the screen

`display_map` shoots a ray for every column of the screen.  From the cell that is hit it
computes the distance to the wall once more, and from that the height of the wall, the
column of its texture, and how much it is darkened.

## Main definitions

* `castRay` — the ray cast as a function of the exact numbers.
* `perpendicularWallDist`, `displayColumn`, `fillLine` — the body of the loop of
  `display_map`.
* `wallBounds` — the rows that are painted.

## Main results

* `wall_distances_agree` — **the distance computed from the cell is the distance of the
  ray cast, and the factor that darkens lies between `0` and `1`.**
-/

namespace OperationMinix

open Runs

set_option linter.unusedSectionVars false

section

variable {K T : Type*} [Field K] [LinearOrder K] [FloorRing K]

/-- `shoot_ray` with exact arithmetic. -/
def castRay (m : GameMap) (pos dir : Vec K) (range : K) : RayHit K :=
  match shootRay exact m pos.lift dir.lift range (m.lines + m.columns + 1) with
  | some w =>
    { hit := w.hit, side := w.side, mapPos := (w.mapPos.x.toNat, w.mapPos.y.toNat)
      distance := w.distance.untopD 0 }
  | none => { hit := false, side := 0, mapPos := (0, 0), distance := 0 }

/-- `perpendicular_wall_dist`: the distance to the side of the cell that is looked at,
the far one when the ray comes from there. -/
def perpendicularWallDist (pos rayDir : Vec K) (mapPos : ℕ × ℕ) (side : ℕ) : K :=
  let wallOffsetX : K := if rayDir.x < 0 then 1 else 0
  let wallOffsetY : K := if rayDir.y < 0 then 1 else 0
  if side = 0 then (mapPos.1 + wallOffsetX - pos.x) / rayDir.x
  else (mapPos.2 + wallOffsetY - pos.y) / rayDir.y

/-- The column of the texture at the place where the wall is hit, which is mirrored on
two of the four sides. -/
def texHitX (rayDir : Vec K) (side : ℕ) (xHit : K) : ℤ :=
  let hitX := truncate ((xHit - ⌊xHit⌋) * maxSpriteWidth)
  if (side = 0 ∧ rayDir.x > 0) ∨ (side = 1 ∧ rayDir.y < 0) then maxSpriteWidth - hitX - 1 else hitX

/-- What `display_map` has found in a column whose ray hits a wall. -/
structure WallHit (K T : Type*) where
  lineHeight : ℕ
  rayDir : Vec K
  side : ℕ
  /-- Where the wall is hit, along the wall. -/
  xHit : K
  dist : K
  darkenFactor : K
  tex : T

/-- The line of a column in which a wall is hit. -/
def fillLine (vRes : ℕ) (w : WallHit K T) : ScreenLine K T :=
  let higher : ℤ := (vRes / 2 : ℕ) - (w.lineHeight / 2 : ℕ)
  let drawHigher := if higher < 0 then 0 else higher
  let lower := drawHigher + w.lineHeight
  let drawLower : ℤ := if lower ≥ vRes then vRes - 1 else lower
  let step : K := maxSpriteHeight / w.lineHeight
  let above : ℤ := drawHigher - (vRes / 2 : ℕ) + (w.lineHeight / 2 : ℕ)
  { drawHigher, drawLower, color := 0, dist := w.dist
    texture :=
      { darken := w.dist ≥ startDarken, texHitX := texHitX w.rayDir w.side w.xHit, lastTexY := -1
        texY := above * step, step, side := w.side, darkenFactor := w.darkenFactor
        tex := some w.tex } }

/-- The line of a column, when a wall is hit and when none is. -/
def columnLine (vRes : ℕ) : Option (WallHit K T) → ScreenLine K T
  | some w => fillLine vRes w
  | none => { ScreenLine.zero with dist := -1, drawHigher := vRes }

/-- What `display_map` makes of the ray of a column; `range` is the range of the ray. -/
def displayColumn (textures : ℤ → T) (m : GameMap) (vRes : ℕ) (range : K) (pos rayDir : Vec K)
    (ray : RayHit K) : Option (WallHit K T) :=
  if ray.hit then
    let dist := perpendicularWallDist pos rayDir ray.mapPos ray.side
    some
      { lineHeight := (truncate (vRes / dist)).toNat
        rayDir, side := ray.side, dist
        xHit := if ray.side = 0 then pos.y + dist * rayDir.y else pos.x + dist * rayDir.x
        darkenFactor :=
          if range > 0 then 1 - (ray.distance - startDarken) * 1 / (range - startDarken) else 0
        tex := textures ((m.cell ray.mapPos.1 ray.mapPos.2).tmod 7 - 1) }
  else none

/-- The body of the loop of `display_map`. -/
def displayLine (textures : ℤ → T) (m : GameMap) (vRes : ℕ) (range : K) (pos rayDir : Vec K)
    (ray : RayHit K) : ScreenLine K T :=
  columnLine vRes (displayColumn textures m vRes range pos rayDir ray)

/-- The direction of the ray of column `x`. -/
def rayDirection (dir plane : Vec K) (width x : ℕ) : Vec K :=
  let cameraPlaneIt : K := 2 * x / width - 1
  ⟨dir.x + plane.x * cameraPlaneIt, dir.y + plane.y * cameraPlaneIt⟩

/-- `highest_wall` and `lowest_wall`, after the columns so far. -/
def wallBounds (vRes : ℕ) (columns : List (Option (WallHit K T))) : ℤ × ℤ :=
  columns.foldl (fun bounds column => match column with
    | some w =>
      let line := fillLine vRes w
      (if line.drawHigher < bounds.1 then line.drawHigher else bounds.1,
        if line.drawLower > bounds.2 then line.drawLower else bounds.2)
    | none => bounds) ((vRes : ℤ), 0)

/-- The loop of `display_map`. -/
def displayMap (textures : ℤ → T) (m : GameMap) (hRes vRes : ℕ) (range : K)
    (pos dir plane : Vec K) : List (Option (WallHit K T)) :=
  let range := range + startDarken
  (List.range hRes).map fun x =>
    let rayDir := rayDirection dir plane hRes x
    displayColumn textures m vRes range pos rayDir (castRay m pos rayDir range)

end

section Exact

variable {K T : Type*} [Field K] [LinearOrder K] [IsStrictOrderedRing K] [FloorRing K]

/-- On the face that a ray enters, the distance of the side is the time of the ray. -/
theorem perpendicularWallDist_of_onFace {pos dir : Vec K} {x y side : ℕ} {t : K}
    (h : OnFace pos dir x y side t) :
    (if side = 0 then dir.x else dir.y) ≠ 0 ∧ perpendicularWallDist pos dir (x, y) side = t := by
  have haxis : ∀ {p v : K} {i : ℕ}, Enters p v i t →
      v ≠ 0 ∧ ((i : K) + (if v < 0 then 1 else 0) - p) / v = t := by
    rintro p v i (⟨hv, hpos⟩ | ⟨hv, hpos⟩)
    · refine ⟨hv.ne', ?_⟩
      rw [if_neg hv.le.not_gt, div_eq_iff hv.ne']
      push_cast at hpos
      linarith
    · refine ⟨hv.ne, ?_⟩
      rw [if_pos hv, div_eq_iff hv.ne]
      push_cast at hpos
      linarith
  rcases h with ⟨rfl, henters, -⟩ | ⟨rfl, henters, -⟩
  · exact haxis henters
  · exact haxis henters

/-- What the result of a hit says, as numbers. -/
theorem castRay_hit {m : GameMap} (hlines : m.lines ≤ 65535) (hcolumns : m.columns ≤ 65535)
    {pos dir : Vec K} {range : K} (hx : 0 ≤ pos.x ∧ pos.x < m.columns)
    (hy : 0 ≤ pos.y ∧ pos.y < m.lines) (hdir : dir.x ≠ 0 ∨ dir.y ≠ 0)
    (hhit : (castRay m pos dir range).hit = true) :
    let ray := castRay m pos dir range
    OnFace pos dir ray.mapPos.1 ray.mapPos.2 ray.side ray.distance ∧
      (0 < range → ray.distance ≤ range) := by
  obtain ⟨w, hw, t, hpost⟩ := shootRay_post hlines hcolumns hx hy hdir range
  unfold castRay at hhit ⊢
  rw [hw] at hhit ⊢
  obtain ⟨hface, -, hrange⟩ := hpost.hit hhit
  dsimp only
  rw [hpost.distance, WithTop.untopD_coe]
  exact ⟨hface, hrange⟩

/-- A ray without a direction goes beyond every range at once. -/
theorem castRay_zero {m : GameMap} (hlines : m.lines ≤ 65535) (hcolumns : m.columns ≤ 65535)
    {pos dir : Vec K} {range : K} (hx : 0 ≤ pos.x ∧ pos.x < m.columns)
    (hy : 0 ≤ pos.y ∧ pos.y < m.lines) (hrange : 0 < range) (hdirx : dir.x = 0)
    (hdiry : dir.y = 0) : (castRay m pos dir range).hit = false := by
  have hstart : RayInv m pos dir (rayStart exact pos.lift dir.lift) 0 :=
    rayInv_start hlines hcolumns hx hy
  have hsidex : (rayStart exact pos.lift dir.lift).sideDist.x = (⊤ : WithTop K) := by
    rw [hstart.x.crossing, hdirx, crossing_zero]
  have hsidey : (rayStart exact pos.lift dir.lift).sideDist.y = (⊤ : WithTop K) := by
    rw [hstart.y.crossing, hdiry, crossing_zero]
  have hfar : (exact : Doubles (WithTop K)).lt range
      ((rayStart exact pos.lift dir.lift).advance exact dir.lift).distance = true := by
    unfold RayVars.advance
    rw [hsidex, hsidey, if_neg (fun hlt => lt_irrefl _ (exact_lt.mp hlt))]
    exact exact_lt.mpr (WithTop.coe_lt_top range)
  have hbody : ∃ w, rayBody exact m dir.lift range (rayStart exact pos.lift dir.lift) = .inr w ∧
      w.hit = false := by
    rcases rayBody_cases exact m dir.lift range (rayStart exact pos.lift dir.lift) with
      ⟨-, hout⟩ | ⟨-, -, -, hleave⟩ | ⟨-, hnear, -⟩
    · exact ⟨_, hout, hit_advance exact dir.lift _⟩
    · exact ⟨_, hleave, hit_advance exact dir.lift _⟩
    · exact absurd ⟨(exact_lt_zero range).mpr hrange, hfar⟩ hnear
  obtain ⟨w, hw, hmiss⟩ := hbody
  unfold castRay shootRay Loop.run
  rw [hw]
  exact hmiss

/-- The factor that darkens a wall within the range lies between `0` and `1`. -/
theorem darkenFactor_mem {range t : K} (hrange : 0 < range) (hnear : 1 ≤ t)
    (hfar : t ≤ range + 1) :
    0 ≤ 1 - (t - 1) * 1 / (range + 1 - 1) ∧ 1 - (t - 1) * 1 / (range + 1 - 1) ≤ 1 := by
  rw [add_sub_cancel_right, mul_one]
  have hlow : 0 ≤ (t - 1) / range := div_nonneg (by linarith) hrange.le
  have hhigh : (t - 1) / range ≤ 1 := (div_le_one hrange).mpr (by linarith)
  constructor <;> linarith

/-- **The two distances agree.**  For every map, position inside it, direction and range
of `display_map`, in a column whose ray hits: the distance that is computed from the cell
divides by a component that is not zero and is the distance of the ray cast; and when the
column is darkened, its factor lies between `0` and `1`. -/
theorem wall_distances_agree (textures : ℤ → T) (m : GameMap) (hlines : m.lines ≤ 65535)
    (hcolumns : m.columns ≤ 65535) (vRes : ℕ) (pos rayDir : Vec K) (range : K)
    (hx : 0 ≤ pos.x ∧ pos.x < m.columns) (hy : 0 ≤ pos.y ∧ pos.y < m.lines) (hrange : 0 < range)
    (hhit : (castRay m pos rayDir (range + startDarken)).hit = true) :
    let ray := castRay m pos rayDir (range + startDarken)
    let line := displayLine textures m vRes (range + startDarken) pos rayDir ray
    ((if ray.side = 0 then rayDir.x else rayDir.y) ≠ 0 ∧
        perpendicularWallDist pos rayDir ray.mapPos ray.side = ray.distance) ∧
      line.dist = ray.distance ∧
      (line.texture.darken = true →
        0 ≤ line.texture.darkenFactor ∧ line.texture.darkenFactor ≤ 1) := by
  intro ray line
  have hcast : ((startDarken : ℤ) : K) = 1 := Int.cast_one
  have hlonger : 0 < range + (startDarken : K) := by
    rw [hcast]
    linarith
  have hdir : rayDir.x ≠ 0 ∨ rayDir.y ≠ 0 := by
    by_contra hzero
    obtain ⟨hx0, hy0⟩ := not_or.mp hzero
    have hmiss := castRay_zero hlines hcolumns hx hy hlonger (not_not.mp hx0) (not_not.mp hy0)
    rw [hmiss] at hhit
    cases hhit
  obtain ⟨hface, hwithin⟩ := castRay_hit hlines hcolumns hx hy hdir hhit
  obtain ⟨hdiv, hdist⟩ := perpendicularWallDist_of_onFace hface
  have hline : line = columnLine vRes (some _) := congrArg (columnLine vRes) (if_pos hhit)
  refine ⟨⟨hdiv, hdist⟩, ?_, ?_⟩
  · rw [hline]
    exact hdist
  · rw [hline]
    intro hdarken
    have hnear : 1 ≤ ray.distance := by
      have hdarken' : perpendicularWallDist pos rayDir ray.mapPos ray.side ≥ (startDarken : K) :=
        of_decide_eq_true hdarken
      rw [hcast] at hdarken'
      exact hdarken'.trans_eq hdist
    show 0 ≤ (if range + (startDarken : K) > 0 then _ else _) ∧
      (if range + (startDarken : K) > 0 then _ else _) ≤ 1
    rw [if_pos hlonger, hcast]
    refine darkenFactor_mem hrange hnear ?_
    rw [← hcast]
    exact hwithin hlonger

/-- A corridor with a wall at its end, looked along. -/
theorem wall_distances_agree_corridor :
    let m : GameMap := { matrix := [[0, 0, 1]], lines := 1, columns := 3 }
    let pos : Vec ℚ := ⟨1 / 2, 1 / 2⟩
    let rayDir : Vec ℚ := ⟨1, 0⟩
    let ray := castRay m pos rayDir ((10 : ℚ) + startDarken)
    let line := displayLine id m 864 ((10 : ℚ) + startDarken) pos rayDir ray
    ray.hit = true ∧
      ((if ray.side = 0 then rayDir.x else rayDir.y) ≠ 0 ∧
        perpendicularWallDist pos rayDir ray.mapPos ray.side = ray.distance) ∧
      line.dist = ray.distance ∧
      (line.texture.darken = true →
        0 ≤ line.texture.darkenFactor ∧ line.texture.darkenFactor ≤ 1) :=
  ⟨by decide +kernel,
    wall_distances_agree id { matrix := [[0, 0, 1]], lines := 1, columns := 3 } (by decide)
      (by decide) 864 ⟨1 / 2, 1 / 2⟩ ⟨1, 0⟩ 10 (by decide +kernel) (by decide +kernel)
      (by decide +kernel) (by decide +kernel)⟩

end Exact

end OperationMinix
