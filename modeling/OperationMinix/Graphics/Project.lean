import Mathlib.Analysis.SpecialFunctions.Trigonometric.Bounds
import OperationMinix.Game.Region
import OperationMinix.Graphics.Columns
import OperationMinix.Graphics.Renders

/-!
# Where a sprite stands on the screen

`display_map` sends a ray through every column of the screen.  `render_object` goes the other
way: it multiplies the position of an object, relative to the player, with the inverse of the
camera matrix and finds the column and the depth of the object.  The two computations share
nothing but the direction and the camera plane of the player, which every tick rotates.

The camera plane stays perpendicular to the direction, so the matrix has an inverse and the
column of an object is the one whose ray meets it; its height is the one of a wall at its depth.
The test that leaves out what is behind the player compares the cosine of the angle to the
object with the cosine of half the angle that the field of view does *not* cover.  That is
generous as long as the field of view is less than a right angle.

## Main definitions

* `renderObject` — `render_object`; it is `none` when it does not return `OK`.
* `Upright` — the square that is drawn.
* `SpritesOnRays` — sprites and walls agree.

## Main results

* `renderObject_ray` — what is drawn of an object on the ray of a column.
* `sprites_on_rays` — **in every game sprites and walls agree.**
-/

namespace OperationMinix

open Runs

set_option linter.unusedSectionVars false

section Model

variable {K : Type*} [Field K] [LinearOrder K] [FloorRing K]

/-- `render_object`, for an object that is not at the very place of the player: there the C code
divides zero by zero. -/
def renderObject (l : Libm K) (fov : ℤ) (hRes vRes : ℕ) (player : PlayerInfo K)
    (relPosition : Vec K) (range : K) (render : Render K) : Option (Render K) :=
  let dist := vecMag l relPosition
  if range > 0 ∧ dist > range then none
  else
    let lookDir := normalize l player.direction
    let relNorm := normalize l relPosition
    let angle : K := ((180 - fov).tdiv 2 : ℤ) * l.pi / 180
    if prodInt relNorm lookDir ≤ l.cos angle then none
    else
      let camPlane := player.cameraPlane
      let invDet := 1 / determinant camPlane lookDir
      let invCamX := invDet * (lookDir.y * relPosition.x - lookDir.x * relPosition.y)
      let invCamY := invDet * (camPlane.x * relPosition.y - camPlane.y * relPosition.x)
      let spriteScreenX := truncate ((hRes : K) / 2 * (1 + invCamX / invCamY))
      let spriteHeight := |truncate (vRes / invCamY)|
      let spriteWidth := |truncate (vRes / invCamY)|
      let offset : ℤ × ℤ :=
        (spriteScreenX * 512 - spriteWidth * 256, vRes * 256 - spriteHeight * 256)
      let startPos : ℤ × ℤ := (offset.1.tdiv 512, offset.2.tdiv 512)
      let endPos : ℤ × ℤ := (startPos.1 + spriteWidth, startPos.2 + spriteHeight)
      if startPos.1 ≥ endPos.1 then none
      else
        some
          { render with
            endPos, offset, boundingBox := (spriteWidth, spriteHeight), distance := dist
            factor := 1 - dist / range }

/-- The point at a depth and a part of the camera plane. -/
def inView (dir plane : Vec K) (depth k : K) : Vec K :=
  ⟨depth * (dir.x + plane.x * k), depth * (dir.y + plane.y * k)⟩

/-- A square of `side` rows and columns around the column, half way down the screen, each up to
half a pixel. -/
structure Upright (vRes : ℕ) (column side : ℤ) (r : Render K) : Prop where
  box : r.boundingBox = (side, side)
  offset : r.offset = (512 * column - 256 * side, 256 * vRes - 256 * side)
  across : |2 * r.endPos.1 - side - 2 * column| ≤ 1
  down : |2 * r.endPos.2 - side - vRes| ≤ 1

variable {T : Type*}

/-- Sprites and walls agree, for a player on a map. -/
structure SpritesOnRays (l : Libm K) (fov : ℤ) (hRes vRes : ℕ) (range : K) (player : PlayerInfo K)
    (m : GameMap) : Prop where
  /-- What is drawn is in front of the player, at its column and of the size of its depth. -/
  inFront : ∀ rel render r, 0 < vecMagSquared rel →
    renderObject l fov hRes vRes player rel range render = some r →
      ∃ depth k, 0 < depth ∧ rel = inView player.direction player.cameraPlane depth k ∧
        Upright vRes (truncate ((hRes : K) / 2 * (1 + k))) ⌊vRes / depth⌋ r
  /-- What the ray of a column meets is drawn over this column, unless it is out of range or
  smaller than a pixel. -/
  onRay : ∀ (x : ℕ) (t : K) render, x ≤ hRes → 0 < t → 1 ≤ vRes / t →
    let ray := rayDirection player.direction player.cameraPlane hRes x
    vecMag l ⟨t * ray.x, t * ray.y⟩ ≤ range →
      ∃ r, renderObject l fov hRes vRes player ⟨t * ray.x, t * ray.y⟩ range render = some r ∧
        Upright vRes x ⌊vRes / t⌋ r
  /-- Before a wall it is as high as the wall. -/
  asWall : ∀ (textures : ℤ → T) (x : ℕ) (wall : WallHit K T) render,
    (displayMap textures m hRes vRes range player.position player.direction
      player.cameraPlane)[x]? = some (some wall) →
    0 < wall.dist → 1 ≤ wall.lineHeight →
    vecMag l ⟨wall.dist * wall.rayDir.x, wall.dist * wall.rayDir.y⟩ ≤ range →
      ∃ r, renderObject l fov hRes vRes player
          ⟨wall.dist * wall.rayDir.x, wall.dist * wall.rayDir.y⟩ range render = some r ∧
        Upright vRes x wall.lineHeight r

/-- The camera of a player: it looks in a direction of length one, and its plane is
perpendicular to it, as long as the field of view asks for. -/
structure Lens (l : Libm K) (fov : ℤ) (dir plane : Vec K) : Prop where
  unit : vecMagSquared dir = 1
  plane : plane = ⟨-dir.y * l.tan (fov * l.pi / 360), dir.x * l.tan (fov * l.pi / 360)⟩

end Model

section Exact

variable {K : Type*} [Field K] [LinearOrder K] [IsStrictOrderedRing K] [FloorRing K]

/-! ### The inverse of the camera matrix -/

/-- Half of a number of pixels, in units of which a pixel has 512. -/
theorem abs_tdiv_le (z : ℤ) : |2 * (256 * z).tdiv 512 - z| ≤ 1 := by
  have hsplit := Int.mul_tdiv_add_tmod (256 * z) 512
  have hlt := Int.tmod_lt_of_pos (256 * z) (by decide : (0 : ℤ) < 512)
  have hgt := Int.lt_tmod_of_pos (256 * z) (by decide : (0 : ℤ) < 512)
  rw [abs_le]
  omega

omit [IsStrictOrderedRing K] [FloorRing K] in
/-- The square that `render_object` sets up. -/
theorem upright_square (vRes : ℕ) (column side : ℤ) (render : Render K) (dist factor : K) :
    Upright vRes column side
      { render with
        endPos := ((column * 512 - side * 256).tdiv 512 + side,
          (vRes * 256 - side * 256 : ℤ).tdiv 512 + side)
        offset := (column * 512 - side * 256, vRes * 256 - side * 256)
        boundingBox := (side, side), distance := dist, factor } := by
  have hacross := abs_tdiv_le (2 * column - side)
  have hdown := abs_tdiv_le (vRes - side)
  rw [show 256 * (2 * column - side) = column * 512 - side * 256 by ring, abs_le] at hacross
  rw [show 256 * ((vRes : ℤ) - side) = vRes * 256 - side * 256 by ring, abs_le] at hdown
  refine ⟨rfl, Prod.ext (by dsimp only; ring) (by dsimp only; ring), ?_, ?_⟩
  · dsimp only
    rw [abs_le]
    omega
  · dsimp only
    rw [abs_le]
    omega

section Camera

variable {l : Libm K} {fov : ℤ} {dir plane : Vec K}

/-- Every point that is not level with the player has a depth and a part of the camera plane. -/
theorem Lens.exists_inView (h : Lens l fov dir plane) (htan : 0 < l.tan (fov * l.pi / 360))
    (rel : Vec K) (hdepth : prodInt rel dir ≠ 0) :
    ∃ k, rel = inView dir plane (prodInt rel dir) k := by
  obtain ⟨hunit, rfl⟩ := h
  generalize l.tan (fov * l.pi / 360) = f at htan ⊢
  have hsq : dir.x ^ 2 + dir.y ^ 2 = 1 := hunit
  have hf := htan.ne'
  have hk : prodInt rel dir * (f * ((rel.y * dir.x - rel.x * dir.y) / (f * prodInt rel dir))) =
      rel.y * dir.x - rel.x * dir.y := by
    field_simp
  generalize (rel.y * dir.x - rel.x * dir.y) / (f * prodInt rel dir) = k at hk
  refine ⟨k, ?_⟩
  obtain ⟨x, y⟩ := rel
  unfold inView
  unfold prodInt at hk ⊢
  dsimp only at hk ⊢
  congr 1
  · linear_combination (-x) * hsq + dir.y * hk
  · linear_combination (-y) * hsq - dir.x * hk

/-- The inverse of the camera matrix finds the depth and the part of the camera plane. -/
theorem Lens.inverse (h : Lens l fov dir plane) (htan : 0 < l.tan (fov * l.pi / 360))
    (depth k : K) :
    let rel := inView dir plane depth k
    1 / determinant plane dir * (dir.y * rel.x - dir.x * rel.y) = depth * k ∧
      1 / determinant plane dir * (plane.x * rel.y - plane.y * rel.x) = depth := by
  obtain ⟨hunit, rfl⟩ := h
  generalize l.tan (fov * l.pi / 360) = f at htan ⊢
  have hsq : dir.x ^ 2 + dir.y ^ 2 = 1 := hunit
  have hdet : determinant ⟨-dir.y * f, dir.x * f⟩ dir = -f := by
    unfold determinant
    linear_combination (-f) * hsq
  have hf := htan.ne'
  intro rel
  rw [hdet]
  constructor
  · rw [div_mul_eq_mul_div, div_eq_iff (neg_ne_zero.mpr hf)]
    show 1 * (dir.y * (depth * (dir.x + -dir.y * f * k)) -
      dir.x * (depth * (dir.y + dir.x * f * k))) = depth * k * -f
    linear_combination (-depth * f * k) * hsq
  · rw [div_mul_eq_mul_div, div_eq_iff (neg_ne_zero.mpr hf)]
    show 1 * (-dir.y * f * (depth * (dir.y + dir.x * f * k)) -
      dir.x * f * (depth * (dir.x + -dir.y * f * k))) = depth * -f
    linear_combination (-depth * f) * hsq

/-- How far along the direction a point lies. -/
theorem Lens.prodInt_inView (h : Lens l fov dir plane) (depth k : K) :
    prodInt (inView dir plane depth k) dir = depth := by
  obtain ⟨hunit, rfl⟩ := h
  have hsq : dir.x ^ 2 + dir.y ^ 2 = 1 := hunit
  unfold prodInt inView
  linear_combination depth * hsq

/-- How far away it is. -/
theorem Lens.vecMagSquared_inView (h : Lens l fov dir plane) (depth k : K) :
    vecMagSquared (inView dir plane depth k) =
      depth ^ 2 * (1 + l.tan (fov * l.pi / 360) ^ 2 * k ^ 2) := by
  obtain ⟨hunit, rfl⟩ := h
  have hsq : dir.x ^ 2 + dir.y ^ 2 = 1 := hunit
  unfold vecMagSquared inView
  linear_combination depth ^ 2 * (1 + l.tan (fov * l.pi / 360) ^ 2 * k ^ 2) * hsq

end Camera

/-- What `display_map` has computed for a column in which a wall is hit. -/
theorem displayMap_wall {T : Type*} {textures : ℤ → T} {m : GameMap} {hRes vRes : ℕ} {range : K}
    {pos dir plane : Vec K} {x : ℕ} {wall : WallHit K T}
    (h : (displayMap textures m hRes vRes range pos dir plane)[x]? = some (some wall)) :
    x < hRes ∧ wall.rayDir = rayDirection dir plane hRes x ∧
      wall.lineHeight = (truncate (vRes / wall.dist)).toNat := by
  have hx : x < hRes := by
    have hlen := (List.getElem?_eq_some_iff.mp h).1
    rwa [displayMap, List.length_map, List.length_range] at hlen
  rw [displayMap, List.getElem?_map, List.getElem?_range hx, Option.map_some] at h
  have hcolumn := Option.some.inj h
  unfold displayColumn at hcolumn
  dsimp only at hcolumn
  by_cases hhit : (castRay m pos (rayDirection dir plane hRes x) (range + startDarken)).hit
  · rw [if_pos hhit] at hcolumn
    obtain rfl := Option.some.inj hcolumn
    exact ⟨hx, rfl, rfl⟩
  · rw [if_neg hhit] at hcolumn
    cases hcolumn

/-! ### What is drawn -/

section Object

variable {l : Libm K} {fov : ℤ} {hRes vRes : ℕ} {player : PlayerInfo K} {range depth k : K}
  {render : Render K}

/-- The cosine that the angle to an object is compared with. -/
def cullCosine (l : Libm K) (fov : ℤ) : K := l.cos (((180 - fov).tdiv 2 : ℤ) * l.pi / 180)

/-- A direction of length one. -/
theorem normalize_unit (hsqrt : ∀ x, 0 ≤ x → 0 ≤ l.sqrt x ∧ l.sqrt x * l.sqrt x = x) {d : Vec K}
    (h : vecMagSquared d = 1) : normalize l d = d := by
  have hmag : vecMag l d = 1 := by
    obtain ⟨hnonneg, hsq⟩ := hsqrt 1 zero_le_one
    show l.sqrt (vecMagSquared d) = 1
    rw [h]
    nlinarith
  unfold normalize
  rw [hmag, div_one, div_one]

variable (hsqrt : ∀ x, 0 ≤ x → 0 ≤ l.sqrt x ∧ l.sqrt x * l.sqrt x = x)
  (hlens : Lens l fov player.direction player.cameraPlane)
  (htan : 0 < l.tan (fov * l.pi / 360))

include hsqrt hlens htan

/-- **What is drawn** of an object in front of the player. -/
theorem renderObject_inView (hdepth : 0 < depth) :
    let rel := inView player.direction player.cameraPlane depth k
    renderObject l fov hRes vRes player rel range render =
      if range > 0 ∧ vecMag l rel > range then none
      else if depth / vecMag l rel ≤ cullCosine l fov then none
      else
        let column := truncate ((hRes : K) / 2 * (1 + k))
        let side := ⌊(vRes : K) / depth⌋
        if side ≤ 0 then none
        else
          some
            { render with
              endPos := ((column * 512 - side * 256).tdiv 512 + side,
                (vRes * 256 - side * 256 : ℤ).tdiv 512 + side)
              offset := (column * 512 - side * 256, vRes * 256 - side * 256)
              boundingBox := (side, side), distance := vecMag l rel
              factor := 1 - vecMag l rel / range } := by
  intro rel
  -- the cosine of the angle to the middle of the view
  have hangle : prodInt (normalize l rel) player.direction = depth / vecMag l rel := by
    rw [← hlens.prodInt_inView depth k]
    unfold prodInt normalize
    ring
  -- the inverse of the camera gives back the depth and the part of the plane
  have hinverse := hlens.inverse htan depth k
  rw [show inView player.direction player.cameraPlane depth k = rel from rfl] at hinverse
  obtain ⟨hcamera, hfront⟩ := hinverse
  have hside : |truncate ((vRes : K) / depth)| = ⌊(vRes : K) / depth⌋ := by
    have hnonneg : 0 ≤ (vRes : K) / depth := div_nonneg (Nat.cast_nonneg _) hdepth.le
    rw [truncate_of_nonneg hnonneg, abs_of_nonneg (Int.floor_nonneg.mpr hnonneg)]
  unfold renderObject
  simp only [normalize_unit hsqrt hlens.unit, hangle, hcamera, hfront, hside,
    mul_div_cancel_left₀ k hdepth.ne']
  refine if_congr Iff.rfl rfl (if_congr Iff.rfl rfl (if_congr ?_ rfl rfl))
  rw [ge_iff_le]
  omega

/-- What is drawn is an upright square. -/
theorem upright_of_renderObject (hdepth : 0 < depth) {r : Render K}
    (h : renderObject l fov hRes vRes player
      (inView player.direction player.cameraPlane depth k) range render = some r) :
    Upright vRes (truncate ((hRes : K) / 2 * (1 + k))) ⌊(vRes : K) / depth⌋ r := by
  rw [renderObject_inView hsqrt hlens htan hdepth] at h
  dsimp only at h
  split_ifs at h
  rw [← Option.some.inj h]
  exact upright_square _ _ _ _ _ _

/-- An object is drawn when it is in range, at a narrow angle, and not smaller than a pixel. -/
theorem renderObject_ray (hdepth : 0 < depth)
    (hrange : vecMag l (inView player.direction player.cameraPlane depth k) ≤ range)
    (hangle : cullCosine l fov <
      depth / vecMag l (inView player.direction player.cameraPlane depth k))
    (hside : 1 ≤ (vRes : K) / depth) :
    ∃ r, renderObject l fov hRes vRes player
        (inView player.direction player.cameraPlane depth k) range render = some r ∧
      Upright vRes (truncate ((hRes : K) / 2 * (1 + k))) ⌊(vRes : K) / depth⌋ r := by
  have hpos : ¬ ⌊(vRes : K) / depth⌋ ≤ 0 := by
    rw [not_le, Int.floor_pos]
    exact hside
  rw [renderObject_inView hsqrt hlens htan hdepth]
  dsimp only
  rw [if_neg (fun h => not_lt.mpr hrange h.2), if_neg (not_le.mpr hangle), if_neg hpos]
  exact ⟨_, rfl, upright_square _ _ _ _ _ _⟩

/-- What is drawn is in front of the player. -/
theorem inFront_of_renderObject (hcull : 0 ≤ cullCosine l fov) {rel : Vec K}
    (hrel : 0 < vecMagSquared rel) {r : Render K}
    (h : renderObject l fov hRes vRes player rel range render = some r) :
    0 < prodInt rel player.direction := by
  have hmag : 0 < vecMag l rel := by
    obtain ⟨hnonneg, hsq⟩ :
        0 ≤ vecMag l rel ∧ vecMag l rel * vecMag l rel = vecMagSquared rel := hsqrt _ hrel.le
    refine lt_of_le_of_ne hnonneg fun hzero => hrel.ne' ?_
    rw [← hsq, ← hzero, mul_zero]
  have hangle : prodInt (normalize l rel) player.direction =
      prodInt rel player.direction / vecMag l rel := by
    unfold prodInt normalize
    ring
  unfold renderObject at h
  simp only [normalize_unit hsqrt hlens.unit, hangle] at h
  split_ifs at h with _ hnarrow
  have hwide : 0 < prodInt rel player.direction / vecMag l rel :=
    hcull.trans_lt (not_le.mp hnarrow)
  exact (div_pos_iff_of_pos_right hmag).mp hwide

end Object

/-- The camera is turned as a whole. -/
theorem Lens.rotate {l : Libm K} {fov : ℤ} {dir plane : Vec K} (h : Lens l fov dir plane)
    (htrig : ∀ a, l.cos a ^ 2 + l.sin a ^ 2 = 1) (angle : K) :
    Lens l fov (rotate l angle dir) (rotate l angle plane) := by
  obtain ⟨hunit, rfl⟩ := h
  refine ⟨(vecMagSquared_rotate htrig _ _).trans hunit, ?_⟩
  unfold OperationMinix.rotate
  dsimp only
  congr 1
  · ring
  · ring

/-- What the local player keeps: its camera. -/
structure Sighted (l : Libm K) (fov : ℤ) (b : Body K) : Prop where
  type : b.type = .player
  lens : Lens l fov b.direction b.cameraPlane

/-- **A step** keeps the camera. -/
theorem Sighted.step {l : Libm K} {fov : ℤ} {b : Body K} (h : Sighted l fov b)
    (htrig : ∀ a, l.cos a ^ 2 + l.sin a ^ 2 = 1) (m : GameMap) : Sighted l fov (b.step l m) := by
  rw [Body.step_player l m h.type]
  exact ⟨h.type, h.lens.rotate htrig _⟩

/-- A player that has just been created. -/
theorem sighted_startBody {l : Libm K}
    (hsqrt : ∀ x, 0 ≤ x → 0 ≤ l.sqrt x ∧ l.sqrt x * l.sqrt x = x) (fov : ℤ) (p : Vec K) {d : Vec K}
    (hd : 0 < vecMagSquared d) : Sighted l fov (startBody l fov p d) :=
  ⟨rfl, vecMagSquared_normalize hsqrt hd, rfl⟩

/-- The camera of the local player in every game. -/
theorem sighted_rule {c : Setting K}
    (hsqrt : ∀ x, 0 ≤ x → 0 ≤ c.libm.sqrt x ∧ c.libm.sqrt x * c.libm.sqrt x = x)
    (htrig : ∀ a, c.libm.cos a ^ 2 + c.libm.sin a ^ 2 = 1) :
    BodyRule c fun _ b => Sighted c.libm c.fov b := by
  refine ⟨fun m b k h => ⟨h.type, h.lens⟩, fun m b desl h => ⟨h.type, h.lens⟩,
    fun m b h => h.step htrig m, fun n _ m _ => ?_, fun m _ first => ?_⟩
  · exact sighted_startBody hsqrt c.fov _ (by norm_num [vecMagSquared])
  · refine sighted_startBody hsqrt c.fov _ ?_
    cases first <;> norm_num [vecMagSquared, spawnDirection]

end Exact

/-! ### On the screen -/

section Real

variable {fov : ℤ} {T : Type*}

/-- Half the field of view, and the angle that `render_object` compares with. -/
theorem angles (h : 0 < fov ∧ fov < 90) :
    0 < (fov * Real.pi / 360 : ℝ) ∧
      (fov * Real.pi / 360 : ℝ) < ((180 - fov).tdiv 2 : ℤ) * Real.pi / 180 ∧
      ((180 - fov).tdiv 2 : ℤ) * Real.pi / 180 ≤ Real.pi / 2 := by
  obtain ⟨hlow, hhigh⟩ := h
  have hpi := Real.pi_pos
  have hdiv : (180 - fov).tdiv 2 = (180 - fov) / 2 := Int.tdiv_eq_ediv_of_nonneg (by omega)
  have hfov : (0 : ℝ) < fov := Int.cast_pos.mpr hlow
  have hwide : (fov : ℝ) < 2 * ((180 - fov).tdiv 2 : ℤ) := by
    rw [hdiv]
    exact_mod_cast (by omega : fov < 2 * ((180 - fov) / 2))
  have hright : (((180 - fov).tdiv 2 : ℤ) : ℝ) ≤ 90 := by
    rw [hdiv]
    exact_mod_cast (by omega : (180 - fov) / 2 ≤ 90)
  refine ⟨by positivity, ?_, ?_⟩
  · nlinarith
  · nlinarith

theorem tan_pos_of_fov (h : 0 < fov ∧ fov < 90) :
    0 < realLibm.tan (fov * realLibm.pi / 360) := by
  obtain ⟨hlow, hmid, hhigh⟩ := angles h
  exact Real.tan_pos_of_pos_of_lt_pi_div_two hlow (hmid.trans_le hhigh)

theorem cullCosine_nonneg (h : 0 < fov ∧ fov < 90) : 0 ≤ cullCosine realLibm fov := by
  obtain ⟨hlow, hmid, hhigh⟩ := angles h
  refine Real.cos_nonneg_of_neg_pi_div_two_le_of_le ?_ hhigh
  exact (neg_nonpos.mpr Real.pi_div_two_pos.le).trans (hlow.trans hmid).le

/-- **Nothing on the screen is left out** for its angle. -/
theorem cullCosine_lt (h : 0 < fov ∧ fov < 90) {dir plane : Vec ℝ}
    (hlens : Lens realLibm fov dir plane)
    {depth k : ℝ} (hdepth : 0 < depth) (hk : k ^ 2 ≤ 1) :
    cullCosine realLibm fov < depth / vecMag realLibm (inView dir plane depth k) := by
  obtain ⟨hlow, hmid, hhigh⟩ := angles h
  have hcos : cullCosine realLibm fov < Real.cos (fov * Real.pi / 360) :=
    Real.cos_lt_cos_of_nonneg_of_le_pi_div_two hlow.le hhigh hmid
  have hcospos : 0 < Real.cos (fov * Real.pi / 360) := (cullCosine_nonneg h).trans_lt hcos
  have hsq := hlens.vecMagSquared_inView depth k
  have hmag : vecMag realLibm (inView dir plane depth k) ≤
      depth / Real.cos (fov * Real.pi / 360) := by
    show Real.sqrt (vecMagSquared (inView dir plane depth k)) ≤ _
    rw [Real.sqrt_le_iff]
    refine ⟨by positivity, ?_⟩
    have htan : 1 + Real.tan (fov * Real.pi / 360) ^ 2 =
        (Real.cos (fov * Real.pi / 360) ^ 2)⁻¹ := by
      rw [← Real.inv_one_add_tan_sq hcospos.ne', inv_inv]
    rw [hsq, div_pow, div_eq_mul_inv (depth ^ 2), ← htan]
    refine mul_le_mul_of_nonneg_left (add_le_add_right ?_ 1) (sq_nonneg depth)
    exact mul_le_of_le_one_right (sq_nonneg _) hk
  have hmagpos : 0 < vecMag realLibm (inView dir plane depth k) := by
    show 0 < Real.sqrt (vecMagSquared (inView dir plane depth k))
    rw [Real.sqrt_pos, hsq]
    positivity
  refine hcos.trans_le ?_
  rw [le_div_iff₀ hmagpos]
  calc Real.cos (fov * Real.pi / 360) * vecMag realLibm (inView dir plane depth k)
      ≤ Real.cos (fov * Real.pi / 360) * (depth / Real.cos (fov * Real.pi / 360)) := by gcongr
    _ = depth := mul_div_cancel₀ depth hcospos.ne'

/-- The column of the ray of a column. -/
theorem truncate_column {hRes : ℕ} (hres : 0 < hRes) (x : ℕ) :
    truncate ((hRes : ℝ) / 2 * (1 + (2 * x / hRes - 1))) = x := by
  have hne : (hRes : ℝ) ≠ 0 := Nat.cast_ne_zero.mpr hres.ne'
  have hcolumn : (hRes : ℝ) / 2 * (1 + (2 * x / hRes - 1)) = x := by
    field_simp
    ring
  rw [hcolumn, truncate_of_nonneg (Nat.cast_nonneg x), Int.floor_natCast]

/-- Sprites and walls agree for a player with a camera. -/
theorem Lens.spritesOnRays (hfov : 0 < fov ∧ fov < 90) {hRes : ℕ} (hres : 0 < hRes) (vRes : ℕ)
    (range : ℝ) {player : PlayerInfo ℝ}
    (hlens : Lens realLibm fov player.direction player.cameraPlane) (m : GameMap) :
    SpritesOnRays (T := T) realLibm fov hRes vRes range player m := by
  have hsqrt : ∀ x : ℝ, 0 ≤ x → 0 ≤ realLibm.sqrt x ∧ realLibm.sqrt x * realLibm.sqrt x = x :=
    fun x hx => ⟨Real.sqrt_nonneg x, Real.mul_self_sqrt hx⟩
  have htan := tan_pos_of_fov hfov
  -- an object on the ray of a column, in range and not too far to be seen
  have honRay : ∀ (x : ℕ) (t : ℝ) render, x ≤ hRes → 0 < t → 1 ≤ (vRes : ℝ) / t →
      vecMag realLibm (inView player.direction player.cameraPlane t (2 * x / hRes - 1)) ≤ range →
      ∃ r, renderObject realLibm fov hRes vRes player
          (inView player.direction player.cameraPlane t (2 * x / hRes - 1)) range render = some r ∧
        Upright vRes x ⌊(vRes : ℝ) / t⌋ r := by
    intro x t render hx ht hside hrange
    have hpart : (2 * x / hRes - 1 : ℝ) ^ 2 ≤ 1 := by
      rw [sq_le_one_iff_abs_le_one, abs_le]
      have hle : (2 * x / hRes : ℝ) ≤ 2 := by
        rw [div_le_iff₀ (Nat.cast_pos.mpr hres)]
        exact mul_le_mul_of_nonneg_left (Nat.cast_le.mpr hx) zero_le_two
      have hnonneg : (0 : ℝ) ≤ 2 * x / hRes := by positivity
      constructor <;> linarith
    rw [← truncate_column hres x]
    exact renderObject_ray hsqrt hlens htan ht hrange (cullCosine_lt hfov hlens ht hpart) hside
  refine ⟨fun rel render r hrel h => ?_, fun x t render hx ht hside hrange => ?_,
    fun textures x wall render hwall hdist hheight hrange => ?_⟩
  · have hdepth := inFront_of_renderObject hsqrt hlens htan (cullCosine_nonneg hfov) hrel h
    obtain ⟨k, hk⟩ := hlens.exists_inView htan rel hdepth.ne'
    rw [hk] at h
    exact ⟨_, k, hdepth, hk, upright_of_renderObject hsqrt hlens htan hdepth h⟩
  · exact honRay x t render hx ht hside hrange
  · obtain ⟨hx, hdir, hline⟩ := displayMap_wall hwall
    have hfloor : 0 ≤ (vRes : ℝ) / wall.dist := div_nonneg (Nat.cast_nonneg _) hdist.le
    have hside : (wall.lineHeight : ℤ) = ⌊(vRes : ℝ) / wall.dist⌋ := by
      rw [hline, truncate_of_nonneg hfloor, Int.toNat_of_nonneg (Int.floor_nonneg.mpr hfloor)]
    rw [hdir] at hrange ⊢
    rw [hside]
    refine honRay x wall.dist render hx.le hdist ?_ hrange
    rw [← Int.floor_pos, ← hside]
    exact_mod_cast hheight

/-- **In every game sprites and walls agree.**  Let the C library compute the real functions and
the field of view be less than a right angle.  In every state of every run of the program in
which a game is on, what `render_object` draws is in front of the local player, at the column
and of the height that belong to its direction and depth; an object on the ray of a column of
the screen that is in range and not smaller than a pixel is drawn, over this column; and before
the wall that the ray meets it is as high as `display_map` makes the wall. -/
theorem sprites_on_rays {c : Setting ℝ} (hlibm : c.libm = realLibm) (hfov : 0 < c.fov ∧ c.fov < 90)
    {hRes : ℕ} (hres : 0 < hRes) (vRes : ℕ) (range : ℝ) (w : World ℝ) (rtc : Rtc)
    (is : List (GameInput ℝ)) :
    (gameMachine c).Always (fun g => Playing g →
      SpritesOnRays (T := T) c.libm c.fov hRes vRes range g.world.player g.world.map)
      (Game.start w rtc) is := by
  have hsqrt : ∀ x : ℝ, 0 ≤ x → 0 ≤ realLibm.sqrt x ∧ realLibm.sqrt x * realLibm.sqrt x = x :=
    fun x hx => ⟨Real.sqrt_nonneg x, Real.mul_self_sqrt hx⟩
  refine body_always (sighted_rule (by rw [hlibm]; exact hsqrt)
    (by rw [hlibm]; exact Real.cos_sq_add_sin_sq)) (fun g h => ?_) w rtc is
  rw [hlibm] at h ⊢
  exact Lens.spritesOnRays hfov hres vRes range h.lens g.world.map

/-- A player that starts the first level and turns, on the screen of the game. -/
theorem sprites_on_rays_hall : (gameMachine hall).Always (fun g => Playing g →
    SpritesOnRays (T := Unit) hall.libm hall.fov 1152 864 20 g.world.player g.world.map)
      (Game.start { player := .zero, enemies := [], pickups := ⟨[], initCollisionTable 0 0⟩
                    map := ⟨[], 0, 0⟩, gunAnims := [], timeCounter := 0, state := .mainMenu
                    invMenu := .closed, nullTarget := false }
        { regA := 0, regB := 0, pieState := 0 })
      [.mouse ⟨0, 0⟩ true 0, .tick { polls := [], bots := fun _ => none },
        .mouse ⟨0, 0⟩ false (1 / 2), .tick { polls := [], bots := fun _ => none }] :=
  sprites_on_rays rfl (by decide) (by decide) 864 20 _ _ _

end Real

end OperationMinix
