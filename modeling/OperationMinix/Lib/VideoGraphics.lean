import OperationMinix.Utils.Geometry

/-!
# Colours, sprites and the lines of the screen

The data that the drawing functions share: the colours as they are in the buffer, the
sprites, and what `display_map` leaves behind for every column of the screen, which
`draw_walls` reads to paint the walls and the sprites read to stay behind them.
-/

namespace OperationMinix

/-- A colour in the buffer: a byte each of blue, green and red, and one that is unused. -/
abbrev Color := BitVec 32

/-- `MAX_SPRITE_WIDTH`. -/
def maxSpriteWidth : ℤ := 80

/-- `MAX_SPRITE_HEIGHT`. -/
def maxSpriteHeight : ℤ := 80

/-- `START_DARKEN`. -/
def startDarken : ℤ := 1

/-- `sprite_t`. -/
structure Sprite where
  textureSize : ℕ × ℕ
  invisColor : Color
  xOffset : ℤ
  yOffset : ℤ
  map : List Color
  deriving DecidableEq, Repr

/-- `map[i]`. -/
def Sprite.texel (s : Sprite) (i : ℤ) : Color := s.map.getD i.toNat 0

/-- `line_tex_t`; `T` are the pointers to the textures. -/
structure LineTex (K T : Type*) where
  darken : Bool
  texHitX : ℤ
  texY : K
  step : K
  lastTexY : ℤ
  side : ℕ
  darkenFactor : K
  tex : Option T

/-- `line_t`. -/
structure ScreenLine (K T : Type*) where
  drawHigher : ℤ
  drawLower : ℤ
  texture : LineTex K T
  color : Color
  dist : K

section

variable {K T : Type*} [Field K]

/-- `memset` of a line. -/
def ScreenLine.zero : ScreenLine K T :=
  { drawHigher := 0, drawLower := 0, color := 0, dist := 0
    texture :=
      { darken := false, texHitX := 0, texY := 0, step := 0, lastTexY := 0, side := 0
        darkenFactor := 0, tex := none } }

variable [LinearOrder K] [FloorRing K]

/-- A component of a colour, times a factor. -/
def darkenByte (b : BitVec 8) (factor : K) : BitVec 8 :=
  BitVec.ofInt 8 (truncate (b.toNat * factor))

/-- `darken`. -/
def darken (color : Color) (factor : K) : Color :=
  color.extractLsb' 24 8 ++ darkenByte (color.extractLsb' 16 8) factor ++
    darkenByte (color.extractLsb' 8 8) factor ++ darkenByte (color.extractLsb' 0 8) factor

end

end OperationMinix
