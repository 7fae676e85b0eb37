import OperationMinix.Player.Gun
import OperationMinix.Utils.Geometry

/-!
# Players and their controls

The records `controls_t` and `player_info_t`.  One record serves the local
player, the bots, and the replica of the other machine's player, which is driven
by the packets that arrive.
-/

namespace OperationMinix

/-- `kbd_ctrl_state`. -/
structure KbdCtrlState where
  xPos : Bool
  xNeg : Bool
  yPos : Bool
  yNeg : Bool
  sprint : Bool
  crouch : Bool
  gunMenu : Bool
  /-- `nums_press`, of ten keys. -/
  numsPress : List Bool
  deriving DecidableEq, Repr

/-- `key_state_t`. -/
inductive KeyState where
  | keyUp
  | keyDown
  deriving DecidableEq, Repr

/-- `player_type_t`. -/
inductive PlayerType where
  | player
  | networkPlayer
  | bot
  deriving DecidableEq, Repr

/-- `controls_t`; of the mouse packet, the left button. -/
structure Controls (K : Type*) where
  movement : Vec K
  kbdState : KbdCtrlState
  mousePos : Vec K
  /-- `mouse_pkt.lb`. -/
  lb : Bool
  mouseState : KeyState
  mouseDesl : K
  lbSingleTap : Bool
  lbHeldDown : Bool
  deriving DecidableEq, Repr

/-- `player_info_t`, without the fields no function reads. -/
structure PlayerInfo (K : Type*) where
  movm : Controls K
  position : Vec K
  direction : Vec K
  cameraPlane : Vec K
  radius : K
  health : ℤ
  maxHealth : ℤ
  armor : ℤ
  maxArmor : ℤ
  guns : List GunInstance
  gunIndex : ℕ
  inventorySize : ℕ
  currAnim : ℕ
  type : PlayerType
  shouldRender : Bool
  /-- The animations, and for each the eight directions it is seen from. -/
  sprites : List (List AnimatedSprite)
  deriving DecidableEq, Repr

/-- `init_player_anims`: idle, crouch, walk, run, fire and death. -/
def initPlayerAnims : List (List AnimatedSprite) :=
  let anim (framesPerSprite numFig : ℕ) : List AnimatedSprite :=
    List.replicate 8 { framesPerSprite, curFrame := 0, numFig, state := .finished }
  [anim 1 1, anim 20 4, anim 10 4, anim 5 4, anim 5 3, anim 5 8]

section

variable {K : Type*} [Field K]

/-- `memset(&movm, 0, sizeof(controls_t))`. -/
def Controls.zero : Controls K :=
  { movement := ⟨0, 0⟩
    kbdState :=
      { xPos := false, xNeg := false, yPos := false, yNeg := false, sprint := false
        crouch := false, gunMenu := false, numsPress := List.replicate 10 false }
    mousePos := ⟨0, 0⟩, lb := false, mouseState := .keyUp, mouseDesl := 0, lbSingleTap := false
    lbHeldDown := false }

/-- `memset(ptr, 0, sizeof(player_info_t))`. -/
def PlayerInfo.zero : PlayerInfo K :=
  { movm := .zero, position := ⟨0, 0⟩, direction := ⟨0, 0⟩, cameraPlane := ⟨0, 0⟩, radius := 0
    health := 0, maxHealth := 0, armor := 0, maxArmor := 0, guns := [], gunIndex := 0
    inventorySize := 0, currAnim := 0, type := .player, shouldRender := false, sprites := [] }

/-- `guns[i]`. -/
def PlayerInfo.gunAt (ply : PlayerInfo K) (i : ℕ) : GunInstance := ply.guns.getD i .zero

/-- A change to the gun in hand. -/
def PlayerInfo.modifyGun (ply : PlayerInfo K) (f : GunInstance → GunInstance) : PlayerInfo K :=
  { ply with guns := ply.guns.modify ply.gunIndex f }

/-- `switch_gun`. -/
def switchGun (index : ℕ) (ply : PlayerInfo K) : PlayerInfo K :=
  if ply.gunIndex ≠ index then
    let guns := ply.guns.modify ply.gunIndex fun g => { g with state := .inventory }
    { ply with
      gunIndex := index
      guns := guns.modify index fun g => { g with state := .initial } }
  else ply

/-- `update_player_controls`: a state machine that detects single taps. -/
def updatePlayerControls (ply : PlayerInfo K) : PlayerInfo K :=
  let m := { ply.movm with lbHeldDown := ply.movm.lb }
  match m.mouseState with
  | .keyUp =>
    { ply with movm := if m.lb then { m with lbSingleTap := true, mouseState := .keyDown } else m }
  | .keyDown =>
    let m := { m with lbSingleTap := false }
    { ply with movm := if m.lb then m else { m with mouseState := .keyUp } }

end

end OperationMinix
