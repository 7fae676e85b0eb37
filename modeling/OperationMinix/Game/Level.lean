import OperationMinix.Networking.Packet

/-!
# The game and its levels

The global state of the program: the world of the players, the networking code,
the clock chip, and what `level_manager.c` and `game_manager.c` keep.  A level is
loaded into it by `load_level` and taken out again by `free_level`.

The calls of these two are recorded, each `load_level` with the numbers of
enemies and pickups it finds when it starts, so that their discipline can be
stated.  The contents of the map files, the uninitialised slot of the pickups and
the layout of the screen are not part of the program; they are parameters
(`Setting`).

## Main definitions

* `Game`, `Setting` — the state of the program and what it is given.
* `loadLevel`, `freeLevel` — setting a level up and taking it down.
-/

namespace OperationMinix

/-! ### The state of the program -/

/-- A button, or a picture that can be clicked on. -/
inductive Button where
  /-- The buttons of the main menu. -/
  | single
  | multi
  | exitMain
  /-- The exit button of the other screens. -/
  | exitScreen
  /-- The buttons of the screen after a game. -/
  | restart
  | next
  | corner
  /-- Gun `i` of the gun menu, and its exit button. -/
  | gun (i : ℕ)
  | exitGame
  deriving DecidableEq, Repr

/-- What the program is given. -/
structure Setting (K : Type*) extends Env K where
  /-- `retrieve_settings().fov`. -/
  fov : ℤ
  /-- The map files, by number; `none` when `load_map` fails. -/
  maps : ℕ → Option GameMap
  /-- Where each button is drawn, and its size. -/
  layout : Button → Vec K × Vec K
  /-- The middle of the screen. -/
  middle : Vec K
  /-- What the unassigned slot `0` of the pickups holds. -/
  slot : Pickup K

/-- The registers A and B of the clock chip, and `pie_state`. -/
structure Rtc where
  regA : Byte
  regB : Byte
  pieState : ℕ
  deriving DecidableEq, Repr

/-- A call of the level manager. -/
inductive LevelCall where
  /-- `load_level`, with the numbers of enemies and pickups it starts from. -/
  | load (numEnemies pickupsSize : ℕ)
  /-- `free_level`. -/
  | free
  deriving DecidableEq, Repr

/-- The state of the program. -/
structure Game (K : Type*) where
  world : World K
  net : Net
  currLvl : ℤ
  gameTimer : ℤ
  rtc : Rtc
  /-- The calls of the level manager so far, oldest first. -/
  levelCalls : List LevelCall

/-! ### The clock chip -/

/-- `RTC_PIE`. -/
def rtcPie : Byte := 0x40

/-- `RTC_UIE`. -/
def rtcUie : Byte := 0x10

/-- `enable_pie_int`, `enable_uie_int`: set a bit of register B. -/
def Rtc.enable (bit : Byte) (r : Rtc) : Rtc := { r with regB := r.regB ||| bit }

/-- `disable_pie_int`, `disable_uie_int`: clear a bit of register B. -/
def Rtc.disable (bit : Byte) (r : Rtc) : Rtc := { r with regB := r.regB &&& ~~~bit }

/-- `rtc_set_periodic_500ms`. -/
def Rtc.setPeriodic500ms (r : Rtc) : Rtc := { r with regA := r.regA ||| 0x0f }

/-- `rtc_reset_pie`. -/
def Rtc.resetPie (r : Rtc) : Rtc := { r with regA := r.regA &&& 0xf0 }

section Model

variable {K : Type*} [Field K] [LinearOrder K] [FloorRing K] (c : Setting K)

namespace Game

/-- The current state of the game. -/
def state (g : Game K) : GameState := g.world.state

/-- `set_state`: leaving the main menu re-enables the update interrupt. -/
def setState (s : GameState) (g : Game K) : Game K :=
  { g with
    world := { g.world with state := s }
    rtc := if g.state = .mainMenu then g.rtc.enable rtcUie else g.rtc }

/-- `set_network_state`. -/
def setNetworkState (s : NetworkState) (g : Game K) : Game K :=
  { g with net := { g.net with state := s } }

/-- `init_player_ctrls`. -/
def initPlayerCtrls (g : Game K) : Game K :=
  { g with world := { g.world with player := { g.world.player with movm := .zero } } }

end Game

/-- `ms_detect_collision`. -/
def msDetectCollision (msPos buttonPos buttonSize : Vec K) : Bool :=
  msPos.x ≤ buttonPos.x + buttonSize.x ∧ msPos.x ≥ buttonPos.x ∧
    msPos.y ≤ buttonPos.y + buttonSize.y ∧ msPos.y ≥ buttonPos.y

/-! ### The contents of the levels -/

/-- A bot to be placed; without a direction it takes the one the bot before was
given, which `init_player` has normalised in place. -/
structure BotSpec (K : Type*) where
  position : Vec K
  direction : Option (Vec K)
  health : ℤ
  maxHealth : ℤ
  armor : ℤ
  maxArmor : ℤ
  gun : GunInstance

/-- The players of a level are `0.2` wide. -/
def playerRadius : K := 1 / 5

/-- The setup of a bot looking in a direction. -/
def BotSpec.setup (b : BotSpec K) (direction : Vec K) : PlayerSetup K :=
  { type := .bot, position := b.position, direction := direction, radius := playerRadius
    health := b.health, maxHealth := b.maxHealth, armor := b.armor, maxArmor := b.maxArmor
    guns := [b.gun] }

/-- The bots of a level, in order, from the direction the source's variable holds. -/
def placeBots (l : Libm K) (fov : ℤ) : Vec K → List (BotSpec K) → World K → World K
  | _, [], w => w
  | d, b :: bs, w =>
    placeBots l fov (normalize l (b.direction.getD d)) bs
      (initPlayer l fov (b.setup (b.direction.getD d)) w)

/-- The animation of a pickup. -/
def pickupAnimation : PickupDetails → AnimatedSprite
  | .armor _ => { framesPerSprite := 10, curFrame := 0, numFig := 2, state := .finished }
  | _ => { framesPerSprite := 1, curFrame := 0, numFig := 1, state := .finished }

/-- `add_ammo`, `add_medkit` and `add_armor`. -/
def addDetails (slot : Pickup K) (x y radius : K) (details : PickupDetails) (s : PickupStore K) :
    PickupStore K :=
  (addPickup slot { details := details, pickedUp := false, collider := ⟨⟨x, y⟩, radius⟩
                    animation := pickupAnimation details } s).2

/-- A list of pickups of the same radius. -/
def placePickups (radius : K) (ps : List (K × K × PickupDetails)) (w : World K) : World K :=
  { w with pickups := ps.foldl (fun s p => addDetails c.slot p.1 p.2.1 radius p.2.2 s) w.pickups }

/-- The local player with its three guns. -/
def playerSetup (position direction : Vec K) (health : ℤ) (guns : List GunInstance) :
    PlayerSetup K :=
  { type := .player, position := position, direction := direction, radius := playerRadius
    health := health, maxHealth := 100, armor := 0, maxArmor := 100, guns := guns }

/-- `setup_game_1`, after its `set_state`. -/
def setupGame1 (w : World K) : World K :=
  let w := initPlayer c.libm c.fov (playerSetup ⟨2, 2⟩ ⟨1, 2⟩ 50
    [createGunInstance 0 0 0, createGunInstance 1 0 0, createGunInstance 2 0 0]) w
  let w := placePickups c (1 / 2)
    [(4, 3, .ammo 1 1), (4, 7 / 2, .medkit 30), (4, 5 / 2, .armor 20), (20, 5 / 2, .ammo 1 2)] w
  let bot (y : K) (gun : GunInstance) : BotSpec K :=
    { position := ⟨16, y⟩, direction := some ⟨-1, 0⟩, health := 50, maxHealth := 50, armor := 0
      maxArmor := 1, gun := gun }
  placeBots c.libm c.fov ⟨1, 2⟩
    [bot 2 (createGunInstance 0 0 0), bot 6 (createGunInstance 3 30 2),
      bot 8 (createGunInstance 3 30 2)] w

/-- The bots of the second level. -/
def bots2 : List (BotSpec K) :=
  let bot (x y : K) (direction : Option (Vec K)) (health armor maxArmor : ℤ) (gun : ℕ) :
      BotSpec K :=
    { position := ⟨x, y⟩, direction := direction, health := health, maxHealth := health
      armor := armor, maxArmor := maxArmor, gun := createGunInstance gun 30 2 }
  [ bot 2 6 (some ⟨1, 0⟩) 50 0 1 3, bot 17 6 (some ⟨-1, 0⟩) 50 0 1 3,
    bot 13 1 (some ⟨1, 0⟩) 50 0 10 3, bot 13 2 (some ⟨-1, 0⟩) 50 0 10 3,
    bot 16 11 (some ⟨0, -1⟩) 50 0 100 3, bot 24 8 (some ⟨0, 2⟩) 50 25 100 3,
    bot 28 3 none 50 25 100 3, bot 32 11 none 50 25 100 3, bot 19 21 none 50 50 100 3,
    bot 3 20 none 50 50 100 3, bot 11 16 none 50 50 100 3, bot 7 (61 / 2) none 100 100 100 3,
    bot 11 31 none 100 100 100 3, bot (65 / 2) (55 / 2) none 20 150 150 4,
    bot 37 9 none 10 10 10 4 ]

/-- The pickups of the second level. -/
def pickups2 : List (K × K × PickupDetails) :=
  [ (9 / 2, 25 / 2, .ammo 1 1), (7 / 2, 25 / 2, .ammo 1 1), (17 / 2, 5 / 2, .ammo 1 0),
    (77 / 2, 13 / 2, .ammo 1 2), (77 / 2, 25 / 2, .ammo 1 1), (77 / 2, 23 / 2, .ammo 1 0),
    (39 / 2, 37 / 2, .ammo 1 0), (21 / 2, 41 / 2, .ammo 1 0), (21 / 2, 39 / 2, .ammo 1 1),
    (69 / 2, 43 / 2, .ammo 1 2), (53 / 2, 59 / 2, .ammo 1 0), (43 / 2, 55 / 2, .ammo 1 0),
    (3 / 2, 19 / 2, .medkit 30), (15 / 2, 23 / 2, .medkit 30), (73 / 2, 5 / 2, .medkit 30),
    (9 / 2, 33 / 2, .medkit 30), (53 / 2, 63 / 2, .medkit 30), (15 / 2, 5 / 2, .armor 30),
    (69 / 2, 3 / 2, .armor 30), (75 / 2, 11 / 2, .armor 30), (5 / 2, 33 / 2, .armor 30),
    (53 / 2, 65 / 2, .armor 50) ]

/-- `setup_game_2`, after its `set_state`. -/
def setupGame2 (w : World K) : World K :=
  let w := initPlayer c.libm c.fov (playerSetup ⟨2, 2⟩ ⟨1, 2⟩ 50
    [createGunInstance 0 0 0, createGunInstance 1 11 1, createGunInstance 2 0 0]) w
  -- the second gun is loaded, and taken in hand
  let w := w.modify .player (switchGun 1)
  placePickups c (1 / 2) pickups2 (placeBots c.libm c.fov ⟨1, 2⟩ bots2 w)

/-- `setup_multiplayer`, after its `set_state`: the players start at opposite
ends. -/
def setupMultiplayer (player : ℕ) (w : World K) : World K :=
  let swap := decide (player = 2)
  let guns := [createGunInstance 0 0 0, createGunInstance 1 0 0, createGunInstance 2 0 0]
  let start (first : Bool) : Vec K × Vec K :=
    if first then (⟨2, 2⟩, ⟨1, 0⟩) else (⟨39, 17⟩, ⟨-1, 0⟩)
  let w := initPlayer c.libm c.fov (playerSetup (start (!swap)).1 (start (!swap)).2 100 guns) w
  let w := initPlayer c.libm c.fov
    { playerSetup (start swap).1 (start swap).2 100 guns with type := .networkPlayer } w
  let w := placePickups c (1 / 2)
    [(35 / 2, 37 / 2, .ammo 2 0), (19 / 2, 29 / 2, .ammo 2 1), (19 / 2, 7 / 2, .ammo 2 2),
      (29 / 2, 27 / 2, .ammo 2 0), (43 / 2, 27 / 2, .ammo 2 0), (59 / 2, 7 / 2, .ammo 2 0),
      (53 / 2, 19 / 2, .ammo 2 1), (51 / 2, 29 / 2, .ammo 2 2)] w
  placePickups c (3 / 5)
    [(33 / 2, 17 / 2, .armor 30), (33 / 2, 15 / 2, .armor 30), (57 / 2, 33 / 2, .armor 30),
      (43 / 2, 25 / 2, .armor 30)] w

/-! ### Loading and freeing -/

/-- A change to the world of the game. -/
def Game.inWorld (f : World K → World K) (g : Game K) : Game K := { g with world := f g.world }

/-- The part of `load_level` that sets up the players and pickups, for a mode of
one or two players. -/
def setupLevel (numMap : ℤ) (mode player : ℕ) (g : Game K) : Game K :=
  if mode = 1 then
    if numMap = 1 then ({ g with currLvl := 1 }.setState .game).inWorld (setupGame1 c)
    else if numMap = 2 then ({ g with currLvl := 2 }.setState .game).inWorld (setupGame2 c)
    else g
  else if mode = 2 then
    { (g.setState .mpGame).inWorld (setupMultiplayer c player) with currLvl := -1 }
  else g

/-- `load_level`; `true` is `OK`. -/
def loadLevel (numMap : ℤ) (mode player : ℕ) (g : Game K) : Bool × Game K :=
  -- what the level before has left behind shows here
  let call := LevelCall.load g.world.enemies.length g.world.pickups.pickups.length
  let g := { g with levelCalls := g.levelCalls ++ [call] }
  match c.maps numMap.toNat with
  | none => (false, g)
  | some m =>
    let pickups := { g.world.pickups with collisionTable := initCollisionTable m.columns m.lines }
    let world := { g.world with map := m, pickups := pickups, gunAnims := initAllGunAnims }
    (true, setupLevel c numMap mode player { g with world := world })

/-- `free_level`: what a level has allocated is gone, and the periodic interrupt
is off. -/
def freeLevel (g : Game K) : Game K :=
  { g with
    world := { g.world with
      map := { g.world.map with matrix := [] }
      player := { g.world.player with guns := [] }
      enemies := []
      pickups :=
        { pickups := [], collisionTable := { g.world.pickups.collisionTable with table := [] } }
      gunAnims := [] }
    rtc := (g.rtc.disable rtcPie).resetPie
    levelCalls := g.levelCalls ++ [.free] }

end Model

end OperationMinix
