import OperationMinix.Player.Pickups
import Mathlib.Data.Rat.Floor

/-!
# The world and one tick of a player

`player_int_ih` of `player.c`: a player turns, moves, picks its gun, picks up
what it touches, shoots, and its gun and animations advance.  The players are
reached through references, as the source reaches them through pointers, so that
a shot changes its target wherever that is.

Two things are not decided by the source.  A shot reads a local variable `hit`
that may not have been assigned, and the ray that looks for a wall is a
parameter; results hold for every choice of the two (`Env`).  Following the null
target that the first one allows is recorded in the world; the store goes to no
player.

## Main definitions

* `World`, `PlayerRef` — the global variables the players act on.
* `fire` — one pull of the trigger.
* `playerIntIh` — one tick of a player.
* `initPlayer` — the creation of a player.
-/

namespace OperationMinix

set_option linter.unusedSectionVars false

/-- `game_state_t`. -/
inductive GameState where
  | mainMenu
  | mpMenu
  | game
  | mpGame
  | deadMenu
  | nextLvlMenu
  | endSGame
  | endMGame
  | winGame
  | loseGame
  | disconnect
  | exit
  deriving DecidableEq, Repr

/-- `menu_state`, of the inventory menu. -/
inductive MenuState where
  | closed
  | displaying
  deriving DecidableEq, Repr

/-- `ray_hit_t`. -/
structure RayHit (K : Type*) where
  hit : Bool
  side : ℕ
  mapPos : ℕ × ℕ
  distance : K

/-- The global variables that a player's tick reads and writes. -/
structure World (K : Type*) where
  player : PlayerInfo K
  enemies : List (PlayerInfo K)
  pickups : PickupStore K
  map : GameMap
  gunAnims : GunAnims
  timeCounter : ℕ
  /-- `get_state()`. -/
  state : GameState
  /-- `get_inv_menu_state()`. -/
  invMenu : MenuState
  /-- A shot has followed a null target. -/
  nullTarget : Bool

/-- A pointer to a player. -/
inductive PlayerRef where
  | player
  | enemy (i : ℕ)
  deriving DecidableEq, Repr

/-- What the source leaves open. -/
structure Env (K : Type*) where
  libm : Libm K
  /-- `shoot_ray`. -/
  shootRay : GameMap → Vec K → Vec K → K → RayHit K
  /-- What the variable `hit` of `fire` holds before it is assigned, by bullet. -/
  unassignedHit : World K → ℕ → Bool

section Model

variable {K : Type*} [Field K] [LinearOrder K] [FloorRing K]

/-- The player a pointer points to. -/
def World.get (w : World K) : PlayerRef → PlayerInfo K
  | .player => w.player
  | .enemy i => w.enemies.getD i .zero

/-- A change to the player a pointer points to. -/
def World.modify (w : World K) (r : PlayerRef) (f : PlayerInfo K → PlayerInfo K) : World K :=
  match r with
  | .player => { w with player := f w.player }
  | .enemy i => { w with enemies := w.enemies.modify i f }

/-! ### Turning and moving -/

/-- The displacement of the mouse, cut to what a packet can carry. -/
def clampDesl (x : K) : K :=
  if x > 19 / 10 then 19 / 10 else if x < -(19 / 10) then -(19 / 10) else x

/-- The angle a player is rotated by, in steps of `1/128`. -/
def turnAngle (mouseDesl : K) : K :=
  let xDelta := clampDesl mouseDesl
  let angle : K := truncate (absDouble xDelta * 128) / 128
  if xDelta ≥ 0 then angle else -angle

/-- The rotation matrix of `player_int_ih`. -/
def rotate (l : Libm K) (angle : K) (v : Vec K) : Vec K where
  x := v.x * l.cos angle - v.y * l.sin angle
  y := v.x * l.sin angle + v.y * l.cos angle

/-- One cell of the loop of `player_wall_collision`: a wall pushes the player
out. -/
def pushOut (l : Libm K) (m : GameMap) (radius : K) (center : Vec K) (cell : ℤ × ℤ) : Vec K :=
  if m.cell cell.1 cell.2 ≤ 0 then center
  else
    let distances := circleRectDistance ⟨center, radius⟩ (unitCell cell.1 cell.2)
    let squaredDistance := vecMagSquared distances
    let squaredRadius := radius * radius
    if squaredDistance ≥ squaredRadius then center
    else if squaredDistance = 0 then ⟨truncate (center.x + 1), truncate (center.y + 1)⟩
    else
      let factor := l.sqrt (squaredRadius / squaredDistance)
      { x := center.x + (distances.x - factor * distances.x)
        y := center.y + (distances.y - factor * distances.y) }

/-- `player_wall_collision`. -/
def playerWallCollision (l : Libm K) (m : GameMap) (radius : K) (newPos : Vec K) : Vec K :=
  if newPos.x < 0 ∨ newPos.y < 0 ∨ newPos.y ≥ m.lines ∨ newPos.x ≥ m.columns then newPos
  else
    ((neighbourhood newPos.x m.columns).flatMap fun x =>
      (neighbourhood newPos.y m.lines).map fun y => (x, y)).foldl (pushOut l m radius) newPos

/-- The movement asked for by the keys, as `1`, `0` or `-1` on each axis. -/
def keyMovement (k : KbdCtrlState) : Vec K where
  x := (if k.xPos then 1 else 0) - (if k.xNeg then 1 else 0)
  y := (if k.yPos then 1 else 0) - (if k.yNeg then 1 else 0)

/-- The part of `player_int_ih` that turns the player. -/
def turn (l : Libm K) (ply : PlayerInfo K) : PlayerInfo K :=
  let ply := if ply.type = .networkPlayer then
    { ply with movm := { ply.movm with movement := keyMovement ply.movm.kbdState } } else ply
  if ply.type = .player ∨ ply.type = .networkPlayer then
    let angle := turnAngle ply.movm.mouseDesl
    { ply with
      direction := rotate l angle ply.direction
      cameraPlane := rotate l angle ply.cameraPlane }
  else ply

/-- The part of `player_int_ih` that moves the player, at `PLAYER_SPEED` along
its direction and `STRAFE_SPEED` across it. -/
def move (l : Libm K) (m : GameMap) (ply : PlayerInfo K) : PlayerInfo K :=
  let dir := ply.direction
  let perpDir : Vec K := ⟨-dir.y, dir.x⟩
  let mov := ply.movm.movement
  let speedMult : K := 1 - (if ply.movm.kbdState.crouch then 1 / 2 else 0) +
    (if ply.movm.kbdState.sprint then 1 / 2 else 0)
  let pos : Vec K :=
    { x := ply.position.x + speedMult * (1 / 20 * mov.x * dir.x + 1 / 40 * mov.y * perpDir.x)
      y := ply.position.y + speedMult * (1 / 20 * mov.x * dir.y + 1 / 40 * mov.y * perpDir.y) }
  { ply with position := playerWallCollision l m ply.radius pos }

/-! ### Choosing a gun -/

/-- Key `i` of the number row, taken: it is released, and gun `i - 1` chosen. -/
def takeNumberKey (i : ℕ) (ply : PlayerInfo K) : PlayerInfo K :=
  let kbd := { ply.movm.kbdState with numsPress := ply.movm.kbdState.numsPress.set i false }
  switchGun (i - 1) { ply with movm := { ply.movm with kbdState := kbd } }

/-- The loop of `player_int_ih` over the number keys: the first one pressed is
taken. -/
def numberKeys (ply : PlayerInfo K) : PlayerInfo K :=
  match [1, 2, 3].find? fun i => ply.movm.kbdState.numsPress.getD i false with
  | none => ply
  | some i => takeNumberKey i ply

/-! ### Shooting -/

/-- `hit_player`: whether `p1` looks at `p2`, and how far away it is. -/
def hitPlayer (l : Libm K) (p1 p2 : PlayerInfo K) : Bool × K :=
  let playerDir : Vec K := ⟨p2.position.x - p1.position.x, p2.position.y - p1.position.y⟩
  let tangDir := normalize l ⟨-playerDir.y, playerDir.x⟩
  let tangentHitLeft : Vec K :=
    ⟨p2.position.x - tangDir.x * p2.radius, p2.position.y - tangDir.y * p2.radius⟩
  let leftMax : Vec K := ⟨tangentHitLeft.x - p1.position.x, tangentHitLeft.y - p1.position.y⟩
  let maxAng := degree l leftMax playerDir
  let rayAng := degree l p1.direction playerDir
  (absDouble rayAng ≤ maxAng, vecMag l playerDir)

/-- The variables of the search for a target: `hit`, `hit_target` and `dist`. -/
structure Aim (K : Type*) where
  hit : Bool
  target : Option PlayerRef
  dist : K

/-- One target looked at: alive, in view, within range, and not farther than the
one found before by `0.2` or more. -/
def aimAt (l : Libm K) (w : World K) (ply : PlayerInfo K) (a : Aim K) (r : PlayerRef) : Aim K :=
  let seen := hitPlayer l ply (w.get r)
  if (w.get r).health > 0 ∧ seen.1 ∧ seen.2 ≤ (ply.gunAt ply.gunIndex).gun.range ∧
      (a.dist < 0 ∨ seen.2 < a.dist + 1 / 5) then
    { hit := true, target := some r, dist := seen.2 }
  else a

/-- The players a shot may hit: the enemies for the local player, and the local
player for everybody else. -/
def targets (w : World K) (ply : PlayerInfo K) : List PlayerRef :=
  if ply.type = .player then (List.range w.enemies.length).map .enemy else [.player]

/-- What a bullet does to the player it hits: armour takes half the damage and,
when it breaks, passes on what it could not take. -/
def hurt (damage : ℤ) (p : PlayerInfo K) : PlayerInfo K :=
  let lose (damage : ℤ) (p : PlayerInfo K) : PlayerInfo K :=
    { p with health := max (p.health - damage) 0 }
  if p.armor > 0 then
    let armor := truncate ((p.armor : ℚ) - 1 / 2 * damage)
    if armor < 0 then lose (-armor) { p with armor := 0 } else { p with armor := armor }
  else lose damage p

/-- The end of a bullet: it hurts its target, if there is one to follow. -/
def strike (damage : ℤ) (hit : Bool) (target : Option PlayerRef) (w : World K) : World K :=
  if hit then
    match target with
    | some r => w.modify r (hurt damage)
    | none => { w with nullTarget := true }
  else w

/-- The body of the loop of `fire`, for one bullet of the player at `ref`. -/
def bullet (e : Env K) (ref : PlayerRef) (i : ℕ) (w : World K) : World K :=
  let ply := w.get ref
  let gun := (ply.gunAt ply.gunIndex).gun
  -- `hit` keeps what it held when no target is found
  let aim := (targets w ply).foldl (aimAt e.libm w ply)
    { hit := e.unassignedHit w i, target := none, dist := -1 }
  let ray := e.shootRay w.map ply.position ply.direction gun.range
  strike gun.damage (if ray.hit ∧ ray.distance < aim.dist then false else aim.hit) aim.target w

/-- The loop of `fire` with at most `n` bullets left, from bullet `i` on. -/
def fireLoop (e : Env K) (ref : PlayerRef) : ℕ → ℕ → World K → World K
  | 0, _, w => w
  | n + 1, i, w =>
    -- every bullet of the shot costs ammunition, so the magazine may end it
    if ((w.get ref).gunAt (w.get ref).gunIndex).currAmmo > 0 then
      fireLoop e ref n (i + 1) ((bullet e ref i w).modify ref fun p =>
        p.modifyGun fun g => { g with currAmmo := g.currAmmo - 1 })
    else w

/-- `fire`. -/
def fire (e : Env K) (ref : PlayerRef) (w : World K) : Bool × World K :=
  let gunInst := (w.get ref).gunAt (w.get ref).gunIndex
  if gunInst.state ≠ .ready then (false, w)
  else
    (true, fireLoop e ref gunInst.gun.ammoPerFire 0
      (w.modify ref fun p => p.modifyGun fun g => { g with currAnim := 1 }))

/-! ### One tick -/

/-- Whether `player_int_ih` calls `fire`: always, but for the local player. -/
def wantsToShoot (w : World K) (ply : PlayerInfo K) : Bool :=
  ply.type ≠ .player ∨ ((w.state = .game ∨ w.state = .mpGame) ∧ w.invMenu = .closed ∧
    ((ply.movm.lbHeldDown ∧ (ply.gunAt ply.gunIndex).gun.automatic) ∨ ply.movm.lbSingleTap))

/-- The animation a player is shown with. -/
def chooseAnim (shot : Bool) (ply : PlayerInfo K) : ℕ :=
  let k := ply.movm.kbdState
  let fireAnimState := ((ply.sprites.getD 4 [])[0]?).map AnimatedSprite.state
  if ply.health ≤ 0 then 5
  else if fireAnimState = some .progress ∨ shot then 4
  else if absDouble ply.movm.movement.x < 1 / 20 ∧ absDouble ply.movm.movement.y < 1 / 20 then 0
  else if (k.crouch ∧ k.sprint) ∨ (¬ k.crouch ∧ ¬ k.sprint) then 2
  else if k.crouch then 1
  else 3

/-- The part of `player_int_ih` that advances the animations of a player seen by
others; one that has died is no longer shown once the animation has ended. -/
def animate (timeCounter : ℕ) (shot : Bool) (ply : PlayerInfo K) : PlayerInfo K :=
  if ply.type = .player then ply
  else
    let anim := chooseAnim shot ply
    let views := ply.sprites.getD anim []
    { ply with
      currAnim := anim
      sprites := ply.sprites.set anim (views.map fun a => (updateAnim timeCounter a).2)
      shouldRender :=
        if anim = 5 ∧ views.any fun a => (updateAnim timeCounter a).1 then false
        else ply.shouldRender }

/-- The first half of `player_int_ih`: what the player does to itself. -/
def steer (l : Libm K) (m : GameMap) (ply : PlayerInfo K) : PlayerInfo K :=
  let ply := move l m (turn l ply)
  -- the controls of a bot are set by its controller
  if ply.type = .bot then ply else updatePlayerControls (numberKeys ply)

/-- The part of `player_int_ih` that picks up what the player touches. -/
def pickUp (ref : PlayerRef) (w : World K) : World K :=
  let idx := checkPlayerPickupCollision w.pickups (w.get ref)
  if idx > 0 then
    let r := pickupIndex (w.get ref) idx w.pickups
    { w.modify ref fun _ => r.1 with pickups := r.2 }
  else w

/-- The part of `player_int_ih` that shoots. -/
def shoot (e : Env K) (ref : PlayerRef) (w : World K) : Bool × World K :=
  if wantsToShoot w (w.get ref) then fire e ref w else (false, w)

/-- The end of `player_int_ih`: the animations and the gun advance. -/
def finishTick (ref : PlayerRef) (shot : Bool) (w : World K) : World K :=
  let w := w.modify ref (animate w.timeCounter shot)
  let ply := w.get ref
  let r := updateGunState w.timeCounter shot (ply.type = .player) (ply.gunAt ply.gunIndex)
    w.gunAnims
  { w.modify ref fun p => p.modifyGun fun _ => r.1 with gunAnims := r.2 }

/-- `player_int_ih`. -/
def playerIntIh (e : Env K) (ref : PlayerRef) (w : World K) : World K :=
  let w := pickUp ref (w.modify ref (steer e.libm w.map))
  let r := shoot e ref w
  finishTick ref r.1 r.2

/-! ### Creating a player -/

/-- The arguments of `init_player`. -/
structure PlayerSetup (K : Type*) where
  type : PlayerType
  position : Vec K
  direction : Vec K
  radius : K
  health : ℤ
  maxHealth : ℤ
  armor : ℤ
  maxArmor : ℤ
  /-- `instances`, of which `num_guns` are taken. -/
  guns : List GunInstance

/-- The changes `init_player` makes to the first gun: it is taken out of the
inventory, and a bot's is slower and shorter. -/
def firstGun (type : PlayerType) (g : GunInstance) : GunInstance :=
  let g := { g with state := .initial }
  if type = .bot then { g with gun := { g.gun with cooldownTime := 30, range := 5 } } else g

/-- The player that `init_player` builds, with the field of view `fov`. -/
def newPlayer (l : Libm K) (fov : ℤ) (a : PlayerSetup K) : PlayerInfo K :=
  let direction := normalize l a.direction
  let factor : K := l.tan (fov * l.pi / 360)
  { PlayerInfo.zero with
    type := a.type
    health := a.health
    maxHealth := a.maxHealth
    armor := a.armor
    maxArmor := a.maxArmor
    inventorySize := a.guns.length
    position := a.position
    direction := direction
    radius := a.radius
    shouldRender := true
    guns := a.guns.modify 0 (firstGun a.type)
    sprites := if a.type = .player then [] else initPlayerAnims
    cameraPlane :=
      if a.type = .player then ⟨-direction.y * factor, direction.x * factor⟩ else ⟨0, 0⟩ }

/-- `init_player`: the local player, or one more enemy. -/
def initPlayer (l : Libm K) (fov : ℤ) (a : PlayerSetup K) (w : World K) : World K :=
  if a.type = .player then { w with player := newPlayer l fov a }
  else { w with enemies := w.enemies ++ [newPlayer l fov a] }

/-! ### What a tick leaves alone

Only `numberKeys` touches the keyboard and the choice of the gun.  Every other
part of the tick changes other fields, of the player or of its target, so one
relation, kept by each part, says it all. -/

/-- The keys, the kind of player and the choice of the gun are the same. -/
structure SameControls (p q : PlayerInfo K) : Prop where
  kbdState : q.movm.kbdState = p.movm.kbdState
  type : q.type = p.type
  gunIndex : q.gunIndex = p.gunIndex

namespace SameControls

variable {p q r : PlayerInfo K}

theorem refl (p : PlayerInfo K) : SameControls p p := ⟨rfl, rfl, rfl⟩

theorem trans (h : SameControls p q) (h' : SameControls q r) : SameControls p r :=
  ⟨h'.kbdState.trans h.kbdState, h'.type.trans h.type, h'.gunIndex.trans h.gunIndex⟩

theorem modifyGun (f : GunInstance → GunInstance) (p : PlayerInfo K) :
    SameControls p (p.modifyGun f) := ⟨rfl, rfl, rfl⟩

theorem turn (l : Libm K) (p : PlayerInfo K) : SameControls p (turn l p) := by
  unfold OperationMinix.turn
  dsimp only
  split_ifs <;> exact ⟨rfl, rfl, rfl⟩

theorem move (l : Libm K) (m : GameMap) (p : PlayerInfo K) : SameControls p (move l m p) :=
  ⟨rfl, rfl, rfl⟩

theorem updatePlayerControls (p : PlayerInfo K) : SameControls p (updatePlayerControls p) := by
  unfold OperationMinix.updatePlayerControls
  dsimp only
  split <;> split_ifs <;> exact ⟨rfl, rfl, rfl⟩

theorem pickupHandler (d : PickupDetails) (p : PlayerInfo K) :
    SameControls p (pickupHandler d p).2 := by
  cases d with
  | ammo packets ammoIndex => exact ⟨rfl, rfl, rfl⟩
  | medkit health => exact ⟨rfl, rfl, rfl⟩
  | armor armor => exact ⟨rfl, rfl, rfl⟩

theorem pickupIndex (p : PlayerInfo K) (i : ℕ) (s : PickupStore K) :
    SameControls p (pickupIndex p i s).1 := by
  unfold OperationMinix.pickupIndex
  split
  · exact refl p
  · exact pickupHandler _ p

theorem hurt (damage : ℤ) (p : PlayerInfo K) : SameControls p (hurt damage p) := by
  unfold OperationMinix.hurt
  dsimp only
  split_ifs <;> exact ⟨rfl, rfl, rfl⟩

theorem animate (t : ℕ) (shot : Bool) (p : PlayerInfo K) : SameControls p (animate t shot p) := by
  unfold OperationMinix.animate
  split_ifs <;> exact ⟨rfl, rfl, rfl⟩

end SameControls

/-- The same players with the same controls, in the same state of the game. -/
structure World.SameControls (w v : World K) : Prop where
  players : ∀ s, OperationMinix.SameControls (w.get s) (v.get s)
  enemies : v.enemies.length = w.enemies.length
  state : v.state = w.state

namespace World

/-- A pointer that points to a player. -/
def Valid (w : World K) : PlayerRef → Prop
  | .player => True
  | .enemy i => i < w.enemies.length

theorem get_modify_self {w : World K} {r : PlayerRef} (hr : w.Valid r)
    (f : PlayerInfo K → PlayerInfo K) : (w.modify r f).get r = f (w.get r) := by
  cases r with
  | player => rfl
  | enemy i =>
    have hi : i < w.enemies.length := hr
    simp [modify, get, List.getD, hi]

theorem get_modify_of_ne {w : World K} {r s : PlayerRef} (hs : s ≠ r)
    (f : PlayerInfo K → PlayerInfo K) : (w.modify r f).get s = w.get s := by
  cases r with
  | player =>
    cases s with
    | player => exact absurd rfl hs
    | enemy j => rfl
  | enemy i =>
    cases s with
    | player => rfl
    | enemy j =>
      have hij : i ≠ j := by rintro rfl; exact hs rfl
      simp [modify, get, List.getD, hij]

theorem modify_of_not_valid {w : World K} {r : PlayerRef} (hr : ¬ w.Valid r)
    (f : PlayerInfo K → PlayerInfo K) : w.modify r f = w := by
  cases r with
  | player => exact absurd trivial hr
  | enemy i =>
    have hi : w.enemies.length ≤ i := Nat.le_of_not_lt hr
    simp [modify, List.modify_eq_self hi]

theorem enemies_length_modify (w : World K) (r : PlayerRef) (f : PlayerInfo K → PlayerInfo K) :
    (w.modify r f).enemies.length = w.enemies.length := by
  cases r with
  | player => rfl
  | enemy i => simp [modify]

theorem valid_modify {w : World K} {r : PlayerRef} (hr : w.Valid r)
    (f : PlayerInfo K → PlayerInfo K) : (w.modify r f).Valid r := by
  cases r with
  | player => trivial
  | enemy i => exact hr.trans_eq (enemies_length_modify w _ _).symm

@[simp] theorem state_modify (w : World K) (r : PlayerRef) (f : PlayerInfo K → PlayerInfo K) :
    (w.modify r f).state = w.state := by
  cases r <;> rfl

namespace SameControls

variable {w v u : World K} {ref : PlayerRef}

theorem refl (w : World K) : w.SameControls w := ⟨fun _ => .refl _, rfl, rfl⟩

theorem trans (h : w.SameControls v) (h' : v.SameControls u) : w.SameControls u :=
  ⟨fun s => (h.players s).trans (h'.players s), h'.enemies.trans h.enemies,
    h'.state.trans h.state⟩

theorem valid (h : w.SameControls v) (hr : w.Valid ref) : v.Valid ref := by
  cases ref with
  | player => trivial
  | enemy i => exact hr.trans_eq h.enemies.symm

/-- A change that keeps the controls of the player it is made to keeps them all. -/
theorem modify {f : PlayerInfo K → PlayerInfo K}
    (hf : OperationMinix.SameControls (w.get ref) (f (w.get ref))) :
    w.SameControls (w.modify ref f) := by
  by_cases hr : w.Valid ref
  · refine ⟨fun s => ?_, enemies_length_modify w ref f, state_modify w ref f⟩
    by_cases hs : s = ref
    · rw [hs, get_modify_self hr]
      exact hf
    · rw [get_modify_of_ne hs]
      exact .refl _
  · rw [modify_of_not_valid hr]
    exact .refl w

theorem pickUp (ref : PlayerRef) (w : World K) : w.SameControls (pickUp ref w) := by
  unfold OperationMinix.pickUp
  dsimp only
  split
  · have h : w.SameControls (w.modify ref fun _ =>
        (pickupIndex (w.get ref) (checkPlayerPickupCollision w.pickups (w.get ref)) w.pickups).1) :=
      modify (OperationMinix.SameControls.pickupIndex _ _ _)
    exact ⟨fun s => by cases s <;> exact h.players _, h.enemies, h.state⟩
  · exact refl w

theorem strike (damage : ℤ) (hit : Bool) (target : Option PlayerRef) (w : World K) :
    w.SameControls (strike damage hit target w) := by
  unfold OperationMinix.strike
  split
  · cases target with
    | some r => exact modify (.hurt damage _)
    | none => exact ⟨fun s => by cases s <;> exact .refl _, rfl, rfl⟩
  · exact refl w

theorem fireLoop (e : Env K) (ref : PlayerRef) : ∀ (n i : ℕ) (w : World K),
    w.SameControls (fireLoop e ref n i w) := by
  intro n
  induction n with
  | zero => intro i w; exact refl w
  | succ n ih =>
    intro i w
    unfold OperationMinix.fireLoop
    split
    · exact ((strike _ _ _ w).trans (modify (.modifyGun _ _))).trans (ih (i + 1) _)
    · exact refl w

theorem shoot (e : Env K) (ref : PlayerRef) (w : World K) :
    w.SameControls (shoot e ref w).2 := by
  unfold OperationMinix.shoot fire
  dsimp only
  split_ifs
  · exact refl w
  · exact (modify (.modifyGun _ _)).trans (fireLoop e ref _ _ _)
  · exact refl w

theorem finishTick (ref : PlayerRef) (shot : Bool) (w : World K) :
    w.SameControls (finishTick ref shot w) := by
  have h1 : w.SameControls (w.modify ref (animate w.timeCounter shot)) :=
    modify (.animate _ _ _)
  refine h1.trans ?_
  have h2 : ∀ (v : World K) (g : GunInstance),
      v.SameControls (v.modify ref fun p => p.modifyGun fun _ => g) :=
    fun v g => modify (.modifyGun _ _)
  unfold OperationMinix.finishTick
  dsimp only
  exact ⟨fun s => by cases s <;> exact (h2 _ _).players _, (h2 _ _).enemies, (h2 _ _).state⟩

end SameControls

end World

/-- **A tick keeps everybody's controls**, but for what its own player does to
itself at its start. -/
theorem sameControls_playerIntIh (e : Env K) (ref : PlayerRef) (w : World K) :
    (w.modify ref (steer e.libm w.map)).SameControls (playerIntIh e ref w) :=
  ((World.SameControls.pickUp ref _).trans (World.SameControls.shoot e ref _)).trans
    (World.SameControls.finishTick ref _ _)

/-- What a player other than a bot does to its controls: it takes a number key. -/
theorem sameControls_steer (l : Libm K) (m : GameMap) {p : PlayerInfo K} (hp : p.type ≠ .bot) :
    SameControls (numberKeys (move l m (turn l p))) (steer l m p) := by
  have htype : (move l m (turn l p)).type ≠ .bot := by
    rw [(SameControls.move l m _).type, (SameControls.turn l p).type]
    exact hp
  unfold steer
  rw [if_neg htype]
  exact .updatePlayerControls _

end Model

/-! ### An open field -/

/-- A world before the level is set up, in which a shot meets nothing. -/
def emptyWorld : World ℚ :=
  { player := .zero, enemies := [], pickups := ⟨[], initCollisionTable 0 0⟩, map := ⟨[], 0, 0⟩
    gunAnims := [], timeCounter := 0, state := .mpGame, invMenu := .closed, nullTarget := false }

/-- An environment without walls. -/
def openField : Env ℚ :=
  { libm := { sqrt := id, cos := fun _ => 1, sin := fun _ => 0, tan := id, atan2 := fun y _ => y
              pi := 3 }
    shootRay := fun _ _ _ _ => { hit := false, side := 0, mapPos := (0, 0), distance := 0 }
    unassignedHit := fun _ _ => false }

/-- The replica of the multiplayer level. -/
def replicaSetup : PlayerSetup ℚ :=
  { type := .networkPlayer, position := ⟨39, 17⟩, direction := ⟨-1, 0⟩, radius := 1 / 5
    health := 100, maxHealth := 100, armor := 0, maxArmor := 100
    guns := [createGunInstance 0 0 0, createGunInstance 1 0 0, createGunInstance 2 0 0] }

end OperationMinix
