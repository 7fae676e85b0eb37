import OperationMinix.Game.Manager
import OperationMinix.Runs.Refine

/-!
# The controllers of the enemies

`handle_enemy` decides where an enemy goes.  As long as it sees the player it follows it;
otherwise it walks to the positions of its list, one after the other, and goes on to the next when
it has arrived or after a while.  Whether it has arrived is tested with `abs`, which takes an
integer: the distance on either axis is rounded towards zero before it is compared with `0.5`.

## Main definitions

* `EnemyCtrl`, `initEnemy` — a controller, and how it is made.
* `EnemyCtrl.control`, `controlAll` — one call of `handle_enemy`, and of `handle_enemies`.
* `botsOf` — the decisions that the controllers have left with their bots.
* `LedGame`, `ledMachine` — the game with its controllers, which decide what the bots do.
* `patrolMachine` — the calls for one enemy, whatever happens in between.
* `PatrolsOn` — what is to be expected of a call.

## Main results

* `control_player` — the enemy is led by the decision of its controller.
* `handleEnemies_decided` — the ticks of the game find the enemies as `handle_enemies` has left
  them.
* `ledMachine_refines` — **the game with its controllers is the game**, for some decisions of the
  bots in every tick.
* `controlAll_steps` — a call of `handle_enemies` is a step of every controller.
* `Patrol.control` — what a call does to the list and the destination.
* `patrols_iff` — **an enemy patrols as it should exactly when** it does not take a place that is
  less than 1, but more than 0.5 away for the one it goes to.
-/

namespace OperationMinix

open Runs

set_option linter.unusedSectionVars false

/-- `enemy_ctrl_t`. -/
structure EnemyCtrl (K : Type*) where
  random : Bool
  positions : List (Vec K)
  currIdx : ℤ
  currDest : Vec K
  numPositions : ℕ
  lastOp : ℤ
  timeoutMovm : ℤ
  range : K
  fov : K
  player : PlayerRef
  deriving DecidableEq, Repr

/-- What the calls of `rand` in `handle_enemy` return: two for a destination, and the last one. -/
structure Draws where
  destX : ℕ
  destY : ℕ
  last : ℕ

section Model

variable {K : Type*} [Field K] [LinearOrder K] [FloorRing K] {σ : Type*}

/-- `init_enemy`: the controller; `dest` is what `curr_dest` holds before it is assigned. -/
def initEnemy (enemy : PlayerRef) (random : Bool) (timeoutMove : ℤ) (fov range : K)
    (numPositions : ℕ) (pos : List (Vec K)) (dest : Vec K) : EnemyCtrl K :=
  { random, positions := pos.take numPositions, currIdx := -1, currDest := dest
    numPositions := numPositions % 2 ^ 8, lastOp := 0, timeoutMovm := timeoutMove, range, fov
    player := enemy }

/-- `rotate_vec`, by an angle in degrees. -/
def rotateVec (l : Libm K) (ang : K) (v : Vec K) : Vec K := rotate l (ang * l.pi / 180) v

namespace EnemyCtrl

variable (e : Env K) (w : World K) (enm : EnemyCtrl K)

/-- `dir_to_player`. -/
def dirToPlayer : Vec K :=
  { x := w.player.position.x - (w.get enm.player).position.x
    y := w.player.position.y - (w.get enm.player).position.y }

/-- `dists`. -/
def dists : K := vecMag e.libm (enm.dirToPlayer w)

/-- `player_ang`, which is zero when the player is out of range. -/
def playerAng : K :=
  if enm.dists e w ≤ enm.range then
    degree e.libm (enm.dirToPlayer w) (w.get enm.player).direction
  else 0

/-- `follow_player`: the player is in range, no wall is before it, and it is in view. -/
def followPlayer : Bool :=
  let ply := w.get enm.player
  let hit := e.shootRay w.map ply.position ply.direction enm.range
  enm.dists e w ≤ enm.range ∧
    ((hit.hit ∧ hit.distance * vecMag e.libm ply.direction > enm.dists e w) ∨ ¬ hit.hit) ∧
    absDouble (enm.playerAng e w) ≤ enm.fov

/-- `abs(d) < 0.5`: the number is converted to an `int` first. -/
def absBelowHalf (d : K) : Bool := ((|truncate d| : ℤ) : K) < 1 / 2

/-- `reached`. -/
def reached : Bool :=
  let pos := (w.get enm.player).position
  enm.currIdx = -1 ∨
    (absBelowHalf (pos.x - enm.currDest.x) ∧ absBelowHalf (pos.y - enm.currDest.y))

/-- The condition of the branch that chooses a destination. -/
def choosesNext : Bool :=
  ¬ enm.followPlayer e w ∧ (enm.lastOp + enm.timeoutMovm ≤ w.timeCounter ∨ enm.reached w)

/-- The destination for this call. -/
def choose (d : Draws) : EnemyCtrl K :=
  if enm.choosesNext e w then
    let enm := { enm with lastOp := w.timeCounter }
    if enm.random then
      { enm with
        currDest := ⟨((d.destX % w.map.columns : ℕ) : K), ((d.destY % w.map.lines : ℕ) : K)⟩
        currIdx := 0 }
    else
      let currIdx := (enm.currIdx + 1).tmod enm.numPositions
      { enm with currIdx, currDest := enm.positions.getD currIdx.toNat ⟨0, 0⟩ }
  else if enm.followPlayer e w then { enm with currDest := w.player.position, currIdx := -1 }
  else enm

/-- The step and the trigger for this call; `enm` has its new destination, and `follow` and `ang`
are `follow_player` and `player_ang`. -/
def botMove (d : Draws) (follow : Bool) (ang : K) : BotMove K :=
  let ply := w.get enm.player
  let newDir := normalize e.libm
    ⟨enm.currDest.x - ply.position.x, enm.currDest.y - ply.position.y⟩
  let angDiff := degree e.libm newDir ply.direction
  if ang ≤ 5 ∧ enm.dists e w < (ply.gunAt ply.gunIndex).gun.range - 1 / 2 ∧ follow then
    -- every other time, it shoots
    { direction := newDir, movement := { ply.movm.movement with x := 0 }
      lbHeldDown := d.last % 2 = 0 }
  else
    let direction :=
      if absDouble angDiff ≤ 10 then newDir
      else if angDiff > 0 then rotateVec e.libm (-5) ply.direction
      else rotateVec e.libm 5 ply.direction
    { direction := normalize e.libm direction
      movement := ⟨if d.last % 25 > 0 then 1 else 0, 0⟩, lbHeldDown := false }

/-- `handle_enemy`: its result, the controller and the enemy. -/
def control (d : Draws) : ℕ × EnemyCtrl K × PlayerInfo K :=
  let ply := w.get enm.player
  if ply.health ≤ 0 then
    (1, enm, { ply with movm :=
      { ply.movm with lbHeldDown := false, movement := { ply.movm.movement with x := 0 } } })
  else
    let next := enm.choose e w d
    let move := next.botMove e w d (enm.followPlayer e w) (enm.playerAng e w)
    (0, next, { ply with
      direction := move.direction
      movm := { ply.movm with movement := move.movement, lbHeldDown := move.lbHeldDown } })

/-- **The enemy is led by the decision of its controller.** -/
theorem control_player (d : Draws) : ∃ b, (enm.control e w d).2.2 =
    handleEnemy b (w.get enm.player) := by
  unfold control handleEnemy
  dsimp only
  split
  · exact ⟨⟨⟨0, 0⟩, ⟨0, 0⟩, false⟩, rfl⟩
  · exact ⟨_, rfl⟩

end EnemyCtrl

/-- What `rand` returns to a call of `handle_enemy`, and its state after the call. -/
def EnemyCtrl.draw (e : Env K) (w : World K) (rand : σ → ℕ × σ) (enm : EnemyCtrl K) (seed : σ) :
    Draws × σ :=
  if (w.get enm.player).health ≤ 0 then (⟨0, 0, 0⟩, seed)
  else if enm.choosesNext e w ∧ enm.random then
    let x := rand seed
    let y := rand x.2
    let last := rand y.2
    (⟨x.1, y.1, last.1⟩, last.2)
  else
    let last := rand seed
    (⟨0, 0, last.1⟩, last.2)

/-- `handle_enemies`: the controllers, the state of `rand`, and the world. -/
def controlAll (e : Env K) (rand : σ → ℕ × σ) :
    List (EnemyCtrl K) → σ → World K → List (EnemyCtrl K) × σ × World K
  | [], seed, w => ([], seed, w)
  | enm :: ctrls, seed, w =>
    let d := enm.draw e w rand seed
    let r := enm.control e w d.1
    let rest := controlAll e rand ctrls d.2 (w.modify enm.player fun _ => r.2.2)
    (r.2.1 :: rest.1, rest.2)

/-! ### The decisions of a tick -/

/-- Every controller leads a bot. -/
def Leads (ctrls : List (EnemyCtrl K)) (w : World K) : Prop :=
  ∀ enm ∈ ctrls, enm.player ≠ .player ∧ (w.get enm.player).type = .bot

instance (ctrls : List (EnemyCtrl K)) (w : World K) : Decidable (Leads ctrls w) :=
  inferInstanceAs (Decidable (∀ _ ∈ _, _))

/-- What a bot has been told to do. -/
def PlayerInfo.orders (p : PlayerInfo K) : BotMove K :=
  { direction := p.direction, movement := p.movm.movement, lbHeldDown := p.movm.lbHeldDown }

/-- The decisions of the controllers for a tick, as they show in the world after
`handle_enemies`. -/
def botsOf (ctrls : List (EnemyCtrl K)) (w : World K) (k : ℕ) : Option (BotMove K) :=
  if ctrls.any fun enm => enm.player = .enemy k then some (w.get (.enemy k)).orders else none

theorem type_handleEnemy (b : BotMove K) (p : PlayerInfo K) :
    (handleEnemy b p).type = p.type := by
  unfold handleEnemy
  split <;> rfl

/-- Of two decisions the second one counts. -/
theorem handleEnemy_handleEnemy (b b' : BotMove K) (p : PlayerInfo K) :
    handleEnemy b (handleEnemy b' p) = handleEnemy b p := by
  unfold handleEnemy
  by_cases hdead : p.health ≤ 0
  · simp only [if_pos hdead]
  · simp only [if_neg hdead]

/-- The orders of a bot lead it to where it is. -/
theorem handleEnemy_orders (b : BotMove K) (p : PlayerInfo K) :
    handleEnemy (handleEnemy b p).orders p = handleEnemy b p := by
  unfold handleEnemy PlayerInfo.orders
  by_cases hdead : p.health ≤ 0
  · simp only [if_pos hdead]
  · simp only [if_neg hdead]

/-- An enemy with the decision for it, if there is one. -/
def PlayerInfo.told (p : PlayerInfo K) (b : Option (BotMove K)) : PlayerInfo K :=
  match p.type, b with
  | .bot, some b => handleEnemy b p
  | _, _ => p

theorem PlayerInfo.told_none (p : PlayerInfo K) : p.told none = p := by
  unfold told
  cases p.type <;> rfl

theorem PlayerInfo.told_bot {p : PlayerInfo K} (hbot : p.type = .bot) (b : BotMove K) :
    p.told (some b) = handleEnemy b p := by
  unfold told
  rw [hbot]

theorem PlayerInfo.told_of_ne {p : PlayerInfo K} (hbot : p.type ≠ .bot)
    (b : Option (BotMove K)) : p.told b = p := by
  unfold told
  split
  · next h => exact absurd h hbot
  · rfl

theorem getElem?_handleEnemies (bots : ℕ → Option (BotMove K)) (w : World K) (i : ℕ) :
    (handleEnemies bots w).enemies[i]? =
      w.enemies[i]?.map fun p : PlayerInfo K => p.told (bots i) :=
  List.getElem?_mapIdx

/-- Decisions that lead every enemy to the same. -/
theorem handleEnemies_eq {bots : ℕ → Option (BotMove K)} {w v : World K}
    (h : ∀ i, (w.enemies[i]?.map fun p : PlayerInfo K => p.told (bots i)) = v.enemies[i]?)
    (hv : { w with enemies := v.enemies } = v) : handleEnemies bots w = v := by
  rw [← hv]
  unfold handleEnemies
  congr 1
  exact List.ext_getElem? fun i => List.getElem?_mapIdx.trans (h i)

/-- The decision for one bot. -/
def decisionFor (k : ℕ) (b : BotMove K) (i : ℕ) : Option (BotMove K) :=
  if k = i then some b else none

theorem handleEnemies_decisionFor {w : World K} {k : ℕ}
    (hbot : (w.get (.enemy k)).type = .bot) (b : BotMove K) :
    handleEnemies (decisionFor k b) w =
      w.modify (.enemy k) fun _ => handleEnemy b (w.get (.enemy k)) := by
  refine handleEnemies_eq (fun i => ?_) rfl
  simp only [World.modify, List.getElem?_modify]
  unfold decisionFor
  by_cases hki : k = i
  · subst hki
    rw [World.get, List.getD_eq_getElem?_getD] at hbot ⊢
    cases hp : w.enemies[k]? with
    | none => rfl
    | some p =>
      rw [hp] at hbot
      simp only [Option.getD_some, Option.map_some, if_true] at hbot ⊢
      exact congrArg some (PlayerInfo.told_bot hbot b)
  · simp [hki, PlayerInfo.told_none]

/-- Of the decisions for a bot the last one counts. -/
theorem handleEnemies_handleEnemies (bots bots' : ℕ → Option (BotMove K)) (w : World K) :
    handleEnemies (fun k => (bots k).or (bots' k)) w =
      handleEnemies bots (handleEnemies bots' w) := by
  refine handleEnemies_eq (fun i => ?_) rfl
  rw [getElem?_handleEnemies, getElem?_handleEnemies, Option.map_map]
  congr 1
  funext p
  show p.told ((bots i).or (bots' i)) = (p.told (bots' i)).told (bots i)
  by_cases hbot : p.type = .bot
  · cases bots' i with
    | none => rw [Option.or_none, p.told_none]
    | some b' =>
      have htype := (type_handleEnemy b' p).trans hbot
      rw [PlayerInfo.told_bot hbot]
      cases bots i with
      | none => rw [Option.none_or, PlayerInfo.told_none, PlayerInfo.told_bot hbot]
      | some b =>
        rw [Option.some_or, PlayerInfo.told_bot hbot, PlayerInfo.told_bot htype,
          handleEnemy_handleEnemy]
  · rw [PlayerInfo.told_of_ne hbot, PlayerInfo.told_of_ne hbot, PlayerInfo.told_of_ne hbot]

theorem Leads.handleEnemies {ctrls : List (EnemyCtrl K)} {w : World K} (h : Leads ctrls w)
    (bots : ℕ → Option (BotMove K)) : Leads ctrls (handleEnemies bots w) := by
  intro enm henm
  obtain ⟨hne, hbot⟩ := h enm henm
  exact ⟨hne, (handleEnemies_keep type_handleEnemy bots w enm.player).trans hbot⟩

/-- What the controllers do is decide for the bots they lead. -/
theorem exists_bots (e : Env K) (rand : σ → ℕ × σ) :
    ∀ (ctrls : List (EnemyCtrl K)) (seed : σ) (w : World K), Leads ctrls w →
      ∃ bots, (∀ k, (bots k).isSome = ctrls.any fun enm => enm.player = .enemy k) ∧
        (controlAll e rand ctrls seed w).2.2 = handleEnemies bots w := by
  intro ctrls
  induction ctrls with
  | nil =>
    intro seed w _
    refine ⟨fun _ => none, fun _ => rfl, (handleEnemies_eq (fun i => ?_) rfl).symm⟩
    simp [controlAll, PlayerInfo.told_none]
  | cons enm ctrls ih =>
    intro seed w hleads
    obtain ⟨hne, hbot⟩ := hleads enm (by simp)
    obtain ⟨k, hk⟩ : ∃ k, enm.player = .enemy k := by
      cases hp : enm.player with
      | player => exact absurd hp hne
      | enemy k => exact ⟨k, rfl⟩
    rw [hk] at hbot
    obtain ⟨b, hb⟩ := enm.control_player e w (enm.draw e w rand seed).1
    have hfirst : (w.modify enm.player fun _ =>
        (enm.control e w (enm.draw e w rand seed).1).2.2) = handleEnemies (decisionFor k b) w := by
      rw [hb, hk]
      exact (handleEnemies_decisionFor hbot b).symm
    have hrest : Leads ctrls (handleEnemies (decisionFor k b) w) :=
      Leads.handleEnemies (fun c hc => hleads c (by simp [hc])) _
    obtain ⟨bots, hsome, hbots⟩ := ih (enm.draw e w rand seed).2 _ hrest
    refine ⟨fun i => (bots i).or (decisionFor k b i), fun i => ?_, ?_⟩
    · rw [Option.isSome_or, hsome, List.any_cons, hk, Bool.or_comm]
      unfold decisionFor
      by_cases hki : k = i <;> simp [hki]
    · rw [handleEnemies_handleEnemies, ← hbots, ← hfirst]
      rfl

/-- **The enemies make their ticks as `handle_enemies` has left them.** -/
theorem handleEnemies_botsOf (e : Env K) (rand : σ → ℕ × σ) {ctrls : List (EnemyCtrl K)}
    {w : World K} (hleads : Leads ctrls w) (seed : σ) :
    handleEnemies (botsOf ctrls (controlAll e rand ctrls seed w).2.2) w =
      (controlAll e rand ctrls seed w).2.2 := by
  obtain ⟨bots, hsome, hbots⟩ := exists_bots e rand ctrls seed w hleads
  rw [hbots]
  refine handleEnemies_eq (fun i => ?_) rfl
  rw [getElem?_handleEnemies]
  cases hp : w.enemies[i]? with
  | none => rfl
  | some p =>
    have hget : (handleEnemies bots w).get (.enemy i) = p.told (bots i) := by
      rw [World.get, List.getD_eq_getElem?_getD, getElem?_handleEnemies, hp]
      rfl
    simp only [Option.map_some, botsOf, hget, ← hsome]
    by_cases hbot : p.type = .bot
    · cases bots i with
      | none => rfl
      | some b =>
        simp only [Option.isSome_some, if_true, PlayerInfo.told_bot hbot]
        exact congrArg some (handleEnemy_orders b p)
    · rw [PlayerInfo.told_of_ne hbot, PlayerInfo.told_of_ne hbot]

/-! ### The game with its controllers -/

/-- The controllers of `setup_game_1`; `junk` is what memory holds before it is assigned. -/
def controllers1 (junk : Vec K) : List (EnemyCtrl K) :=
  [ initEnemy (.enemy 1) true 120 45 10 2 [junk, junk] junk,
    initEnemy (.enemy 2) false 120 45 10 2 [⟨16, 7⟩, ⟨16, 9⟩] junk ]

/-- The controllers of `setup_game_2`. -/
def controllers2 (junk : Vec K) : List (EnemyCtrl K) :=
  let patrol (i : ℕ) (pos : List (Vec K)) := initEnemy (.enemy i) false 120 45 10 2 pos junk
  let guard (i : ℕ) (pos : Vec K) := initEnemy (.enemy i) false 15 45 6 1 [pos] junk
  [ patrol 0 [⟨8, 6⟩, ⟨2, 6⟩], patrol 1 [⟨8, 6⟩, ⟨17, 6⟩], patrol 2 [⟨16, 1⟩, ⟨13, 1⟩],
    patrol 3 [⟨10, 2⟩, ⟨13, 2⟩], guard 4 ⟨16, 11⟩, guard 5 ⟨24, 8⟩, guard 6 ⟨28, 3⟩,
    guard 7 ⟨32, 11⟩, guard 8 ⟨19, 21⟩, guard 9 ⟨3, 20⟩, guard 10 ⟨11, 16⟩,
    guard 11 ⟨7, 61 / 2⟩, guard 12 ⟨7, 61 / 2⟩,
    initEnemy (.enemy 13) false 260 5 15 2 [⟨65 / 2, 41 / 2⟩, ⟨65 / 2, 55 / 2⟩] junk,
    initEnemy (.enemy 14) false 5 45 6 1 [⟨37, 9⟩] junk ]

/-- The game, the controllers of its enemies, and the state of `rand`. -/
structure LedGame (K σ : Type*) where
  game : Game K
  ctrls : List (EnemyCtrl K)
  seed : σ

section

variable (c : Setting K) (rand : σ → ℕ × σ) (junk : Vec K)

/-- The controllers after a tick that began in state `was` and has left `g`: those of a level
are made with it and freed with it. -/
def controllersAfter (was : GameState) (ctrls : List (EnemyCtrl K)) (g : Game K) :
    List (EnemyCtrl K) :=
  if g.state ≠ .game then []
  else if was = .game then ctrls
  else if g.currLvl = 1 then controllers1 junk
  else if g.currLvl = 2 then controllers2 junk
  else []

namespace LedGame

variable (s : LedGame K σ)

/-- What `handle_enemies` leaves in the next tick. -/
def handled : List (EnemyCtrl K) × σ × World K :=
  controlAll c.toEnv rand s.ctrls s.seed (timerIntHandler s.game).world

/-- An input, with the decisions of the controllers. -/
def decided : GameInput K → GameInput K
  | .tick t => .tick { t with bots := botsOf s.ctrls (s.handled c rand).2.2 }
  | i => i

/-- What is left after an input that has made the game `g`. -/
def after (i : GameInput K) (g : Game K) : LedGame K σ :=
  match i with
  | .tick _ =>
    { game := g
      ctrls := controllersAfter junk s.game.state (s.handled c rand).1 g
      seed := (s.handled c rand).2.1 }
  | _ => { s with game := g }

end LedGame

/-- **The program with its bots**: the decisions are no longer an input.  The model ends where a
controller has been left with a player that is no bot. -/
def ledMachine : Machine (LedGame K σ) (GameInput K) where
  step s i :=
    if Leads s.ctrls s.game.world then
      ((gameMachine c).step s.game (s.decided c rand i)).map (s.after c rand junk i)
    else none

/-- An input, without its decisions. -/
def GameInput.undecided : GameInput K → List (GameInput K)
  | .tick t => [.tick { t with bots := fun _ => none }]
  | i => [i]

variable {c rand junk} in
/-- What a step can do. -/
theorem ledMachine_cases {s s' : LedGame K σ} {i : GameInput K}
    (h : (ledMachine c rand junk).step s i = some s') : Leads s.ctrls s.game.world ∧
      ∃ g, (gameMachine c).step s.game (s.decided c rand i) = some g ∧
        s' = s.after c rand junk i g := by
  simp only [ledMachine] at h
  split at h
  · next hleads =>
    obtain ⟨g, hg, hs'⟩ := Option.map_eq_some_iff.mp h
    exact ⟨hleads, g, hg, hs'.symm⟩
  · cases h

variable {c rand junk} in
/-- **The ticks of the game find the enemies as `handle_enemies` has left them.** -/
theorem handleEnemies_decided {s s' : LedGame K σ} {t : Tick K}
    (h : (ledMachine c rand junk).step s (.tick t) = some s') :
    ∃ bots, s.decided c rand (.tick t) = .tick { t with bots } ∧
      handleEnemies bots (timerIntHandler s.game).world = (s.handled c rand).2.2 := by
  have hleads : Leads s.ctrls (timerIntHandler s.game).world := (ledMachine_cases h).1
  exact ⟨_, rfl, handleEnemies_botsOf c.toEnv rand hleads s.seed⟩

/-- **A run of the program with its bots is a run of the program**, which allows any
decisions. -/
theorem ledMachine_refines :
    Machine.Refines (gameMachine c) (ledMachine c rand junk) LedGame.game GameInput.undecided
      GameInput.undecided fun _ => True where
  keep _ _ _ _ _ := trivial
  step s i s' _ h := by
    obtain ⟨-, g, hg, rfl⟩ := ledMachine_cases h
    have hshown : (s.decided c rand i).undecided = i.undecided := by cases i <;> rfl
    have hgame : (s.after c rand junk i g).game = g := by cases i <;> rfl
    rw [hgame, ← hshown]
    exact .step hg

end

/-! ### One enemy -/

/-- What a call of `handle_enemy` finds. -/
structure PatrolInput (K : Type*) where
  env : Env K
  world : World K
  draws : Draws

/-- The calls of `handle_enemy` for one controller; between them anything may happen to the rest
of the world. -/
def patrolMachine : Machine (EnemyCtrl K) (PatrolInput K) where
  step enm i := some (enm.control i.env i.world i.draws).2.1

/-- **Every controller makes a step of its machine** when `handle_enemies` calls them all. -/
theorem controlAll_steps (e : Env K) (rand : σ → ℕ × σ) :
    ∀ (ctrls : List (EnemyCtrl K)) (seed : σ) (w : World K),
      List.Forall₂ (fun c c' => ∃ input, patrolMachine.step c input = some c') ctrls
        (controlAll e rand ctrls seed w).1 := by
  intro ctrls
  induction ctrls with
  | nil => intro seed w; exact List.Forall₂.nil
  | cons c ctrls ih =>
    intro seed w
    exact List.Forall₂.cons ⟨⟨e, w, (c.draw e w rand seed).1⟩, rfl⟩ (ih _ _)

/-- A controller that has `n` positions and does not choose its destination at random.  While the
index is that of a position, the destination is this position. -/
structure Patrol (n : ℕ) (enm : EnemyCtrl K) : Prop where
  random : enm.random = false
  numPositions : enm.numPositions = n
  idx_ge : -1 ≤ enm.currIdx
  idx_lt : enm.currIdx < n
  dest : 0 ≤ enm.currIdx → enm.currDest = enm.positions.getD enm.currIdx.toNat ⟨0, 0⟩

theorem Patrol.init {n : ℕ} (hn : n < 2 ^ 8) (enemy : PlayerRef)
    (timeoutMove : ℤ) (fov range : K) (pos : List (Vec K)) (dest : Vec K) :
    Patrol n (initEnemy enemy false timeoutMove fov range n pos dest) where
  random := rfl
  numPositions := Nat.mod_eq_of_lt hn
  idx_ge := Int.le_refl _
  idx_lt := by
    show (-1 : ℤ) < n
    omega
  dest := fun h => absurd h (by show ¬ (0 : ℤ) ≤ -1; decide)

namespace EnemyCtrl

variable (i : PatrolInput K) (enm : EnemyCtrl K)

/-- The enemy is alive when it is called, and takes a new destination from its list. -/
def Advances : Prop :=
  0 < (i.world.get enm.player).health ∧ enm.choosesNext i.env i.world

/-- `timeout_movm` ticks have passed since `last_op`. -/
def TimedOut : Prop := enm.lastOp + enm.timeoutMovm ≤ i.world.timeCounter

/-- The enemy is at most `bound` away from a place, on both axes. -/
def Near (bound : K) (place : Vec K) : Prop :=
  let pos := (i.world.get enm.player).position
  |pos.x - place.x| ≤ bound ∧ |pos.y - place.y| ≤ bound

end EnemyCtrl

/-- What is to be expected of a call: the index goes from a position to the next one only when the
time is over or the enemy is there, and otherwise stays, or is given up. -/
structure PatrolsOn (enm : EnemyCtrl K) (i : PatrolInput K) : Prop where
  next : enm.Advances i → 0 ≤ enm.currIdx →
    (enm.control i.env i.world i.draws).2.1.currIdx = (enm.currIdx + 1) % enm.numPositions ∧
      (enm.TimedOut i ∨
        enm.Near i (1 / 2) (enm.positions.getD enm.currIdx.toNat ⟨0, 0⟩))
  other : ¬ enm.Advances i →
    (enm.control i.env i.world i.draws).2.1.currIdx = enm.currIdx ∨
      (enm.control i.env i.world i.draws).2.1.currIdx = -1

/-- A call does not find the enemy less than 1, but more than 0.5 away from the position it goes
to, with time left and the player out of sight. -/
def ArrivesClose (enm : EnemyCtrl K) (i : PatrolInput K) : Prop :=
  0 < (i.world.get enm.player).health → ¬ enm.followPlayer i.env i.world → ¬ enm.TimedOut i →
    0 ≤ enm.currIdx →
    let pos := (i.world.get enm.player).position
    let place := enm.positions.getD enm.currIdx.toNat ⟨0, 0⟩
    |pos.x - place.x| < 1 ∧ |pos.y - place.y| < 1 → enm.Near i (1 / 2) place

end Model

section Ordered

variable {K : Type*} [Field K] [LinearOrder K] [IsStrictOrderedRing K] [FloorRing K]

/-! ### The arrival test -/

theorem truncate_eq_zero_iff (d : K) : truncate d = 0 ↔ |d| < 1 := by
  unfold truncate
  split
  · next h => rw [Int.floor_eq_zero_iff, Set.mem_Ico, abs_of_nonneg h, and_iff_right h]
  · next h =>
    have hneg : 0 ≤ -d := by linarith
    rw [neg_eq_zero, Int.floor_eq_zero_iff, Set.mem_Ico, abs_of_neg (not_le.mp h),
      and_iff_right hneg]

/-- **The test for `0.5` is one for `1`**, because the number is rounded towards zero. -/
theorem absBelowHalf_iff (d : K) : EnemyCtrl.absBelowHalf d ↔ |d| < 1 := by
  have hsmall : ∀ z : ℤ, ((|z| : ℤ) : K) < 1 / 2 ↔ z = 0 := by
    intro z
    constructor
    · intro h
      by_contra hz
      have hone : (1 : K) ≤ ((|z| : ℤ) : K) := by exact_mod_cast Int.one_le_abs hz
      linarith
    · rintro rfl
      norm_num
  rw [EnemyCtrl.absBelowHalf, decide_eq_true_eq, hsmall, truncate_eq_zero_iff]

/-! ### One call -/

section

variable {n : ℕ} {enm : EnemyCtrl K} {i : PatrolInput K}

/-- What the condition of the branch says while the enemy goes to a position. -/
theorem choosesNext_iff (h : 0 ≤ enm.currIdx) : enm.choosesNext i.env i.world ↔
    ¬ enm.followPlayer i.env i.world ∧ (enm.TimedOut i ∨
      (|(i.world.get enm.player).position.x - enm.currDest.x| < 1 ∧
        |(i.world.get enm.player).position.y - enm.currDest.y| < 1)) := by
  have hidx : enm.currIdx ≠ -1 := by omega
  simp only [EnemyCtrl.choosesNext, EnemyCtrl.reached, decide_eq_true_eq, hidx, false_or,
    absBelowHalf_iff, EnemyCtrl.TimedOut]

/-- The index after a call that takes a new destination. -/
theorem Patrol.choose_currIdx (h : Patrol n enm) (hnext : enm.choosesNext i.env i.world) :
    (enm.choose i.env i.world i.draws).currIdx = (enm.currIdx + 1) % n := by
  have hnonneg := h.idx_ge
  simp only [EnemyCtrl.choose, hnext, h.random, if_true, Bool.false_eq_true, if_false,
    h.numPositions]
  exact Int.tmod_eq_emod_of_nonneg (by omega)

/-- The destination and the index stay together. -/
theorem Patrol.choose (hn : 1 ≤ n) (h : Patrol n enm) :
    Patrol n (enm.choose i.env i.world i.draws) := by
  by_cases hnext : enm.choosesNext i.env i.world
  · have hidx := h.choose_currIdx hnext
    have hpos : (0 : ℤ) < n := by exact_mod_cast hn
    have hge := Int.emod_nonneg (enm.currIdx + 1) hpos.ne'
    have hlt := Int.emod_lt_of_pos (enm.currIdx + 1) hpos
    refine ⟨?_, ?_, by omega, by omega, fun _ => ?_⟩
    all_goals
      simp only [EnemyCtrl.choose, hnext, h.random, h.numPositions, if_true, Bool.false_eq_true,
        if_false]
  · by_cases hfollow : enm.followPlayer i.env i.world
    · have heq : enm.choose i.env i.world i.draws =
          { enm with currDest := i.world.player.position, currIdx := -1 } := by
        simp only [EnemyCtrl.choose, hnext, hfollow, Bool.false_eq_true, if_false, if_true]
      rw [heq]
      exact ⟨h.random, h.numPositions, Int.le_refl _, by show (-1 : ℤ) < n; omega,
        fun h0 => absurd h0 (by show ¬ (0 : ℤ) ≤ -1; decide)⟩
    · have heq : enm.choose i.env i.world i.draws = enm := by
        simp only [EnemyCtrl.choose, hnext, hfollow, Bool.false_eq_true, if_false]
      rw [heq]
      exact h

/-- The controller after a call. -/
theorem control_ctrl (enm : EnemyCtrl K) (i : PatrolInput K) :
    (enm.control i.env i.world i.draws).2.1 =
      if (i.world.get enm.player).health ≤ 0 then enm
      else enm.choose i.env i.world i.draws := by
  unfold EnemyCtrl.control
  dsimp only
  split <;> rfl

/-- **What a call does to the list**, whether the enemy is alive or not. -/
theorem Patrol.control (hn : 1 ≤ n) (h : Patrol n enm) :
    Patrol n (enm.control i.env i.world i.draws).2.1 := by
  rw [control_ctrl]
  split
  · exact h
  · exact h.choose hn

/-- A call that takes no new destination keeps the index or gives it up. -/
theorem control_of_not_advances (h : ¬ enm.Advances i) :
    (enm.control i.env i.world i.draws).2.1.currIdx = enm.currIdx ∨
      (enm.control i.env i.world i.draws).2.1.currIdx = -1 := by
  rw [control_ctrl]
  split
  · exact Or.inl rfl
  · next halive =>
    have hnext : ¬ enm.choosesNext i.env i.world := fun hnext => h ⟨not_le.mp halive, hnext⟩
    by_cases hfollow : enm.followPlayer i.env i.world
    · refine Or.inr ?_
      simp only [EnemyCtrl.choose, hnext, hfollow, Bool.false_eq_true, if_false, if_true]
    · refine Or.inl ?_
      simp only [EnemyCtrl.choose, hnext, hfollow, Bool.false_eq_true, if_false]

/-- **One call** is as expected exactly when it meets the condition. -/
theorem Patrol.patrolsOn_iff (h : Patrol n enm) : PatrolsOn enm i ↔ ArrivesClose enm i := by
  constructor
  · rintro ⟨hnext, -⟩ halive hfollow htime h0
    intro pos place hclose
    have hdest := h.dest h0
    have hadv : enm.Advances i := by
      refine ⟨halive, (choosesNext_iff h0).mpr ⟨hfollow, Or.inr ?_⟩⟩
      rw [hdest]
      exact hclose
    exact (hnext hadv h0).2.resolve_left htime
  · intro hclose
    refine ⟨fun hadv h0 => ⟨?_, ?_⟩, control_of_not_advances⟩
    · rw [control_ctrl, if_neg (not_le.mpr hadv.1), h.choose_currIdx hadv.2, h.numPositions]
    · obtain ⟨hfollow, htime | hplace⟩ := (choosesNext_iff h0).mp hadv.2
      · exact Or.inl htime
      · by_cases htime : enm.TimedOut i
        · exact Or.inl htime
        · rw [h.dest h0] at hplace
          exact Or.inr (hclose hadv.1 hfollow htime h0 hplace)

end

/-! ### All calls -/

/-- **An enemy patrols as it should exactly when** no call finds it less than 1, but more than 0.5
away from the position it goes to, with time left and the player out of sight.  The index is never
out of the list. -/
theorem patrols_iff {n : ℕ} (h1 : 1 ≤ n) (hn : n ≤ 255) (enemy : PlayerRef) (timeoutMove : ℤ)
    (fov range : K) (pos : List (Vec K)) (dest : Vec K) (is : List (PatrolInput K)) :
    let enm := initEnemy enemy false timeoutMove fov range n pos dest
    patrolMachine.Always (fun c => -1 ≤ c.currIdx ∧ c.currIdx < n) enm is ∧
      (patrolMachine.Along PatrolsOn enm is ↔ patrolMachine.Along ArrivesClose enm is) := by
  intro enm
  have hinit : Patrol n enm := .init (by omega) enemy timeoutMove fov range pos dest
  have hstep : ∀ (c : EnemyCtrl K) (i : PatrolInput K) (c' : EnemyCtrl K), Patrol n c →
      patrolMachine.step c i = some c' → Patrol n c' := by
    rintro c i c' hc hc'
    cases hc'
    exact hc.control h1
  refine ⟨Machine.always_of_step (fun c hc => ⟨hc.idx_ge, hc.idx_lt⟩) hstep is hinit, ?_⟩
  exact Machine.along_congr_of_step (fun c i hc => hc.patrolsOn_iff) hstep is enm hinit

end Ordered

/-- An enemy at a place, with the player far away from it. -/
def lonelyAt (x y : ℚ) (timeCounter : ℕ) : PatrolInput ℚ :=
  { env := openField
    world := { emptyWorld with
      player := { PlayerInfo.zero with position := ⟨30, 30⟩ }
      enemies := [{ PlayerInfo.zero with position := ⟨x, y⟩, health := 50, type := .bot }]
      timeCounter }
    draws := ⟨0, 0, 0⟩ }

/-- The first enemy of the second level, before it is called. -/
def firstPatrol : EnemyCtrl ℚ :=
  initEnemy (.enemy 0) false 120 45 10 2 [⟨8, 6⟩, ⟨2, 6⟩] ⟨0, 0⟩

/-- The enemy after its first call, on its way to its first position. -/
theorem firstPatrol_called :
    (firstPatrol.control (lonelyAt 2 6 1).env (lonelyAt 2 6 1).world (lonelyAt 2 6 1).draws).2.1 =
      { firstPatrol with currIdx := 0, currDest := ⟨8, 6⟩, lastOp := 1 } := by
  decide +kernel

theorem patrols_iff_arrived :
    patrolMachine.Along PatrolsOn firstPatrol [lonelyAt 2 6 1, lonelyAt (15 / 2) 6 110] := by
  have h := (patrols_iff (n := 2) (by decide) (by decide) (.enemy 0) 120 45 10
    [⟨8, 6⟩, ⟨2, 6⟩] ⟨0, 0⟩ [lonelyAt 2 6 1, lonelyAt (15 / 2) 6 110]).2
  refine h.mpr ⟨fun _ _ _ h0 => ?_, ?_⟩
  · exact absurd h0 (by decide)
  · show ArrivesClose (firstPatrol.control _ _ _).2.1 _ ∧ True
    rw [firstPatrol_called]
    refine ⟨fun _ _ _ _ _ => ?_, trivial⟩
    show |(15 / 2 : ℚ) - 8| ≤ 1 / 2 ∧ |(6 : ℚ) - 6| ≤ 1 / 2
    norm_num [abs_le]

/-- Nine tenths before its first position the enemy turns round. -/
theorem firstPatrol_not_patrolsOn :
    ¬ patrolMachine.Along PatrolsOn firstPatrol [lonelyAt 2 6 1, lonelyAt (71 / 10) 6 110] := by
  rintro ⟨-, hsecond⟩
  have hcall : PatrolsOn (firstPatrol.control _ _ _).2.1 (lonelyAt (71 / 10) 6 110) := hsecond.1
  rw [firstPatrol_called] at hcall
  have hadv : EnemyCtrl.Advances (lonelyAt (71 / 10) 6 110)
      { firstPatrol with currIdx := 0, currDest := ⟨8, 6⟩, lastOp := 1 } := by
    unfold EnemyCtrl.Advances
    decide +kernel
  rcases (hcall.next hadv (by decide)).2 with htime | hnear
  · exact absurd htime (by unfold EnemyCtrl.TimedOut; decide)
  · have hfar : |(71 / 10 : ℚ) - 8| ≤ 1 / 2 := hnear.1
    norm_num [abs_le] at hfar

end OperationMinix
