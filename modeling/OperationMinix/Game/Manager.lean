import OperationMinix.Game.Level
import OperationMinix.Runs.Machine

/-!
# The game manager

One timer tick of the program, `game_handler`: what has arrived from the other
peer is handled, the players make their ticks, the packet of the tick is sent,
the screen is drawn, which includes looking at where the mouse was clicked, and
the state of the game is brought up to date.

A click, a key, a byte on the line and an interrupt of the clock chip come
between ticks; `gameMachine` interleaves them in any order.  The decisions of the
bots depend on a random number generator and are an input of the tick, as are the
answers of the receiver while the handshake drains the line.

## Main definitions

* `gmInitGame`, `gmResetMpGame`, `updateGameState` — the transitions of the game.
* `display` — the screens, and what a click on them does.
* `gameHandler`, `gameMachine` — one tick, and everything that can happen.
-/

namespace OperationMinix

open Runs

/-- `ROUND_TIMER`. -/
def roundTimer : ℤ := 160

/-- `RTC_PF`: the periodic interrupt is a cause. -/
def rtcPf : Byte := 0x40

/-- `LAST_LVL`. -/
def lastLvl : ℤ := 2

/-- What `handle_enemy` decides for a bot. -/
structure BotMove (K : Type*) where
  direction : Vec K
  movement : Vec K
  lbHeldDown : Bool

/-- The inputs of one tick that the program does not decide. -/
structure Tick (K : Type*) where
  /-- The answers of `uart_receive_byte` while the line is drained. -/
  polls : List RecvResult
  /-- The decisions for the bots that have a controller, by index. -/
  bots : ℕ → Option (BotMove K)

section Model

variable {K : Type*} [Field K] [LinearOrder K] [FloorRing K] (c : Setting K)

/-! ### Transitions -/

/-- `gm_init_game`. -/
def gmInitGame (mapNum : ℤ) (gameMode player : ℕ) (g : Game K) : Game K :=
  match loadLevel c mapNum gameMode player { g with rtc := g.rtc.disable rtcUie } with
  -- the error is returned to callers that do not look at it
  | (false, g) => g
  | (true, g) =>
    let g := g.setState .game
    { g with
      gameTimer := roundTimer
      rtc := ({ g.rtc with pieState := 0 }.setPeriodic500ms).enable rtcPie }

/-- `gm_reset_mp_game`. -/
def gmResetMpGame (g : Game K) : Game K := (freeLevel (g.setNetworkState .cleanup)).initPlayerCtrls

/-- The end of a single player game. -/
def endLevel (s : GameState) (g : Game K) : Game K := (freeLevel (g.setState s)).initPlayerCtrls

/-- `uart_send_string` of the game manager. -/
def Game.sendString (word : List Byte) (g : Game K) : Game K :=
  { g with net := uartSendString word g.net }

/-- The texture of the cell the local player stands on. -/
def Game.floorTexture (g : Game K) : ℤ :=
  g.world.map.cell (truncate g.world.player.position.x) (truncate g.world.player.position.y)

/-- A player of the multiplayer game is dead. -/
def Game.mpDeath (g : Game K) : Prop :=
  g.world.player.health ≤ 0 ∨ (g.world.get (.enemy 0)).health ≤ 0

instance (g : Game K) : Decidable g.mpDeath := inferInstanceAs (Decidable (_ ∨ _))

/-- `update_game_state`. -/
def updateGameState (g : Game K) : Game K :=
  match g.state with
  | .game =>
    if g.world.player.health ≤ 0 ∨ g.gameTimer = 0 then endLevel .loseGame g
    else if g.floorTexture = -3 then endLevel .winGame g
    else g
  | .mpGame =>
    if g.mpDeath then
      let g := gmResetMpGame g
      -- either branch calls `gm_reset_mp_game` once more
      if g.world.player.health ≤ 0 then
        (gmResetMpGame (g.setState .loseGame)).sendString uartWinGame
      else (gmResetMpGame (g.setState .winGame)).sendString uartLoseGame
    else g
  | .endSGame => endLevel .mainMenu g
  | .endMGame => (gmResetMpGame (g.setState .loseGame)).sendString uartWinGame
  | _ => g

/-! ### The screens -/

/-- A change to the controls of the local player. -/
def Game.inControls (f : Controls K → Controls K) (g : Game K) : Game K :=
  g.inWorld fun w => { w with player := { w.player with movm := f w.player.movm } }

/-- The mouse lies on a button. -/
def Game.mouseOver (g : Game K) (b : Button) : Bool :=
  msDetectCollision g.world.player.movm.mousePos (c.layout b).1 (c.layout b).2

/-- What the screens other than the game do with the mouse: a button held down is
released and clicks. -/
def onClick (click : Game K → Game K) (g : Game K) : Game K :=
  if g.world.player.movm.lbHeldDown then
    click (g.inControls fun m => { m with lbHeldDown := false })
  else g

/-- `render_menu`. -/
def renderMenu : Game K → Game K :=
  onClick fun g =>
    if g.mouseOver c .single then gmInitGame c 1 1 1 g
    else if g.mouseOver c .multi then g.setState .mpMenu
    else if g.mouseOver c .exitMain then g.setState .exit
    else g

/-- `render_mp_menu`. -/
def renderMpMenu : Game K → Game K :=
  onClick fun g =>
    -- nothing takes the network from `INIT` back to `CLEANUP`
    if g.mouseOver c .exitScreen then (g.setState .mainMenu).setNetworkState .init else g

/-- The button at `bpos` on the screen after a game; after the last level there is
none, and `bpos` is the corner of the screen. -/
def bpos (lvl : ℤ) (st : GameState) : Button :=
  if lvl = -1 ∨ st = .loseGame then .restart
  else if lvl ≠ lastLvl ∧ st = .winGame then .next
  else .corner

/-- `render_win_lose_screen`. -/
def renderWinLoseScreen : Game K → Game K :=
  onClick fun g =>
    let clicked := g.mouseOver c (bpos g.currLvl g.state)
    if g.mouseOver c .exitScreen then g.setState .mainMenu
    else if g.currLvl = -1 ∧ clicked then g.setState .mpMenu
    else if g.currLvl ≠ lastLvl ∧ g.state = .winGame ∧ clicked then
      gmInitGame c (g.currLvl + 1) 1 1 g
    else if g.state = .loseGame ∧ clicked then gmInitGame c g.currLvl 1 1 g
    else g

/-- `render_disconnect_screen`. -/
def renderDisconnectScreen : Game K → Game K :=
  onClick fun g => if g.mouseOver c .exitScreen then g.setState .mainMenu else g

/-- The gun that `display_menu` chooses: the last one the mouse lies on. -/
def chosenGun (g : Game K) : Option ℕ := [2, 1, 0].find? fun i => g.mouseOver c (.gun i)

/-- The chosen gun is taken in hand. -/
def Game.takeGun (chosen : Option ℕ) (g : Game K) : Game K :=
  match chosen with
  | some i => g.inWorld fun w => w.modify .player (switchGun i)
  | none => g

/-- `display_menu`: opening the menu moves the mouse to the middle, and a tap
chooses a gun or asks for the end of the game. -/
def displayMenu (g : Game K) : Game K :=
  let g := if g.world.invMenu = .closed then
    (g.inControls fun m => { m with mousePos := c.middle }).inWorld fun w =>
      { w with invMenu := .displaying } else g
  if g.world.player.movm.lbSingleTap then
    let g := g.inControls fun m => { m with lbSingleTap := false }
    -- the gun is switched after the exit button has been looked at
    let chosen := chosenGun c g
    let g := if g.mouseOver c .exitGame then
      g.setState (if g.state = .mpGame then .endMGame else .endSGame) else g
    g.takeGun chosen
  else g

/-- `render_game`, as far as it is more than drawing. -/
def renderGame (g : Game K) : Game K :=
  let keyDown := g.world.player.movm.kbdState.gunMenu
  if g.world.invMenu = .displaying ∧ keyDown = false then
    g.inWorld fun w => { w with invMenu := .closed }
  else if keyDown then (displayMenu c g).inWorld fun w => { w with invMenu := .displaying }
  else g

/-- `display`. -/
def display (g : Game K) : Game K :=
  match g.state with
  | .game => renderGame c g
  | .mpGame => renderGame c g
  | .mainMenu => renderMenu c g
  | .mpMenu => renderMpMenu c g
  | .winGame => renderWinLoseScreen c g
  | .loseGame => renderWinLoseScreen c g
  | .disconnect => renderDisconnectScreen c g
  | _ => g

/-! ### One tick -/

/-- What `uart_receive_data` does with a packet in the game. -/
def driveEnemy (pkt : NetworkPacket) (w : World K) : World K :=
  playerIntIh c.toEnv (.enemy 0) (w.modify (.enemy 0) (decodePacket pkt))

/-- The part of `game_handler` that handles what the other peer has sent. -/
def receiveStage (g : Game K) : Game K :=
  if g.state = .mpGame then
    let out := uartReceiveData (driveEnemy c) g.net g.world
    let g := { g with net := out.2.1, world := out.2.2 }
    let g := match out.1 with
      | .loseGameErr => gmResetMpGame (g.setState .loseGame)
      | .winGameErr => gmResetMpGame (g.setState .winGame)
      | .ok => g
    -- the level stays loaded here
    if g.net.state = .disconnected then g.setState .disconnect else g
  else g

/-- `handle_enemy`, with the decision for the bot: one that is dead stops walking and
lets the trigger go. -/
def handleEnemy (b : BotMove K) (p : PlayerInfo K) : PlayerInfo K :=
  if p.health ≤ 0 then
    let movement := { p.movm.movement with x := 0 }
    { p with movm := { p.movm with movement := movement, lbHeldDown := false } }
  else
    { p with
      direction := b.direction
      movm := { p.movm with movement := b.movement, lbHeldDown := b.lbHeldDown } }

/-- `handle_enemies`, with the decisions for the bots. -/
def handleEnemies (bots : ℕ → Option (BotMove K)) (w : World K) : World K :=
  { w with enemies := w.enemies.mapIdx fun i p =>
      match p.type, bots i with
      | .bot, some b => handleEnemy b p
      | _, _ => p }

omit [LinearOrder K] [FloorRing K] in
/-- What no decision changes, `handle_enemies` keeps. -/
theorem handleEnemies_keep {α : Type*} {f : PlayerInfo K → α}
    (hf : ∀ b p, f (handleEnemy b p) = f p) (bots : ℕ → Option (BotMove K)) (w : World K)
    (ref : PlayerRef) : f ((handleEnemies bots w).get ref) = f (w.get ref) := by
  cases ref with
  | player => rfl
  | enemy i =>
    unfold handleEnemies World.get
    simp only [List.getD_eq_getElem?_getD, List.getElem?_mapIdx]
    cases w.enemies[i]? with
    | none => rfl
    | some p =>
      simp only [Option.map_some, Option.getD_some]
      split
      · exact hf _ p
      · rfl

/-- `bot_int_ih` on the enemies from `i` on. -/
def botIntIh (e : Env K) : ℕ → ℕ → World K → World K
  | 0, _, w => w
  | n + 1, i, w =>
    botIntIh e n (i + 1)
      (if (w.get (.enemy i)).shouldRender then playerIntIh e (.enemy i) w else w)

/-- `update_pickups`: slot `0` is left alone. -/
def updatePickups (w : World K) : World K :=
  { w with pickups := { w.pickups with pickups := w.pickups.pickups.mapIdx fun i p =>
      if i = 0 then p else { p with animation := (updateAnim w.timeCounter p.animation).2 } } }

/-- The players make their ticks. -/
def simulate (t : Tick K) (w : World K) : World K :=
  let w := playerIntIh c.toEnv .player (handleEnemies t.bots w)
  -- the replica of a multiplayer game makes its ticks when packets arrive
  let w := if w.state = .game then botIntIh c.toEnv w.enemies.length 0 w else w
  updatePickups w

/-- What `game_handler` does after a step of the handshake. -/
def afterSync (g : Game K) : Game K :=
  if g.net.state = .connected then
    (loadLevel c 3 2 g.net.player g).2.inWorld fun w => { w with timeCounter := 0 }
  else if g.net.state = .init then (g.setState .mainMenu).setNetworkState .cleanup
  else g

/-- The part of `game_handler` in the multiplayer menu. -/
def lobbyStage (t : Tick K) (g : Game K) : Except Fault (Game K) :=
  match uartSync t.polls g.net with
  | .error f => .error f
  | .ok net => .ok (afterSync c { g with net := net })

/-- The part of `game_handler` that runs the game or the multiplayer menu. -/
def playStage (t : Tick K) (g : Game K) : Except Fault (Game K) :=
  if g.state = .game ∨ g.state = .mpGame then .ok (g.inWorld (simulate c t))
  else if g.state = .mpMenu then lobbyStage c t g
  else .ok g

/-- The part of `game_handler` that sends the packet of the tick. -/
def sendStage (g : Game K) : Game K :=
  if g.state = .mpGame then { g with net := uartSendData g.world.player g.net } else g

/-- `reset_player_mouse_movm`. -/
def resetPlayerMouseMovm (g : Game K) : Game K := g.inControls fun m => { m with mouseDesl := 0 }

/-- `game_handler` up to `update_game_state`. -/
def beforeUpdate (t : Tick K) (g : Game K) : Except Fault (Game K) := do
  let g ← playStage c t (receiveStage c g)
  .ok (resetPlayerMouseMovm (display c (sendStage g)))

/-- `game_handler`. -/
def gameHandler (t : Tick K) (g : Game K) : Except Fault (Game K) :=
  updateGameState <$> beforeUpdate c t g

/-! ### Everything that can happen -/

/-- An interrupt of the program. -/
inductive GameInput (K : Type*) where
  /-- A mouse packet: where the mouse is now, its left button, and how far it was
  moved. -/
  | mouse (pos : Vec K) (lb : Bool) (desl : K)
  /-- A key: what the keys are now. -/
  | kbd (k : KbdCtrlState)
  /-- An entry is put into the receive queue. -/
  | recv (e : Entry)
  /-- The clock chip, with the causes it reports. -/
  | rtc (cause : Byte)
  /-- The timer. -/
  | tick (t : Tick K)

/-- `mouse_parse_data`. -/
def mouseParseData (pos : Vec K) (lb : Bool) (desl : K) (g : Game K) : Game K :=
  let aiming := (g.state = .game ∨ g.state = .mpGame) ∧ g.world.invMenu = .closed
  g.inControls fun m =>
    { m with
      mousePos := pos, lbHeldDown := lb, lb := lb
      mouseDesl := if aiming then m.mouseDesl + desl else m.mouseDesl }

/-- `kbd_parse_data`. -/
def kbdParseData (k : KbdCtrlState) (g : Game K) : Game K :=
  g.inControls fun m => { m with kbdState := k, movement := keyMovement k }

/-- `rtc_ih`, as far as the round timer goes: it counts every second periodic
interrupt. -/
def rtcIh (cause : Byte) (g : Game K) : Game K :=
  if cause &&& rtcPf ≠ 0 then
    if g.rtc.pieState = 1 then
      { g with gameTimer := g.gameTimer - 1, rtc := { g.rtc with pieState := 0 } }
    else { g with rtc := { g.rtc with pieState := g.rtc.pieState + 1 } }
  else g

/-- `timer_int_handler`. -/
def timerIntHandler (g : Game K) : Game K :=
  g.inWorld fun w => { w with timeCounter := w.timeCounter + 1 }

/-- The program: any interrupt in any order, until the state is `EXIT`. -/
def gameMachine : Machine (Game K) (GameInput K) where
  step g i :=
    if g.state = .exit then none
    else match i with
      | .mouse pos lb desl => some (mouseParseData pos lb desl g)
      | .kbd k => some (kbdParseData k g)
      | .recv e => some { g with net := { g.net with inFifo := g.net.inFifo ++ [e] } }
      | .rtc cause => some (rtcIh cause g)
      | .tick t => (gameHandler c t (timerIntHandler g)).toOption

/-! ### What a tick can be -/

section

variable {c} {t : Tick K} {g g' : Game K}

/-- The part of a tick that runs the game or the handshake. -/
theorem playStage_cases (h : playStage c t g = .ok g') :
    (g.state = .game ∨ g.state = .mpGame) ∧ g' = g.inWorld (simulate c t) ∨
      (g.state = .mpMenu ∧ ∃ n, uartSync t.polls g.net = .ok n ∧
        g' = afterSync c { g with net := n }) ∨
      (¬ (g.state = .game ∨ g.state = .mpGame) ∧ g.state ≠ .mpMenu) ∧ g' = g := by
  unfold playStage at h
  split at h
  · next hplay =>
    cases h
    exact Or.inl ⟨hplay, rfl⟩
  · next hplay =>
    split at h
    · next hmenu =>
      unfold lobbyStage at h
      cases hsync : uartSync t.polls g.net with
      | error f =>
        rw [hsync] at h
        cases h
      | ok n =>
        rw [hsync] at h
        cases h
        exact Or.inr (Or.inl ⟨hmenu, n, rfl, rfl⟩)
    · next hmenu =>
      cases h
      exact Or.inr (Or.inr ⟨⟨hplay, hmenu⟩, rfl⟩)

theorem beforeUpdate_ok (h : beforeUpdate c t g = .ok g') :
    ∃ p, playStage c t (receiveStage c g) = .ok p ∧
      g' = resetPlayerMouseMovm (display c (sendStage p)) := by
  unfold beforeUpdate at h
  cases hp : playStage c t (receiveStage c g) with
  | error f =>
    rw [hp] at h
    cases h
  | ok p =>
    rw [hp] at h
    cases h
    exact ⟨p, rfl, rfl⟩

theorem gameHandler_ok (h : gameHandler c t g = .ok g') :
    ∃ b, beforeUpdate c t g = .ok b ∧ g' = updateGameState b := by
  unfold gameHandler at h
  cases hb : beforeUpdate c t g with
  | error f =>
    rw [hb] at h
    cases h
  | ok b =>
    rw [hb] at h
    cases h
    exact ⟨b, rfl, rfl⟩

/-- A tick of the program is one of `game_handler`, after the clock has counted it. -/
theorem gameHandler_of_tick (h : (gameMachine c).step g (.tick t) = some g') :
    gameHandler c t (timerIntHandler g) = .ok g' := by
  simp only [gameMachine] at h
  split at h
  · cases h
  · cases hg : gameHandler c t (timerIntHandler g) with
    | error f =>
      rw [hg] at h
      cases h
    | ok g₁ =>
      rw [hg] at h
      cases h
      rfl

end

/-- The program as `init_game` leaves it, with what the controls and the rest of
the memory hold at that moment. -/
def Game.start (w : World K) (rtc : Rtc) : Game K :=
  { world := { w with
      state := .mainMenu, enemies := [], pickups := { w.pickups with pickups := [] } }
    net := Net.start, currLvl := 0, gameTimer := 0, rtc := rtc.enable rtcUie, levelCalls := [] }

end Model

end OperationMinix
