import OperationMinix.Game.Manager
import Mathlib.Logic.Relation

/-!
# The flow of the game

The two enumerations that `game_manager.c`, `main_menu.c` and `networking.c` keep
in step by hand, the state of the game and the state of the network, together
with the calls of the level manager.  `Move` lists once everything that can
happen to them: every way into and out of a screen, a level or a session.  A
tick of the program makes a few moves, one for each stage that has something to
do (`moves_gameHandler`), and every other interrupt makes none, so that an
invariant of the program is an invariant of the moves.

Three kinds of moves are told apart, because not every invariant survives them.

## Main definitions

* `Flow`, `Move`, `Moves` — the states, the moves between them, and sequences of
  moves of some kinds.
* `LosesLink`, `LeavesLobby`, `DiesInMp` — when a tick makes a move of one of the
  three kinds.

## Main results

* `moves_gameHandler` — **a tick refines the flow**.
* `Moves.invariant` — an invariant of the moves is one of the ticks.
-/

namespace OperationMinix

open Runs

set_option linter.unusedSectionVars false

/-! ### The flow -/

/-- What the screens, the levels and the sessions are about. -/
structure Flow where
  state : GameState
  net : NetworkState
  /-- The calls of the level manager so far, oldest first. -/
  calls : List LevelCall
  /-- `num_enemies`. -/
  enemies : ℕ
  /-- `pickups_size`. -/
  pickups : ℕ

namespace Flow

/-- A level is loaded; it leaves `e` enemies and `p` pickups. -/
def load (s : GameState) (e p : ℕ) (f : Flow) : Flow :=
  { f with state := s, calls := f.calls ++ [.load f.enemies f.pickups], enemies := e, pickups := p }

/-- A level is freed. -/
def free (s : GameState) (f : Flow) : Flow :=
  { f with state := s, calls := f.calls ++ [.free], enemies := 0, pickups := 0 }

end Flow

/-- The moves that need a name of their own. -/
inductive MoveKind where
  | regular
  /-- The other peer is given up in the middle of a game. -/
  | timeout
  /-- The multiplayer menu is left through its button. -/
  | leaveLobby
  /-- A player of the multiplayer game is found dead. -/
  | death
  deriving DecidableEq, Repr

/-- The states that a click leads to without more ado. -/
def clicks : GameState → List GameState
  | .mainMenu => [.mpMenu, .exit]
  | .winGame => [.mainMenu, .mpMenu]
  | .loseGame => [.mainMenu, .mpMenu]
  | .disconnect => [.mainMenu]
  | .game => [.endSGame]
  | .mpGame => [.endMGame]
  | _ => []

/-- The states at the end of a single player level. -/
def levelEnds : GameState → List GameState
  | .game => [.winGame, .loseGame]
  | .endSGame => [.mainMenu]
  | _ => []

/-- Everything that can happen to the flow. -/
inductive Move : MoveKind → Flow → Flow → Prop where
  /-- The players of a level make their ticks. -/
  | play {f : Flow} (h : f.state = .game ∨ f.state = .mpGame) (e p : ℕ) :
      Move .regular f { f with enemies := e, pickups := p }
  /-- A step of the handshake that neither ends nor gives up. -/
  | sync {f : Flow} {x : NetworkState} (h : f.state = .mpMenu) (hc : x ≠ .connected)
      (hi : x ≠ .init) (hd : x = .disconnected → f.net = .disconnected) :
      Move .regular f { f with net := x }
  /-- The handshake ends, and the level of the multiplayer game is loaded. -/
  | connect {f : Flow} (h : f.state = .mpMenu) (e p : ℕ) :
      Move .regular f { f.load .mpGame e p with net := .connected }
  /-- The handshake gives up. -/
  | giveUp {f : Flow} (h : f.state = .mpMenu) :
      Move .regular f { f with state := .mainMenu, net := .cleanup }
  /-- The other peer has announced a result. -/
  | remoteResult {f : Flow} {s : GameState} (h : f.state = .mpGame) :
      s ∈ [GameState.winGame, .loseGame] → Move .regular f { f.free s with net := .cleanup }
  /-- The game finds the network disconnected. -/
  | stale {f : Flow} (h : f.state = .mpGame) (hn : f.net = .disconnected) :
      Move .regular f { f with state := .disconnect }
  | timeout {f : Flow} (h : f.state = .mpGame) :
      Move .timeout f { f with state := .disconnect, net := .disconnected }
  | click {f : Flow} {s : GameState} (h : s ∈ clicks f.state) :
      Move .regular f { f with state := s }
  | leaveLobby {f : Flow} (h : f.state = .mpMenu) :
      Move .leaveLobby f { f with state := .mainMenu, net := .init }
  /-- A single player level is loaded. -/
  | start {f : Flow} (h : f.state ∈ [GameState.mainMenu, .winGame, .loseGame]) (e p : ℕ) :
      Move .regular f (f.load .game e p)
  | endLevel {f : Flow} {s : GameState} (h : s ∈ levelEnds f.state) : Move .regular f (f.free s)
  /-- The end of the multiplayer game that the player has asked for. -/
  | quit {f : Flow} (h : f.state = .endMGame) :
      Move .regular f { f.free .loseGame with net := .cleanup }
  /-- A dead player: the level is freed twice. -/
  | death {f : Flow} {s : GameState} (h : f.state = .mpGame) :
      s ∈ [GameState.winGame, .loseGame] →
        Move .death f { (f.free s).free s with net := .cleanup }

/-- A sequence of moves of the allowed kinds. -/
def Moves (allowed : MoveKind → Prop) : Flow → Flow → Prop :=
  Relation.ReflTransGen fun f f' => ∃ k, allowed k ∧ Move k f f'

namespace Moves

variable {allowed : MoveKind → Prop} {f f' f'' : Flow}

theorem refl (f : Flow) : Moves allowed f f := Relation.ReflTransGen.refl

theorem of_eq (h : f = f') : Moves allowed f f' := h ▸ refl f

theorem trans (h : Moves allowed f f') (h' : Moves allowed f' f'') : Moves allowed f f'' :=
  Relation.ReflTransGen.trans h h'

theorem single {k : MoveKind} (hk : allowed k) (h : Move k f f') : Moves allowed f f' :=
  Relation.ReflTransGen.single ⟨k, hk, h⟩

/-- **What every allowed move keeps, every sequence of them keeps.** -/
theorem invariant {J : Flow → Prop}
    (hJ : ∀ k f f', allowed k → Move k f f' → J f → J f') (h : Moves allowed f f') (hf : J f) :
    J f' := by
  induction h with
  | refl => exact hf
  | tail _ hmove ih =>
    obtain ⟨k, hk, hmove⟩ := hmove
    exact hJ k _ _ hk hmove ih

end Moves

section Model

variable {K : Type*} [Field K] [LinearOrder K] [FloorRing K] (c : Setting K)

/-- The flow of the program. -/
def Game.flow (g : Game K) : Flow :=
  { state := g.state, net := g.net.state, calls := g.levelCalls
    enemies := g.world.enemies.length, pickups := g.world.pickups.pickups.length }

/-! ### The three kinds of moves, from the state before the tick -/

instance decidableExistsOk {α : Type*} {P : α → Prop} [DecidablePred P] :
    ∀ x : Except Fault α, Decidable (∃ a, x = .ok a ∧ P a)
  | .error _ => isFalse (by rintro ⟨_, h, _⟩; cases h)
  | .ok a => decidable_of_iff (P a) ⟨fun h => ⟨a, rfl, h⟩, by rintro ⟨b, h, hb⟩; cases h; exact hb⟩

/-- The tick gives the other peer up: 480 ticks have gone by without a frame, and
the queue does not complete one. -/
def LosesLink (g : Game K) : Prop := g.state = .mpGame ∧ TimesOut g.net

/-- The tick leaves the multiplayer menu through its button: it is held down
there, and the handshake neither ends nor gives up. -/
def LeavesLobby (t : Tick K) (g : Game K) : Prop :=
  g.state = .mpMenu ∧ g.world.player.movm.lbHeldDown = true ∧ g.mouseOver c .exitScreen = true ∧
    ∃ n, uartSync t.polls g.net = .ok n ∧ n.state ≠ .connected ∧ n.state ≠ .init

/-- `update_game_state` is called in a multiplayer game with a dead player. -/
def DiesInMp (t : Tick K) (g : Game K) : Prop :=
  ∃ b, beforeUpdate c t g = .ok b ∧ b.state = .mpGame ∧ b.mpDeath

instance (g : Game K) : Decidable (LosesLink g) := inferInstanceAs (Decidable (_ ∧ _))

instance (t : Tick K) (g : Game K) : Decidable (LeavesLobby c t g) :=
  inferInstanceAs (Decidable (_ ∧ _ ∧ _ ∧ _))

instance (t : Tick K) (g : Game K) : Decidable (DiesInMp c t g) :=
  inferInstanceAs (Decidable (∃ _, _))

/-! ### The state of the game during a tick -/

theorem state_playerIntIh (e : Env K) (r : PlayerRef) (w : World K) :
    (playerIntIh e r w).state = w.state := by
  rw [(sameControls_playerIntIh e r w).state, World.state_modify]

theorem state_botIntIh (e : Env K) : ∀ (n i : ℕ) (w : World K),
    (botIntIh e n i w).state = w.state := by
  intro n
  induction n with
  | zero => intro i w; rfl
  | succ n ih =>
    intro i w
    unfold botIntIh
    rw [ih]
    split
    · exact state_playerIntIh e _ w
    · rfl

theorem state_simulate (t : Tick K) (w : World K) : (simulate c t w).state = w.state := by
  have hplayer : (playerIntIh c.toEnv .player (handleEnemies t.bots w)).state = w.state :=
    state_playerIntIh c.toEnv .player _
  unfold simulate
  dsimp only
  split
  · exact (state_botIntIh c.toEnv _ 0 _).trans hplayer
  · exact hplayer

theorem state_driveEnemy (pkt : NetworkPacket) (w : World K) :
    (driveEnemy c pkt w).state = w.state := by
  unfold driveEnemy
  rw [state_playerIntIh, World.state_modify]

/-- The states after the packets of a multiplayer game have been handled. -/
theorem state_receiveStage {g : Game K} (hst : g.state = .mpGame) :
    (receiveStage c g).state ∈ [GameState.mpGame, .winGame, .loseGame, .disconnect] := by
  have hw : (uartReceiveData (driveEnemy c) g.net g.world).2.2.state = .mpGame :=
    uartReceiveData_replica (driveEnemy c)
      (fun pkt w h => (state_driveEnemy c pkt w).trans h) g.net hst
  unfold receiveStage
  rw [if_pos hst]
  generalize uartReceiveData (driveEnemy c) g.net g.world = out at *
  obtain ⟨res, n, w⟩ := out
  dsimp only at hw ⊢
  cases res with
  | winGameErr => exact List.mem_cons_of_mem _ List.mem_cons_self
  | loseGameErr => exact List.mem_cons_of_mem _ (List.mem_cons_of_mem _ List.mem_cons_self)
  | ok =>
    dsimp only
    split
    · simp [Game.setState, Game.state]
    · simp [Game.state, hw]

/-! ### What the functions of the game do to the flow -/

@[simp] theorem flow_setState (s : GameState) (g : Game K) :
    (g.setState s).flow = { g.flow with state := s } := rfl

@[simp] theorem flow_setNetworkState (x : NetworkState) (g : Game K) :
    (g.setNetworkState x).flow = { g.flow with net := x } := rfl

@[simp] theorem flow_inControls (f : Controls K → Controls K) (g : Game K) :
    (g.inControls f).flow = g.flow := rfl

@[simp] theorem flow_takeGun (chosen : Option ℕ) (g : Game K) :
    (g.takeGun chosen).flow = g.flow := by
  cases chosen <;> rfl

/-- Setting a level up makes no call of its own. -/
theorem setupLevel_fields (numMap : ℤ) (mode player : ℕ) (g : Game K) :
    (setupLevel c numMap mode player g).levelCalls = g.levelCalls ∧
      (setupLevel c numMap mode player g).net = g.net := by
  unfold setupLevel
  split_ifs <;> exact ⟨rfl, rfl⟩

theorem flow_gmInitGame {mapNum : ℤ} (hmap : (c.maps mapNum.toNat).isSome) (gameMode player : ℕ)
    (g : Game K) :
    ∃ e p, (gmInitGame c mapNum gameMode player g).flow = g.flow.load .game e p := by
  obtain ⟨m, hm⟩ := Option.isSome_iff_exists.mp hmap
  unfold gmInitGame loadLevel
  dsimp only
  rw [hm]
  dsimp only
  generalize hg₀ : Game.mk _ _ _ _ _ (g.levelCalls ++ _) = g₀
  obtain ⟨hcalls, hnet⟩ := setupLevel_fields c mapNum gameMode player g₀
  generalize setupLevel c mapNum gameMode player g₀ = g₁ at *
  refine ⟨g₁.world.enemies.length, g₁.world.pickups.pickups.length, ?_⟩
  rw [← hg₀] at hcalls hnet
  simp only [Game.flow, Flow.load, Game.setState, Game.state, hcalls, hnet]

theorem flow_loadLevel_mp (hmap : (c.maps 3).isSome) (player : ℕ) (g : Game K) :
    ∃ e p, (loadLevel c 3 2 player g).2.flow = g.flow.load .mpGame e p := by
  obtain ⟨m, hm⟩ := Option.isSome_iff_exists.mp hmap
  unfold loadLevel
  dsimp only
  rw [show (3 : ℤ).toNat = 3 from rfl, hm]
  exact ⟨_, _, rfl⟩

/-! ### The stages of a tick -/

section Stages

variable {allowed : MoveKind → Prop} (hreg : allowed .regular)

include hreg

theorem moves_receiveStage {g : Game K} (ht : LosesLink g → allowed .timeout) :
    Moves allowed g.flow (receiveStage c g).flow := by
  unfold receiveStage
  split
  · next hst =>
    have hw : (uartReceiveData (driveEnemy c) g.net g.world).2.2.state = .mpGame :=
      uartReceiveData_replica (driveEnemy c)
        (fun pkt w h => (state_driveEnemy c pkt w).trans h) g.net hst
    have hn := uartReceiveData_state (driveEnemy c) g.net g.world
    generalize uartReceiveData (driveEnemy c) g.net g.world = out at *
    obtain ⟨res, n, w⟩ := out
    dsimp only at hw hn ⊢
    -- the packets have driven the replica
    have hplay : Moves allowed g.flow
        { g.flow with enemies := w.enemies.length, pickups := w.pickups.pickups.length } :=
      .single hreg (.play (Or.inr hst) _ _)
    refine hplay.trans ?_
    cases res with
    | winGameErr => exact .single hreg (.remoteResult (s := .winGame) hst (by simp))
    | loseGameErr => exact .single hreg (.remoteResult (s := .loseGame) hst (by simp))
    | ok =>
      dsimp only
      by_cases hto : TimesOut g.net
      · rw [if_pos hto] at hn
        rw [if_pos hn]
        refine (Moves.single (ht ⟨hst, hto⟩) (.timeout hst)).trans (.of_eq ?_)
        rw [flow_setState]
        simp only [Game.flow, hn]
      · rw [if_neg hto] at hn
        have hflow : Game.flow { g with net := n, world := w } =
            { g.flow with enemies := w.enemies.length, pickups := w.pickups.pickups.length } := by
          have hst' : g.world.state = .mpGame := hst
          simp only [Game.flow, Game.state, hn, hw, hst']
        split
        · next hd =>
          rw [flow_setState, hflow]
          exact .single hreg (.stale hst (hn.symm.trans hd))
        · exact .of_eq hflow.symm
  · exact .refl _

theorem moves_playStage (hmaps : ∀ k, (c.maps k).isSome) {t : Tick K} {g g' : Game K}
    (h : playStage c t g = .ok g') : Moves allowed g.flow g'.flow := by
  rcases playStage_cases h with ⟨hst, rfl⟩ | ⟨hst, n, hsync, rfl⟩ | ⟨-, rfl⟩
  · refine (Moves.single hreg (.play hst (simulate c t g.world).enemies.length
      (simulate c t g.world).pickups.pickups.length)).trans (.of_eq ?_)
    have hstate : g.world.state = (simulate c t g.world).state := (state_simulate c t g.world).symm
    simp only [Game.flow, Game.state, Game.inWorld, hstate]
  · unfold afterSync
    dsimp only
    split
    · next hc =>
      obtain ⟨e, p, hload⟩ := flow_loadLevel_mp c (hmaps 3) n.player { g with net := n }
      refine (Moves.single hreg (.connect hst e p)).trans (.of_eq ?_)
      refine Eq.trans ?_ hload.symm
      simp only [Flow.load, Game.flow, Game.state, hc]
    · next hc =>
      split
      · exact .single hreg (.giveUp hst)
      · next hi => exact .single hreg (.sync hst hc hi (uartSync_disconnected hsync))
  · exact .refl _

omit hreg in
theorem flow_sendStage (g : Game K) : (sendStage g).flow = g.flow := by
  unfold sendStage
  split
  · rfl
  · rfl

/-- A click releases the button and does what it is there for. -/
theorem moves_onClick {click : Game K → Game K} {g : Game K}
    (h : g.world.player.movm.lbHeldDown = true → ∀ g' : Game K,
      g' = g.inControls (fun m => { m with lbHeldDown := false }) →
        Moves allowed g.flow (click g').flow) :
    Moves allowed g.flow (onClick click g).flow := by
  unfold onClick
  split
  · next hlb => exact h hlb _ rfl
  · exact .refl _

theorem moves_renderMenu (hmaps : ∀ k, (c.maps k).isSome) {g : Game K} (hst : g.state = .mainMenu) :
    Moves allowed g.flow (renderMenu c g).flow := by
  apply moves_onClick hreg
  intro hlb g' hg'
  have hflow : g'.flow = g.flow := by rw [hg', flow_inControls]
  split_ifs
  · obtain ⟨e, p, hload⟩ := flow_gmInitGame c (hmaps _) 1 1 g'
    rw [hload, hflow]
    exact .single hreg (.start (by simp [Game.flow, hst]) e p)
  · rw [flow_setState, hflow]
    exact .single hreg (.click (by simp [Game.flow, hst, clicks]))
  · rw [flow_setState, hflow]
    exact .single hreg (.click (by simp [Game.flow, hst, clicks]))
  · exact .of_eq hflow.symm

theorem moves_renderMpMenu {g : Game K} (hst : g.state = .mpMenu)
    (hl : g.world.player.movm.lbHeldDown = true → g.mouseOver c .exitScreen = true →
      allowed .leaveLobby) :
    Moves allowed g.flow (renderMpMenu c g).flow := by
  apply moves_onClick hreg
  intro hlb g' hg'
  have hflow : g'.flow = g.flow := by rw [hg', flow_inControls]
  split_ifs with hover
  · rw [flow_setNetworkState, flow_setState, hflow]
    rw [hg'] at hover
    exact .single (hl hlb hover) (.leaveLobby hst)
  · exact .of_eq hflow.symm

theorem moves_renderWinLoseScreen (hmaps : ∀ k, (c.maps k).isSome) {g : Game K}
    (hst : g.state = .winGame ∨ g.state = .loseGame) :
    Moves allowed g.flow (renderWinLoseScreen c g).flow := by
  apply moves_onClick hreg
  intro hlb g' hg'
  have hflow : g'.flow = g.flow := by rw [hg', flow_inControls]
  have hclicks : ∀ s ∈ [GameState.mainMenu, .mpMenu], s ∈ clicks g.flow.state := by
    intro s hs
    rcases hst with hst | hst
    · rw [show g.flow.state = .winGame from hst]; exact hs
    · rw [show g.flow.state = .loseGame from hst]; exact hs
  have hstart : g.flow.state ∈ [GameState.mainMenu, .winGame, .loseGame] := by
    rcases hst with hst | hst <;> simp [Game.flow, hst]
  dsimp only
  split_ifs
  · rw [flow_setState, hflow]
    exact .single hreg (.click (hclicks _ (by simp)))
  · rw [flow_setState, hflow]
    exact .single hreg (.click (hclicks _ (by simp)))
  · obtain ⟨e, p, hload⟩ := flow_gmInitGame c (hmaps _) 1 1 g'
    rw [hload, hflow]
    exact .single hreg (.start hstart e p)
  · obtain ⟨e, p, hload⟩ := flow_gmInitGame c (hmaps _) 1 1 g'
    rw [hload, hflow]
    exact .single hreg (.start hstart e p)
  · exact .of_eq hflow.symm

theorem moves_renderDisconnectScreen {g : Game K} (hst : g.state = .disconnect) :
    Moves allowed g.flow (renderDisconnectScreen c g).flow := by
  apply moves_onClick hreg
  intro hlb g' hg'
  have hflow : g'.flow = g.flow := by rw [hg', flow_inControls]
  split_ifs
  · rw [flow_setState, hflow]
    exact .single hreg (.click (by simp [Game.flow, hst, clicks]))
  · exact .of_eq hflow.symm

/-- Choosing a gun or closing the menu is not seen in the flow; asking for the end
of the game is. -/
theorem moves_displayMenu {g : Game K} (hst : g.state = .game ∨ g.state = .mpGame) :
    Moves allowed g.flow (displayMenu c g).flow := by
  unfold displayMenu
  dsimp only
  generalize hopen : (if g.world.invMenu = .closed then _ else g) = g₁
  have hflow : g₁.flow = g.flow := by
    rw [← hopen]
    split <;> rfl
  have hst₁ : g₁.state = g.state := congrArg Flow.state hflow
  split
  · rw [flow_takeGun]
    split
    · rw [flow_setState, flow_inControls, hflow]
      refine .single hreg (.click ?_)
      rcases hst with hst | hst
      · simp [Game.flow, Game.state, Game.inControls, Game.inWorld, clicks,
          show g.world.state = .game from hst, show g₁.world.state = .game from hst₁.trans hst]
      · simp [Game.flow, Game.state, Game.inControls, Game.inWorld, clicks,
          show g.world.state = .mpGame from hst, show g₁.world.state = .mpGame from hst₁.trans hst]
    · exact .of_eq hflow.symm
  · exact .of_eq hflow.symm

theorem moves_renderGame {g : Game K} (hst : g.state = .game ∨ g.state = .mpGame) :
    Moves allowed g.flow (renderGame c g).flow := by
  unfold renderGame
  dsimp only
  split
  · exact .refl _
  · split
    · exact moves_displayMenu c hreg hst
    · exact .refl _

theorem moves_display (hmaps : ∀ k, (c.maps k).isSome) {g : Game K}
    (hl : g.state = .mpMenu → g.world.player.movm.lbHeldDown = true →
      g.mouseOver c .exitScreen = true → allowed .leaveLobby) :
    Moves allowed g.flow (display c g).flow := by
  unfold display
  split
  · next hst => exact moves_renderGame c hreg (Or.inl hst)
  · next hst => exact moves_renderGame c hreg (Or.inr hst)
  · next hst => exact moves_renderMenu c hreg hmaps hst
  · next hst => exact moves_renderMpMenu c hreg hst (hl hst)
  · next hst => exact moves_renderWinLoseScreen c hreg hmaps (Or.inl hst)
  · next hst => exact moves_renderWinLoseScreen c hreg hmaps (Or.inr hst)
  · next hst => exact moves_renderDisconnectScreen c hreg hst
  · exact .refl _

theorem moves_updateGameState {g : Game K} (hd : g.state = .mpGame → g.mpDeath → allowed .death) :
    Moves allowed g.flow (updateGameState g).flow := by
  unfold updateGameState
  split
  · next hst =>
    have hends : ∀ s ∈ [GameState.winGame, .loseGame], s ∈ levelEnds g.flow.state := by
      intro s hs
      rw [show g.flow.state = .game from hst]
      exact hs
    split_ifs
    · exact .single hreg (.endLevel (hends .loseGame (by simp)))
    · exact .single hreg (.endLevel (hends .winGame (by simp)))
    · exact .refl _
  · next hst =>
    dsimp only
    split_ifs with hdeath
    · exact .single (hd hst hdeath) (.death (s := .loseGame) hst (by simp))
    · exact .single (hd hst hdeath) (.death (s := .winGame) hst (by simp))
    · exact .refl _
  · next hst =>
    refine .single hreg (.endLevel (s := .mainMenu) ?_)
    simp [Game.flow, hst, levelEnds]
  · next hst => exact .single hreg (.quit hst)
  · exact .refl _

omit hreg in
/-- A tick that is still in the multiplayer menu when the screen is drawn began
there, and its handshake neither ended nor gave up. -/
theorem playStage_mpMenu (hmaps : ∀ k, (c.maps k).isSome) {t : Tick K} {g b : Game K}
    (h : playStage c t (receiveStage c g) = .ok b) (hb : b.state = .mpMenu) :
    g.state = .mpMenu ∧ ∃ n, uartSync t.polls g.net = .ok n ∧ n.state ≠ .connected ∧
      n.state ≠ .init ∧ b = { g with net := n } := by
  have hrecv : (receiveStage c g).state = .mpMenu → receiveStage c g = g := by
    intro hst
    by_cases hmp : g.state = .mpGame
    · have := state_receiveStage c hmp
      rw [hst] at this
      simp at this
    · exact if_neg hmp
  rcases playStage_cases h with ⟨hst, rfl⟩ | ⟨hst, n, hsync, rfl⟩ | ⟨⟨-, hst⟩, rfl⟩
  · have hsame : (receiveStage c g).state = .mpMenu := (state_simulate c t _).symm.trans hb
    rw [hsame] at hst
    simp at hst
  · have heq := hrecv hst
    rw [heq] at hb hst hsync ⊢
    refine ⟨hst, n, hsync, ?_⟩
    unfold afterSync at hb ⊢
    dsimp only at hb ⊢
    split at hb
    · obtain ⟨e, p, hload⟩ := flow_loadLevel_mp c (hmaps 3) n.player { g with net := n }
      -- the level that is loaded then is not the menu any more
      have hmp : (loadLevel c 3 2 n.player { g with net := n }).2.state = .mpGame :=
        congrArg Flow.state hload
      cases hmp.symm.trans hb
    · next hc =>
      split at hb
      · cases hb
      · next hi => exact ⟨hc, hi, by rw [if_neg hc, if_neg hi]⟩
  · exact absurd hb hst

/-- `game_handler` up to `update_game_state`. -/
theorem moves_beforeUpdate (hmaps : ∀ k, (c.maps k).isSome) {t : Tick K} {g b : Game K}
    (ht : LosesLink g → allowed .timeout) (hl : LeavesLobby c t g → allowed .leaveLobby)
    (h : beforeUpdate c t g = .ok b) : Moves allowed g.flow b.flow := by
  obtain ⟨g₁, hp, rfl⟩ := beforeUpdate_ok h
  have hmoves := (moves_receiveStage c hreg ht).trans (moves_playStage c hreg hmaps hp)
  rw [← flow_sendStage g₁] at hmoves
  refine hmoves.trans (moves_display c hreg hmaps fun hst hlb hover => hl ?_)
  have hsend : sendStage g₁ = g₁ := by
    apply if_neg
    intro hmp
    have hst₁ : g₁.state = .mpMenu := (congrArg Flow.state (flow_sendStage g₁)).symm.trans hst
    rw [hmp] at hst₁
    cases hst₁
  rw [hsend] at hst hlb hover
  obtain ⟨hmenu, n, hsync, hc, hi, rfl⟩ := playStage_mpMenu c hmaps hp hst
  exact ⟨hmenu, hlb, hover, n, hsync, hc, hi⟩

/-- **A tick refines the flow.**  It makes moves of the regular kind, and one of
another kind only for the reason that the state before it gives. -/
theorem moves_gameHandler (hmaps : ∀ k, (c.maps k).isSome) {t : Tick K} {g g' : Game K}
    (ht : LosesLink g → allowed .timeout) (hl : LeavesLobby c t g → allowed .leaveLobby)
    (hd : DiesInMp c t g → allowed .death) (h : gameHandler c t g = .ok g') :
    Moves allowed g.flow g'.flow := by
  obtain ⟨b, hb, rfl⟩ := gameHandler_ok h
  exact (moves_beforeUpdate c hreg hmaps ht hl hb).trans
    (moves_updateGameState hreg fun hst hdeath => hd ⟨b, hb, hst, hdeath⟩)

/-- **An interrupt refines the flow**: only the timer makes moves. -/
theorem moves_gameMachine (hmaps : ∀ k, (c.maps k).isSome) {g g' : Game K} {i : GameInput K}
    (ht : ∀ t, i = .tick t → LosesLink g → allowed .timeout)
    (hl : ∀ t, i = .tick t → LeavesLobby c t g → allowed .leaveLobby)
    (hd : ∀ t, i = .tick t → DiesInMp c t (timerIntHandler g) → allowed .death)
    (h : (gameMachine c).step g i = some g') : Moves allowed g.flow g'.flow := by
  have hstep := h
  simp only [gameMachine] at h
  split at h
  · cases h
  · cases i with
    | mouse pos lb desl => cases h; exact .refl _
    | kbd k => cases h; exact .refl _
    | recv e => cases h; exact .refl _
    | rtc cause =>
      cases h
      refine .of_eq ?_
      unfold rtcIh
      split_ifs <;> rfl
    | tick t =>
      exact moves_gameHandler c hreg hmaps (g := timerIntHandler g) (ht t rfl) (hl t rfl)
        (hd t rfl) (gameHandler_of_tick hstep)

end Stages

/-! ### Ticks that leave stages out -/

/-- Sending makes calls on the driver, and nothing else. -/
theorem sendStage_eq (g : Game K) :
    ∃ cs, sendStage g = { g with net := { g.net with calls := cs } } := by
  unfold sendStage
  split
  · exact ⟨_, rfl⟩
  · exact ⟨g.net.calls, rfl⟩

/-- A tick that is not in a level, nor in the multiplayer menu, only draws the
screen. -/
theorem beforeUpdate_screen {t : Tick K} {g : Game K}
    (hplay : ¬ ((receiveStage c g).state = .game ∨ (receiveStage c g).state = .mpGame))
    (hmenu : (receiveStage c g).state ≠ .mpMenu) :
    beforeUpdate c t g =
      .ok (resetPlayerMouseMovm (display c (receiveStage c g))) := by
  have hsend : sendStage (receiveStage c g) = receiveStage c g :=
    if_neg fun hmp => hplay (Or.inr hmp)
  unfold beforeUpdate playStage
  rw [if_neg hplay, if_neg hmenu]
  simp only [bind, Except.bind, hsend]

/-- A tick on a screen without a game draws it. -/
theorem gameHandler_screen {t : Tick K} {g : Game K}
    (hst : g.state ∈ [GameState.mainMenu, .winGame, .loseGame, .disconnect]) :
    gameHandler c t g =
      .ok (updateGameState (resetPlayerMouseMovm (display c g))) := by
  have hrecv : receiveStage c g = g := by
    apply if_neg
    intro hmp
    rw [hmp] at hst
    simp at hst
  unfold gameHandler
  rw [beforeUpdate_screen c, hrecv]
  · rfl
  · rw [hrecv]
    rintro (h | h) <;> rw [h] at hst <;> simp at hst
  · rw [hrecv]
    intro h
    rw [h] at hst
    simp at hst

/-- `update_game_state` with a dead player: the result, and the word sent. -/
theorem updateGameState_dead {b : Game K} (hst : b.state = .mpGame) (hdeath : b.mpDeath) :
    updateGameState b = if b.world.player.health ≤ 0 then
        (gmResetMpGame ((gmResetMpGame b).setState .loseGame)).sendString uartWinGame
      else (gmResetMpGame ((gmResetMpGame b).setState .winGame)).sendString uartLoseGame := by
  unfold updateGameState
  rw [hst]
  exact if_pos hdeath

/-- A multiplayer game with both players alive goes on. -/
theorem updateGameState_alive {g : Game K} (hst : g.state = .mpGame) (hd : ¬ g.mpDeath) :
    updateGameState g = g := by
  unfold updateGameState
  rw [hst]
  exact if_neg hd

/-- A level that goes on is left as it is. -/
theorem updateGameState_game {g : Game K} (h : (updateGameState g).state = .game) :
    updateGameState g = g := by
  unfold updateGameState at h ⊢
  split
  · next hst =>
    rw [hst] at h
    dsimp only at h
    split_ifs at h ⊢ <;> first | rfl | cases h
  · next hst =>
    rw [hst] at h
    dsimp only at h
    split_ifs at h ⊢ <;> first | rfl | cases h
  · next hst => rw [hst] at h; cases h
  · next hst => rw [hst] at h; cases h
  · rfl

/-- A tick of the program, from a tick of the game. -/
theorem step_tick {t : Tick K} {g g' : Game K} (hg : g.state ≠ .exit)
    (h : gameHandler c t (timerIntHandler g) = .ok g') :
    (gameMachine c).step g (.tick t) = some g' := by
  simp only [gameMachine, if_neg hg, h]
  rfl

end Model

end OperationMinix
