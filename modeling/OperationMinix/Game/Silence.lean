import OperationMinix.Game.Flow
import Mathlib.Data.List.Induction

/-!
# A game in which nothing arrives

`uart_receive_data` counts the ticks since the last frame, and gives the other
peer up after 480 of them.  Until then a player that touches nothing is alive and
stays in the game, whatever lies around it: a player at rest does not shoot, and
what it may pick up does it good.

## Main definitions

* `Resting` — a player at rest.
* `Silent k` — a multiplayer game over a silent line, `k` ticks after the last
  frame.

## Main results

* `silent_disconnect` — **a silent game is given up**, with its level still
  loaded.
-/

namespace OperationMinix

open Runs

set_option linter.unusedSectionVars false

section Model

variable {K : Type*} [Field K] [LinearOrder K] [FloorRing K] (c : Setting K)

/-! ### A player at rest -/

/-- The local player touches neither the mouse nor the gun menu. -/
structure Resting (p : PlayerInfo K) : Prop where
  type : p.type = .player
  lb : p.movm.lb = false
  mouseState : p.movm.mouseState = .keyUp
  lbSingleTap : p.movm.lbSingleTap = false
  lbHeldDown : p.movm.lbHeldDown = false
  gunMenu : p.movm.kbdState.gunMenu = false

/-- Rest goes on, with the same health or more. -/
def Rests (p q : PlayerInfo K) : Prop := Resting p → Resting q ∧ p.health ≤ q.health

namespace Rests

variable {p q r : PlayerInfo K}

theorem refl (p : PlayerInfo K) : Rests p p := fun hp => ⟨hp, le_refl _⟩

theorem trans (h : Rests p q) (h' : Rests q r) : Rests p r :=
  fun hp => ⟨(h' (h hp).1).1, (h hp).2.trans (h' (h hp).1).2⟩

theorem turn (l : Libm K) (p : PlayerInfo K) : Rests p (turn l p) := by
  intro hp
  unfold OperationMinix.turn
  dsimp only
  split_ifs <;> exact ⟨⟨hp.type, hp.lb, hp.mouseState, hp.lbSingleTap, hp.lbHeldDown, hp.gunMenu⟩,
    le_refl _⟩

theorem move (l : Libm K) (m : GameMap) (p : PlayerInfo K) : Rests p (move l m p) := fun hp =>
  ⟨⟨hp.type, hp.lb, hp.mouseState, hp.lbSingleTap, hp.lbHeldDown, hp.gunMenu⟩, le_refl _⟩

theorem numberKeys (p : PlayerInfo K) : Rests p (numberKeys p) := by
  intro hp
  unfold OperationMinix.numberKeys takeNumberKey switchGun
  split
  · exact ⟨hp, le_refl _⟩
  · dsimp only
    split <;> exact ⟨⟨hp.type, hp.lb, hp.mouseState, hp.lbSingleTap, hp.lbHeldDown, hp.gunMenu⟩,
      le_refl _⟩

theorem updatePlayerControls (p : PlayerInfo K) : Rests p (updatePlayerControls p) := by
  intro hp
  unfold OperationMinix.updatePlayerControls
  dsimp only
  rw [hp.mouseState]
  dsimp only
  rw [if_neg (by simp [hp.lb])]
  exact ⟨⟨hp.type, hp.lb, rfl, hp.lbSingleTap, hp.lb, hp.gunMenu⟩, le_refl _⟩

theorem steer (l : Libm K) (m : GameMap) (p : PlayerInfo K) : Rests p (steer l m p) := by
  have hmoved := (turn l p).trans (move l m _)
  intro hp
  unfold OperationMinix.steer
  rw [if_neg (by simp [(hmoved hp).1.type])]
  exact (hmoved.trans ((numberKeys _).trans (updatePlayerControls _))) hp

/-- A pickup never takes health away. -/
theorem pickupHandler (d : PickupDetails) (p : PlayerInfo K) :
    Rests p (pickupHandler d p).2 := by
  intro hp
  refine ⟨?_, ?_⟩
  · cases d <;> exact ⟨hp.type, hp.lb, hp.mouseState, hp.lbSingleTap, hp.lbHeldDown, hp.gunMenu⟩
  · cases d with
    | ammo packets ammoIndex => exact le_refl p.health
    | armor armor => exact le_refl p.health
    | medkit health =>
      show p.health ≤ (topUp health p.maxHealth p.health).2
      unfold topUp
      split
      · exact le_refl p.health
      · next h => exact le_min (by omega) (le_of_not_ge h)

theorem pickUp (w : World K) :
    Rests w.player (pickUp .player w).player ∧ (pickUp .player w).enemies = w.enemies := by
  unfold OperationMinix.pickUp
  dsimp only
  split
  · refine ⟨?_, rfl⟩
    show Rests w.player (pickupIndex w.player _ w.pickups).1
    unfold pickupIndex
    split
    · exact refl _
    · exact pickupHandler _ _
  · exact ⟨refl _, rfl⟩

theorem finishTick (shot : Bool) (w : World K) :
    Rests w.player (finishTick .player shot w).player ∧
      (finishTick .player shot w).enemies = w.enemies := by
  refine ⟨fun hp => ?_, rfl⟩
  unfold OperationMinix.finishTick animate
  dsimp only [World.modify, World.get]
  rw [if_pos hp.type]
  exact ⟨⟨hp.type, hp.lb, hp.mouseState, hp.lbSingleTap, hp.lbHeldDown, hp.gunMenu⟩, le_refl _⟩

end Rests

/-- A resting player does not shoot. -/
theorem shoot_resting (e : Env K) {w : World K} (hp : Resting w.player) :
    shoot e .player w = (false, w) := by
  apply if_neg
  simp [wantsToShoot, World.get, hp.type, hp.lbHeldDown, hp.lbSingleTap]

/-- **The tick of a resting player** touches nobody else. -/
theorem playerIntIh_resting (e : Env K) {w : World K} (hp : Resting w.player) :
    (Resting (playerIntIh e .player w).player ∧
      w.player.health ≤ (playerIntIh e .player w).player.health) ∧
      (playerIntIh e .player w).enemies = w.enemies := by
  have hsteer : Rests w.player (w.modify .player (steer e.libm w.map)).player :=
    Rests.steer e.libm w.map w.player
  obtain ⟨hpick, henemies⟩ := Rests.pickUp (w.modify .player (steer e.libm w.map))
  unfold playerIntIh
  dsimp only
  rw [shoot_resting e ((hsteer.trans hpick) hp).1]
  obtain ⟨hfin, henemies'⟩ := Rests.finishTick false
    (pickUp .player (w.modify .player (steer e.libm w.map)))
  exact ⟨((hsteer.trans hpick).trans hfin) hp, henemies'.trans henemies⟩

theorem health_handleEnemy (b : BotMove K) (p : PlayerInfo K) :
    (handleEnemy b p).health = p.health := by
  unfold handleEnemy
  split <;> rfl

/-- The controllers of the bots hurt nobody. -/
theorem health_handleEnemies (bots : ℕ → Option (BotMove K)) (w : World K) (ref : PlayerRef) :
    ((handleEnemies bots w).get ref).health = (w.get ref).health :=
  handleEnemies_keep health_handleEnemy bots w ref

/-! ### A silent line -/

/-- A multiplayer game over a silent line, `k` ticks after the last frame. -/
structure Silent (k : ℕ) (g : Game K) : Prop where
  state : g.state = .mpGame
  net : g.net.state = .connected
  inFifo : g.net.inFifo = []
  tries : g.net.packetTries = k
  player : Resting g.world.player
  alive : 0 < g.world.player.health
  enemy : 0 < (g.world.get (.enemy 0)).health

variable {k : ℕ} {g : Game K}

theorem receiveStage_silent (h : Silent k g) : receiveStage c g =
    if k + 1 > uartPacketTries then
      { g with
        net := { g.net with packetTries := k + 1, state := .disconnected } }.setState .disconnect
    else { g with net := { g.net with packetTries := k + 1 } } := by
  unfold receiveStage
  rw [if_pos h.state, uartReceiveData_nil _ h.inFifo, h.tries]
  dsimp only
  by_cases htries : k + 1 > uartPacketTries
  · rw [if_pos htries, if_pos htries, if_pos rfl]
  · rw [if_neg htries, if_neg htries]
    apply if_neg
    show g.net.state ≠ .disconnected
    rw [h.net]
    decide

theorem simulate_silent (h : Silent k g) (t : Tick K) :
    Resting (simulate c t g.world).player ∧ 0 < (simulate c t g.world).player.health ∧
      0 < ((simulate c t g.world).get (.enemy 0)).health := by
  have hstate := state_simulate c t g.world
  obtain ⟨⟨hrest, hhealth⟩, henemies⟩ :=
    playerIntIh_resting c.toEnv (w := handleEnemies t.bots g.world) h.player
  have hgame : (playerIntIh c.toEnv .player (handleEnemies t.bots g.world)).state ≠ .game := by
    rw [state_playerIntIh]
    show g.world.state ≠ .game
    rw [show g.world.state = .mpGame from h.state]
    decide
  unfold simulate
  dsimp only
  rw [if_neg hgame]
  refine ⟨hrest, h.alive.trans_le hhealth, ?_⟩
  have henemy := h.enemy
  rw [← health_handleEnemies t.bots g.world (.enemy 0)] at henemy
  unfold World.get at henemy ⊢
  dsimp only [updatePickups] at henemy ⊢
  rw [henemies]
  exact henemy

/-- Without its key the gun menu is at most closed. -/
theorem display_resting {g : Game K} (hst : g.state = .mpGame) (hp : Resting g.world.player) :
    ∃ m, display c g = g.inWorld fun w => { w with invMenu := m } := by
  unfold display
  rw [hst]
  show ∃ m, renderGame c g = _
  unfold renderGame
  rw [hp.gunMenu]
  dsimp only
  split
  · exact ⟨.closed, rfl⟩
  · exact ⟨g.world.invMenu, rfl⟩

/-- The disconnect screen without a click. -/
theorem renderDisconnectScreen_released {g : Game K}
    (hlb : g.world.player.movm.lbHeldDown = false) : renderDisconnectScreen c g = g :=
  if_neg (by simp [hlb])

/-- The tick that gives the other peer up. -/
theorem gameHandler_timeout (h : Silent k g) (hk : uartPacketTries < k + 1) (t : Tick K) :
    ∃ g', gameHandler c t g = .ok g' ∧ g'.state = .disconnect ∧ g'.net.state = .disconnected ∧
      g'.levelCalls = g.levelCalls := by
  have hrecv := receiveStage_silent c h
  rw [if_pos hk] at hrecv
  have hst : (receiveStage c g).state = .disconnect := by rw [hrecv]; rfl
  have hnet : (receiveStage c g).net.state = .disconnected := by rw [hrecv]; rfl
  have hlb : (receiveStage c g).world.player.movm.lbHeldDown = false := by
    rw [hrecv]
    exact h.player.lbHeldDown
  have hcalls : (receiveStage c g).levelCalls = g.levelCalls := by rw [hrecv]; rfl
  have hbefore := beforeUpdate_screen c (t := t) (g := g) (by simp [hst]) (by simp [hst])
  generalize receiveStage c g = g₁ at *
  have hdisplay : display c g₁ = g₁ := by
    unfold display
    rw [hst]
    exact renderDisconnectScreen_released c hlb
  have hupdate : updateGameState (resetPlayerMouseMovm g₁) = resetPlayerMouseMovm g₁ := by
    unfold updateGameState
    rw [show (resetPlayerMouseMovm g₁).state = .disconnect from hst]
  refine ⟨resetPlayerMouseMovm g₁, ?_, hst, hnet, hcalls⟩
  unfold gameHandler
  rw [hbefore, hdisplay]
  exact congrArg Except.ok hupdate

/-- A tick before that, up to `update_game_state`. -/
theorem beforeUpdate_silent (h : Silent k g) (hk : k + 1 ≤ uartPacketTries) (t : Tick K) :
    ∃ b, beforeUpdate c t g = .ok b ∧ Silent (k + 1) b ∧ b.levelCalls = g.levelCalls := by
  have hrecv := receiveStage_silent c h
  rw [if_neg (Nat.not_lt.mpr hk)] at hrecv
  obtain ⟨g₁, hplay, hworld, hnet, hcalls⟩ : ∃ g₁ : Game K,
      playStage c t (receiveStage c g) = .ok g₁ ∧ g₁.world = simulate c t g.world ∧
        g₁.net = { g.net with packetTries := k + 1 } ∧ g₁.levelCalls = g.levelCalls := by
    rw [hrecv]
    exact ⟨_, if_pos (Or.inr h.state), rfl, rfl, rfl⟩
  obtain ⟨hrest, halive, henemy⟩ := simulate_silent c h t
  have hstate : (simulate c t g.world).state = .mpGame := (state_simulate c t g.world).trans h.state
  rw [← hworld] at hrest halive henemy hstate
  -- the packet of the tick is sent, and the gun menu closed if it was open
  obtain ⟨cs, hsend⟩ := sendStage_eq g₁
  have hdisplay :=
    display_resting c (g := { g₁ with net := { g₁.net with calls := cs } }) hstate hrest
  rw [← hsend] at hdisplay
  obtain ⟨m, hdisplay⟩ := hdisplay
  have hbefore : beforeUpdate c t g =
      .ok (resetPlayerMouseMovm ((sendStage g₁).inWorld fun w => { w with invMenu := m })) := by
    unfold beforeUpdate
    rw [hplay, ← hdisplay]
    rfl
  refine ⟨_, hbefore, ?_, ?_⟩
  · rw [hsend, hnet]
    exact ⟨hstate, h.net, h.inFifo, rfl, ⟨hrest.type, hrest.lb, hrest.mouseState,
      hrest.lbSingleTap, hrest.lbHeldDown, hrest.gunMenu⟩, halive, henemy⟩
  · rw [hsend]
    exact hcalls

theorem gameHandler_silent (h : Silent k g) (hk : k + 1 ≤ uartPacketTries) (t : Tick K) :
    ∃ g', gameHandler c t g = .ok g' ∧ Silent (k + 1) g' ∧ g'.levelCalls = g.levelCalls := by
  obtain ⟨b, hbefore, hsilent, hcalls⟩ := beforeUpdate_silent c h hk t
  have halive : ¬ b.mpDeath := fun hd => hd.elim hsilent.alive.not_ge hsilent.enemy.not_ge
  refine ⟨b, ?_, hsilent, hcalls⟩
  unfold gameHandler
  rw [hbefore]
  exact congrArg Except.ok (updateGameState_alive hsilent.state halive)

theorem Silent.clock (h : Silent k g) : Silent k (timerIntHandler g) :=
  ⟨h.state, h.net, h.inFifo, h.tries, h.player, h.alive, h.enemy⟩

/-- The ticks before the other peer is given up. -/
theorem silent_run (h : Silent 0 g) (ts : List (Tick K)) (hts : ts.length ≤ uartPacketTries) :
    ∃ g', (gameMachine c).run g (ts.map .tick) = some g' ∧ Silent ts.length g' ∧
      g'.levelCalls = g.levelCalls := by
  induction ts using List.reverseRecOn with
  | nil => exact ⟨g, rfl, h, rfl⟩
  | append_singleton ts t ih =>
    rw [List.length_append, List.length_singleton] at hts ⊢
    obtain ⟨g₁, hrun, hsilent, hcalls⟩ := ih (Nat.le_of_succ_le hts)
    obtain ⟨g₂, hg₂, hsilent', hcalls'⟩ := gameHandler_silent c hsilent.clock hts t
    have hstep := step_tick c (by simp [hsilent.state]) hg₂
    refine ⟨g₂, ?_, hsilent', hcalls'.trans hcalls⟩
    rw [List.map_append, Machine.run_append_eq_some]
    exact ⟨g₁, hrun, Machine.run_cons_eq_some.mpr ⟨g₂, hstep, rfl⟩⟩

/-- **A silent game is given up.**  After a silence of 480 ticks the next one
leads to the disconnect screen, with the network in `DISCONNECTED`, and no call of
the level manager is made. -/
theorem silent_disconnect (h : Silent 0 g) (ts : List (Tick K)) (t : Tick K)
    (hts : ts.length = uartPacketTries) :
    ∃ g', (gameMachine c).run g (ts.map .tick ++ [.tick t]) = some g' ∧ g'.state = .disconnect ∧
      g'.net.state = .disconnected ∧ g'.levelCalls = g.levelCalls := by
  obtain ⟨g₁, hrun, hsilent, hcalls⟩ := silent_run c h ts (Nat.le_of_eq hts)
  obtain ⟨g₂, hg₂, hstate, hnet, hcalls'⟩ :=
    gameHandler_timeout c hsilent.clock (by rw [hts]; exact Nat.lt_succ_self _) t
  have hstep := step_tick c (by simp [hsilent.state]) hg₂
  refine ⟨g₂, ?_, hstate, hnet, hcalls'.trans hcalls⟩
  rw [Machine.run_append_eq_some]
  exact ⟨g₁, hrun, Machine.run_cons_eq_some.mpr ⟨g₂, hstep, rfl⟩⟩

end Model

end OperationMinix
