import OperationMinix.Game.Flow
import OperationMinix.Networking.Transport

/-!
# One tick of the multiplayer game

What `game_handler` does in `MP_GAME`, as the two peers see it: the frames that
have arrived, the frames that are sent, and how the game is left.  A frame that
announces a result ends the game at once and nothing is sent.  Otherwise the
packet of the tick is sent, and `update_game_state` may find a reason of its own
to end the game, which is then announced to the other peer.

## Main definitions

* `localDecision` — the result `update_game_state` decides on.
* `MpTick` — what a tick can be.

## Main results

* `mpTick_gameHandler` — **every tick of the multiplayer game is one of the
  three**.
-/

namespace OperationMinix

open Runs

set_option linter.unusedSectionVars false

/-! ### Results -/

/-- The screen shown for an announced result. -/
def shownFor : ReceiveResult → GameState
  | .winGameErr => .winGame
  | .loseGameErr => .loseGame
  | .ok => .mpGame

/-- The word that announces to the other peer that this one shows `s`. -/
def announcement : GameState → List Byte
  | .winGame => uartLoseGame
  | .loseGame => uartWinGame
  | _ => []

/-- The results that are announced to the other peer by one that shows `s`. -/
def owed : GameState → List ReceiveResult
  | .winGame => [.loseGameErr]
  | .loseGame => [.winGameErr]
  | _ => []

section Model

variable {K : Type*} [Field K] [LinearOrder K] [FloorRing K] (c : Setting K)

/-- What `update_game_state` decides in a multiplayer game: who quits or is dead
has lost, and who is alive when the other is dead has won. -/
def localDecision (b : Game K) : Option GameState :=
  if b.state = .endMGame then some .loseGame
  else if b.state = .mpGame ∧ b.mpDeath then
    some (if b.world.player.health ≤ 0 then .loseGame else .winGame)
  else none

/-- One of the three guns of the multiplayer game is in hand. -/
def HasGun (p : PlayerInfo K) : Prop := p.gunIndex ∈ [0, 1, 2]

/-! ### The gun in hand -/

theorem HasGun.of_sameControls {p q : PlayerInfo K} (h : SameControls p q) (hp : HasGun p) :
    HasGun q := by
  unfold HasGun
  rw [h.gunIndex]
  exact hp

theorem HasGun.switchGun {i : ℕ} (hi : i ∈ [0, 1, 2]) (p : PlayerInfo K) :
    HasGun (switchGun i p) := by
  unfold OperationMinix.switchGun
  split
  · exact hi
  · next h =>
    rw [not_not] at h
    unfold HasGun
    rw [h]
    exact hi

theorem HasGun.numberKeys {p : PlayerInfo K} (hp : HasGun p) : HasGun (numberKeys p) := by
  unfold OperationMinix.numberKeys
  split
  · exact hp
  · next i hi =>
    refine HasGun.switchGun ?_ _
    have hmem := List.mem_of_find?_eq_some hi
    simp only [List.mem_cons, List.not_mem_nil, or_false] at hmem
    rcases hmem with rfl | rfl | rfl <;> simp

theorem HasGun.steer (l : Libm K) (m : GameMap) {p : PlayerInfo K} (hp : HasGun p) :
    HasGun (steer l m p) := by
  have hmoved : HasGun (move l m (turn l p)) :=
    .of_sameControls (.move l m _) (.of_sameControls (.turn l p) hp)
  by_cases hbot : p.type = .bot
  · unfold OperationMinix.steer
    rw [if_pos (((SameControls.move l m _).type.trans (SameControls.turn l p).type).trans hbot)]
    exact hmoved
  · exact .of_sameControls (sameControls_steer l m hbot) hmoved.numberKeys

/-- A packet does not touch the gun of the local player. -/
theorem hasGun_driveEnemy (pkt : NetworkPacket) {w : World K} (hw : HasGun w.player) :
    HasGun (driveEnemy c pkt w).player :=
  .of_sameControls ((sameControls_playerIntIh c.toEnv (.enemy 0) _).players .player) hw

theorem hasGun_simulate (t : Tick K) {w : World K} (hst : w.state = .mpGame)
    (hw : HasGun w.player) : HasGun (simulate c t w).player := by
  have hplayer : HasGun (playerIntIh c.toEnv .player (handleEnemies t.bots w)).player :=
    .of_sameControls ((sameControls_playerIntIh c.toEnv .player _).players .player)
      (HasGun.steer c.libm _ hw)
  have hgame : (playerIntIh c.toEnv .player (handleEnemies t.bots w)).state ≠ .game := by
    rw [state_playerIntIh]
    show w.state ≠ .game
    rw [hst]
    decide
  unfold simulate
  dsimp only
  rw [if_neg hgame]
  exact hplayer

/-! ### The parts of the tick -/

/-- The multiplayer game goes on, or its end has been asked for; nothing is sent. -/
structure StaysOn (g g' : Game K) : Prop where
  state : g'.state = .mpGame ∨ g'.state = .endMGame
  net : g'.net = g.net
  gun : HasGun g'.world.player

theorem StaysOn.takeGun {g g' : Game K} (h : StaysOn g g') {chosen : Option ℕ}
    (hc : ∀ i, chosen = some i → i ∈ [0, 1, 2]) : StaysOn g (g'.takeGun chosen) := by
  cases chosen with
  | none => exact h
  | some i => exact ⟨h.state, h.net, HasGun.switchGun (hc i rfl) _⟩

theorem chosenGun_mem (g : Game K) (i : ℕ) (hi : chosenGun c g = some i) : i ∈ [0, 1, 2] := by
  have hmem := List.mem_of_find?_eq_some hi
  simp only [List.mem_cons, List.not_mem_nil, or_false] at hmem
  rcases hmem with rfl | rfl | rfl <;> simp

/-- Drawing the game leaves it on, or asks for its end. -/
theorem renderGame_mpGame {g : Game K} (hst : g.state = .mpGame) (hgun : HasGun g.world.player) :
    StaysOn g (renderGame c g) := by
  unfold renderGame
  dsimp only
  split
  · exact ⟨Or.inl hst, rfl, hgun⟩
  · split
    · suffices h : StaysOn g (displayMenu c g) from ⟨h.state, h.net, h.gun⟩
      unfold displayMenu
      dsimp only
      generalize hopen : (if g.world.invMenu = .closed then _ else g) = g₁
      have hg₁ : g₁.state = .mpGame ∧ g₁.net = g.net ∧ HasGun g₁.world.player := by
        rw [← hopen]
        split <;> exact ⟨hst, rfl, hgun⟩
      obtain ⟨hst₁, hnet₁, hgun₁⟩ := hg₁
      split
      · refine StaysOn.takeGun ?_ (chosenGun_mem c _)
        split
        · exact ⟨Or.inr (if_pos hst₁), hnet₁, hgun₁⟩
        · exact ⟨Or.inl hst₁, hnet₁, hgun₁⟩
      · exact ⟨Or.inl hst₁, hnet₁, hgun₁⟩
    · exact ⟨Or.inl hst, rfl, hgun⟩

/-- What `update_game_state` does with its decision. -/
theorem updateGameState_localDecision {b : Game K} (hst : b.state = .mpGame ∨ b.state = .endMGame) :
    (updateGameState b).state = (localDecision b).getD .mpGame ∧
      (updateGameState b).net.calls = b.net.calls ++
        (uartSendString (announcement ((localDecision b).getD .mpGame)) Net.start).calls ∧
      (localDecision b = none → updateGameState b = b) := by
  unfold localDecision
  rcases hst with hst | hst
  · rw [if_neg (by simp [hst])]
    by_cases hdeath : b.mpDeath
    · rw [if_pos ⟨hst, hdeath⟩, updateGameState_dead hst hdeath]
      split <;> exact ⟨rfl, rfl, nofun⟩
    · rw [if_neg fun h => hdeath h.2, updateGameState_alive hst hdeath]
      exact ⟨hst, (List.append_nil _).symm, fun _ => rfl⟩
  · unfold updateGameState
    rw [if_pos hst, hst]
    exact ⟨rfl, rfl, nofun⟩

/-- What a tick of the multiplayer game can be, from the unfinished frame `part`. -/
inductive MpTick (t : Tick K) (part : List Entry) (g g' : Game K) : Prop
  /-- A frame announces a result: it is shown, and nothing is sent. -/
  | remote (res : ReceiveResult) (taken rest : List Entry) (hres : res ≠ .ok)
      (hin : g.net.inFifo = taken ++ rest) (hann : announced (framer.feed part taken).2 = [res])
      (hst : g'.state = shownFor res) (hcalls : g'.net.calls = g.net.calls)
  /-- The other peer is given up: no result is shown, and nothing is sent. -/
  | lost (hst : g'.state = .disconnect ∨ g'.state = .mainMenu)
      (hcalls : g'.net.calls = g.net.calls)
  /-- The packet of the tick is sent, and `update_game_state` decides. -/
  | goesOn (b : Game K) (p : PlayerInfo K) (hb : beforeUpdate c t g = .ok b)
      (hg' : g' = updateGameState b)
      (hann : announced (framer.feed part g.net.inFifo).2 = []) (hin : b.net.inFifo = [])
      (hun : Unfinished b.net (framer.feed part g.net.inFifo).1) (hnet : b.net.state = .connected)
      (hst : b.state = .mpGame ∨ b.state = .endMGame) (hgun : HasGun b.world.player)
      (hp : HasGun p) (hcalls : b.net.calls = g.net.calls ++ (uartSendData p Net.start).calls)

section Cases

variable {c} {t : Tick K} {part : List Entry} {g g' : Game K}

/-- A result that was announced is shown at the end of the tick: the controls have
been reset, so that no click leads on. -/
theorem gameHandler_remote {s : GameState} (hs : s = .winGame ∨ s = .loseGame) {g₀ : Game K}
    (hrecv : receiveStage c g = gmResetMpGame (g₀.setState s)) (h : gameHandler c t g = .ok g') :
    g'.state = s ∧ g'.net.calls = g₀.net.calls := by
  have hstate : (receiveStage c g).state = s := by rw [hrecv]; rfl
  have hdisplay : display c (receiveStage c g) = receiveStage c g := by
    have hrender : renderWinLoseScreen c (receiveStage c g) = receiveStage c g := by
      rw [hrecv]
      rfl
    unfold display
    rw [hstate]
    rcases hs with rfl | rfl <;> exact hrender
  have hupdate : ∀ b : Game K, b.state = s → updateGameState b = b := by
    intro b hb
    unfold updateGameState
    rw [hb]
    rcases hs with rfl | rfl <;> rfl
  unfold gameHandler at h
  rw [beforeUpdate_screen c (by rw [hstate]; rcases hs with rfl | rfl <;> decide)
    (by rw [hstate]; rcases hs with rfl | rfl <;> decide), hdisplay] at h
  cases h
  rw [hupdate (resetPlayerMouseMovm (receiveStage c g)) hstate, hrecv]
  exact ⟨rfl, rfl⟩

/-- A tick that gives the other peer up shows the disconnect screen, or what a
click on it leads to. -/
theorem gameHandler_lost {g₀ : Game K} (hrecv : receiveStage c g = g₀.setState .disconnect)
    (h : gameHandler c t g = .ok g') :
    (g'.state = .disconnect ∨ g'.state = .mainMenu) ∧ g'.net.calls = g₀.net.calls := by
  have hstate : (receiveStage c g).state = .disconnect := by rw [hrecv]; rfl
  unfold gameHandler at h
  rw [beforeUpdate_screen c (by simp [hstate]) (by simp [hstate])] at h
  cases h
  have hdisplay : display c (receiveStage c g) = renderDisconnectScreen c (receiveStage c g) := by
    unfold display
    rw [hstate]
  rw [hdisplay, hrecv]
  unfold renderDisconnectScreen onClick
  split
  · dsimp only
    split
    · exact ⟨Or.inr rfl, rfl⟩
    · exact ⟨Or.inl rfl, rfl⟩
  · exact ⟨Or.inl rfl, rfl⟩

/-- The second half of a tick that goes on, after the players have made theirs. -/
theorem display_goesOn {g₁ : Game K} (hst : g₁.state = .mpGame) (hgun : HasGun g₁.world.player) :
    ∃ b : Game K, resetPlayerMouseMovm (display c (sendStage g₁)) = b ∧
      (b.state = .mpGame ∨ b.state = .endMGame) ∧ HasGun b.world.player ∧
      b.net = uartSendData g₁.world.player g₁.net := by
  have hsend : (sendStage g₁).state = .mpGame ∧ HasGun (sendStage g₁).world.player ∧
      (sendStage g₁).net = uartSendData g₁.world.player g₁.net := by
    unfold sendStage
    rw [if_pos hst]
    exact ⟨hst, hgun, rfl⟩
  generalize sendStage g₁ = g₂ at hsend
  obtain ⟨hst₂, hgun₂, hnet₂⟩ := hsend
  have hdisplay : display c g₂ = renderGame c g₂ := by
    unfold display
    rw [hst₂]
  have hon := renderGame_mpGame c hst₂ hgun₂
  exact ⟨_, rfl, by rw [hdisplay]; exact hon.state, by rw [hdisplay]; exact hon.gun,
    by rw [hdisplay, ← hnet₂]; exact hon.net⟩

/-- A tick that goes on. -/
theorem gameHandler_goesOn {n : Net} {w : World K}
    (hrecv : receiveStage c g = { g with net := n, world := w }) (hw : w.state = .mpGame)
    (hgun : HasGun w.player) (h : gameHandler c t g = .ok g') :
    ∃ (b : Game K) (p : PlayerInfo K), beforeUpdate c t g = .ok b ∧ g' = updateGameState b ∧
      (b.state = .mpGame ∨ b.state = .endMGame) ∧ HasGun b.world.player ∧ HasGun p ∧
      b.net = uartSendData p n := by
  obtain ⟨g₁, hplay, hst₁, hgun₁, hnet₁⟩ : ∃ g₁ : Game K,
      playStage c t (receiveStage c g) = .ok g₁ ∧ g₁.state = .mpGame ∧
        HasGun g₁.world.player ∧ g₁.net = n := by
    rw [hrecv]
    exact ⟨_, if_pos (Or.inr hw), (state_simulate c t w).trans hw, hasGun_simulate c t hw hgun, rfl⟩
  obtain ⟨b, hb, hbst, hbgun, hbnet⟩ := display_goesOn (c := c) hst₁ hgun₁
  have hbefore : beforeUpdate c t g = .ok b := by
    unfold beforeUpdate
    rw [hplay, ← hb]
    rfl
  unfold gameHandler at h
  rw [hbefore] at h
  cases h
  exact ⟨b, g₁.world.player, hbefore, rfl, hbst, hbgun, hgun₁, by rw [hbnet, hnet₁]⟩

/-- **Every tick of the multiplayer game is one of the three.** -/
theorem mpTick_gameHandler (hst : g.state = .mpGame) (hnet : g.net.state = .connected)
    (hgun : HasGun g.world.player) (hun : Unfinished g.net part)
    (h : gameHandler c t g = .ok g') : MpTick c t part g g' := by
  obtain ⟨hw, hgunw⟩ := uartReceiveData_replica (driveEnemy c)
    (P := fun w => w.state = .mpGame ∧ HasGun w.player)
    (fun pkt w hw => ⟨(state_driveEnemy c pkt w).trans hw.1, hasGun_driveEnemy c pkt hw.2⟩) g.net
    (r := g.world) ⟨hst, hgun⟩
  have hstate := uartReceiveData_state (driveEnemy c) g.net g.world
  obtain ⟨⟨taken, hin, hun', hhandled⟩, hok, hcalls⟩ :=
    uartReceiveData_spec (driveEnemy c) hun g.world
  obtain ⟨fs, -, -, hann⟩ := hhandled.packets_announced
  have hrecv : receiveStage c g = _ := if_pos hst
  generalize uartReceiveData (driveEnemy c) g.net g.world = out at *
  obtain ⟨res, n, w⟩ := out
  dsimp only at *
  cases res with
  | winGameErr =>
    obtain ⟨hst', hcalls'⟩ := gameHandler_remote (Or.inl rfl) (hrecv.trans (if_neg nofun)) h
    exact .remote .winGameErr taken n.inFifo nofun hin hann hst' (hcalls'.trans hcalls)
  | loseGameErr =>
    obtain ⟨hst', hcalls'⟩ := gameHandler_remote (Or.inr rfl) (hrecv.trans (if_neg nofun)) h
    exact .remote .loseGameErr taken n.inFifo nofun hin hann hst' (hcalls'.trans hcalls)
  | ok =>
    by_cases hto : TimesOut g.net
    · rw [if_pos hto] at hstate
      obtain ⟨hst', hcalls'⟩ := gameHandler_lost (hrecv.trans (if_pos hstate)) h
      exact .lost hst' (hcalls'.trans hcalls)
    · rw [if_neg hto, hnet] at hstate
      have hempty := hok rfl
      rw [hempty, List.append_nil] at hin
      rw [← hin] at hun' hann
      obtain ⟨b, p, hb, hg', hbst, hbgun, hp, hbnet⟩ :=
        gameHandler_goesOn (hrecv.trans (if_neg (by simp [hstate]))) hw hgunw h
      refine .goesOn b p hb hg' hann ?_ ?_ ?_ hbst hbgun hp ?_
      · rw [hbnet]
        exact hempty
      · rw [hbnet]
        exact hun'.congr rfl rfl
      · rw [hbnet]
        exact hstate
      · rw [hbnet, ← hcalls]
        rfl

end Cases

end Model

end OperationMinix
