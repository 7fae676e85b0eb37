import OperationMinix.Game.Silence
import OperationMinix.Networking.Transport

/-!
# Levels and sessions

Two disciplines of the game manager, both over every order of interrupts.

A level is loaded only while none is, and freed only while one is.  Six places
free a level and four load one; the invariant is that the state of the game says
whether a level is loaded.  Two moves break it: a timeout leaves the level behind
on the disconnect screen, and a death in the multiplayer game frees it twice.

The multiplayer menu is only ever entered with the network in a state from which
`uart_sync` goes on.  Again the state of the game says what the network may be in,
and again two moves break it: the timeout, after which nothing resets the
network, and the button of the menu itself, which leaves it in `INIT`.

## Main definitions

* `levelStatus` — the calls of the level manager, checked one by one.
* `KeepsLevels`, `KeepsSession` — the steps that keep each discipline.

## Main results

* `level_discipline` — **`load_level` and `free_level` alternate**.
* `session_startable` — **a session can be started from the multiplayer menu**.
-/

namespace OperationMinix

open Runs

/-! ### Loading and freeing -/

/-- What a call makes of the level: `some true` when it is loaded, `none` once
the discipline is broken. -/
def levelStep : Option Bool → LevelCall → Option Bool
  | some false, .load 0 0 => some true
  | some true, .free => some false
  | _, _ => none

/-- Whether a level is loaded after some calls; `none` when they do not
alternate, or a level was loaded over enemies or pickups of another. -/
def levelStatus (cs : List LevelCall) : Option Bool := cs.foldl levelStep (some false)

/-- The calls alternate, starting with `load_level`, and each level is loaded
into an empty world. -/
def LevelsAlternate (cs : List LevelCall) : Prop := (levelStatus cs).isSome

theorem levelStatus_append (cs : List LevelCall) (x : LevelCall) :
    levelStatus (cs ++ [x]) = levelStep (levelStatus cs) x := by
  rw [levelStatus, List.foldl_append]
  rfl

/-- A discipline that is broken stays broken. -/
theorem foldl_levelStep_none (cs : List LevelCall) : cs.foldl levelStep none = none := by
  induction cs with
  | nil => rfl
  | cons x cs ih => exact ih

/-- The states of the game in which a level is loaded. -/
def holdsLevel : GameState → Bool
  | .game => true
  | .mpGame => true
  | .endSGame => true
  | .endMGame => true
  | _ => false

theorem holdsLevel_clicks {s s' : GameState} (h : s' ∈ clicks s) :
    holdsLevel s' = holdsLevel s ∧ s' ≠ .mpGame := by
  cases s <;> cases s' <;> revert h <;> decide

theorem holdsLevel_levelEnds {s s' : GameState} (h : s' ∈ levelEnds s) :
    holdsLevel s = true ∧ holdsLevel s' = false := by
  cases s <;> cases s' <;> revert h <;> decide

/-- The state of the game says whether a level is loaded, and a multiplayer game
is only ever played over a connection. -/
structure LevelInv (f : Flow) : Prop where
  status : levelStatus f.calls = some (holdsLevel f.state)
  empty : holdsLevel f.state = false → f.enemies = 0 ∧ f.pickups = 0
  link : f.state = .mpGame → f.net = .connected

namespace LevelInv

variable {f : Flow} {s : GameState}

/-- Loading a level while none is loaded. -/
theorem load (h : LevelInv f) (hf : holdsLevel f.state = false) (hs : holdsLevel s = true)
    (x : NetworkState) (hx : s = .mpGame → x = .connected) (e p : ℕ) :
    LevelInv { f.load s e p with net := x } := by
  obtain ⟨he, hp⟩ := h.empty hf
  refine ⟨?_, fun hs' => ?_, hx⟩
  · show levelStatus (f.calls ++ [.load f.enemies f.pickups]) = some (holdsLevel s)
    rw [levelStatus_append, h.status, hf, he, hp, hs]
    rfl
  · exact absurd (hs.symm.trans hs') (by decide)

/-- Freeing the level that is loaded. -/
theorem free (h : LevelInv f) (hf : holdsLevel f.state = true) (hs : holdsLevel s = false)
    (x : NetworkState) : LevelInv { f.free s with net := x } := by
  refine ⟨?_, fun _ => ⟨rfl, rfl⟩, fun hmp => ?_⟩
  · show levelStatus (f.calls ++ [.free]) = some (holdsLevel s)
    rw [levelStatus_append, h.status, hf, hs]
    rfl
  · have hmp' : s = .mpGame := hmp
    rw [hmp'] at hs
    cases hs

/-- A move between two screens that agree on the level. -/
theorem turn (h : LevelInv f) (hs : holdsLevel s = holdsLevel f.state) (x : NetworkState)
    (hx : s = .mpGame → x = .connected) : LevelInv { f with state := s, net := x } :=
  ⟨h.status.trans (congrArg some hs.symm), fun h' => h.empty (hs.symm.trans h'), hx⟩

/-- **One move**, other than a timeout or a death. -/
theorem move {k : MoveKind} {f' : Flow} (hk : k ≠ .timeout ∧ k ≠ .death) (h : Move k f f')
    (hf : LevelInv f) : LevelInv f' := by
  cases h with
  | play hst e p =>
    have hholds : holdsLevel f.state = true := by
      rcases hst with hst | hst <;> rw [hst] <;> rfl
    exact ⟨hf.status, fun h' => absurd (hholds.symm.trans h') (by decide), hf.link⟩
  | sync hst => exact hf.turn rfl _ fun h' => absurd (hst.symm.trans h') (by decide)
  | connect hst e p => exact hf.load (by rw [hst]; rfl) rfl _ (fun _ => rfl) e p
  | giveUp hst => exact hf.turn (by rw [hst]; rfl) _ (by decide)
  | remoteResult hst hs =>
    refine hf.free (by rw [hst]; rfl) ?_ _
    simp only [List.mem_cons, List.not_mem_nil, or_false] at hs
    rcases hs with rfl | rfl <;> rfl
  | stale hst hn =>
    rw [hf.link hst] at hn
    cases hn
  | timeout hst => exact absurd rfl hk.1
  | click hs =>
    obtain ⟨hholds, hmp⟩ := holdsLevel_clicks hs
    exact hf.turn hholds _ fun h' => absurd h' hmp
  | leaveLobby hst => exact hf.turn (by rw [hst]; rfl) _ (by decide)
  | start hst e p =>
    refine hf.load (s := .game) ?_ rfl _ nofun e p
    simp only [List.mem_cons, List.not_mem_nil, or_false] at hst
    rcases hst with hst | hst | hst <;> rw [hst] <;> rfl
  | endLevel hs =>
    obtain ⟨hholds, hs'⟩ := holdsLevel_levelEnds hs
    exact hf.free hholds hs' _
  | quit hst => exact hf.free (by rw [hst]; rfl) rfl _
  | death hst => exact absurd rfl hk.2

end LevelInv

/-! ### The network behind the screens -/

/-- The states the network may be in, by the state of the game. -/
def netStates : GameState → List NetworkState
  | .mpMenu => [.cleanup, .waiting, .linked]
  | .mpGame => [.connected]
  | .endMGame => [.connected]
  | .disconnect => []
  | _ => [.cleanup]

/-- The state of the game says what the network may be in. -/
def SessionInv (f : Flow) : Prop := f.net ∈ netStates f.state

namespace SessionInv

theorem netStates_clicks {s s' : GameState} (h : s' ∈ clicks s) : netStates s ⊆ netStates s' := by
  cases s <;> cases s' <;> revert h <;> decide

/-- **One move**, other than a timeout or leaving the menu. -/
theorem move {k : MoveKind} {f f' : Flow} (hk : k ≠ .timeout ∧ k ≠ .leaveLobby) (h : Move k f f')
    (hf : SessionInv f) : SessionInv f' := by
  unfold SessionInv at hf ⊢
  cases h with
  | play hst e p => exact hf
  | @sync _ x hst hc hi hd =>
    rw [hst] at hf ⊢
    -- the handshake did not disconnect, because the network was not before
    have hx : x ≠ .disconnected := by
      intro hx
      rw [hd hx] at hf
      simp [netStates] at hf
    cases x <;> simp_all [netStates]
  | connect hst e p => exact List.mem_singleton_self _
  | giveUp hst => exact List.mem_singleton_self _
  | remoteResult hst hs =>
    simp only [List.mem_cons, List.not_mem_nil, or_false] at hs
    rcases hs with rfl | rfl <;> exact List.mem_singleton_self _
  | stale hst hn =>
    rw [hst, hn] at hf
    simp [netStates] at hf
  | timeout hst => exact absurd rfl hk.1
  | click hs => exact netStates_clicks hs hf
  | leaveLobby hst => exact absurd rfl hk.2
  | start hst e p =>
    simp only [List.mem_cons, List.not_mem_nil, or_false] at hst
    rcases hst with hst | hst | hst <;> rw [hst] at hf <;> exact hf
  | @endLevel _ s hs =>
    cases hst : f.state <;> rw [hst] at hf hs <;> simp [levelEnds] at hs
    · rcases hs with rfl | rfl <;> exact hf
    · rw [hs]
      exact hf
  | quit hst => exact List.mem_singleton_self _
  | death hst hs =>
    simp only [List.mem_cons, List.not_mem_nil, or_false] at hs
    rcases hs with rfl | rfl <;> exact List.mem_singleton_self _

end SessionInv

section Model

variable {K : Type*} [Field K] [LinearOrder K] [FloorRing K] (c : Setting K)

/-! ### Every run -/

/-- The step neither gives the other peer up in the middle of a game nor finds a
dead player in a multiplayer game. -/
def KeepsLevels (g : Game K) : GameInput K → Prop
  | .tick t => ¬ LosesLink g ∧ ¬ DiesInMp c t (timerIntHandler g)
  | _ => True

/-- The step neither gives the other peer up in the middle of a game nor leaves
the multiplayer menu through its button. -/
def KeepsSession (g : Game K) : GameInput K → Prop
  | .tick t => ¬ LosesLink g ∧ ¬ LeavesLobby c t g
  | _ => True

instance (g : Game K) : ∀ i : GameInput K, Decidable (KeepsLevels c g i)
  | .tick t => inferInstanceAs (Decidable (¬ LosesLink g ∧ ¬ DiesInMp c t (timerIntHandler g)))
  | .mouse _ _ _ => isTrue trivial
  | .kbd _ => isTrue trivial
  | .recv _ => isTrue trivial
  | .rtc _ => isTrue trivial

instance (g : Game K) : ∀ i : GameInput K, Decidable (KeepsSession c g i)
  | .tick t => inferInstanceAs (Decidable (¬ LosesLink g ∧ ¬ LeavesLobby c t g))
  | .mouse _ _ _ => isTrue trivial
  | .kbd _ => isTrue trivial
  | .recv _ => isTrue trivial
  | .rtc _ => isTrue trivial

variable {c}

theorem LevelInv.step (hmaps : ∀ k, (c.maps k).isSome) {g g' : Game K} {i : GameInput K}
    (hg : LevelInv g.flow) (hi : KeepsLevels c g i) (h : (gameMachine c).step g i = some g') :
    LevelInv g'.flow := by
  have hmoves : Moves (fun k => k ≠ .timeout ∧ k ≠ .death) g.flow g'.flow := by
    refine moves_gameMachine c (by decide) hmaps ?_ (fun _ _ _ => by decide) ?_ h
    · rintro t rfl hlose
      exact absurd hlose hi.1
    · rintro t rfl hdies
      exact absurd hdies hi.2
  exact hmoves.invariant (fun k f f' hk hm hf => hf.move hk hm) hg

theorem SessionInv.step (hmaps : ∀ k, (c.maps k).isSome) {g g' : Game K} {i : GameInput K}
    (hg : SessionInv g.flow) (hi : KeepsSession c g i) (h : (gameMachine c).step g i = some g') :
    SessionInv g'.flow := by
  have hmoves : Moves (fun k => k ≠ .timeout ∧ k ≠ .leaveLobby) g.flow g'.flow := by
    refine moves_gameMachine c (by decide) hmaps ?_ ?_ (fun _ _ _ => by decide) h
    · rintro t rfl hlose
      exact absurd hlose hi.1
    · rintro t rfl hleave
      exact absurd hleave hi.2
  exact hmoves.invariant (fun k f f' hk hm hf => SessionInv.move hk hm hf) hg

/-- **Level discipline.**  In every run that neither times out in the middle of a
game nor finds a dead player in a multiplayer game, `load_level` and `free_level`
alternate, starting with `load_level`, and each level is loaded into a world
without enemies and pickups. -/
theorem level_discipline (hmaps : ∀ k, (c.maps k).isSome) (w : World K) (rtc : Rtc)
    (is : List (GameInput K)) (hC : (gameMachine c).Along (KeepsLevels c) (Game.start w rtc) is)
    {g : Game K} (hg : (gameMachine c).run (Game.start w rtc) is = some g) :
    LevelsAlternate g.levelCalls := by
  have hstart : LevelInv (Game.start w rtc).flow := ⟨rfl, fun _ => ⟨rfl, rfl⟩, nofun⟩
  have hinv := Machine.run_invariant (J := fun g => LevelInv g.flow)
    (fun g i g' hg hi h => LevelInv.step hmaps hg hi h) is _ g hstart hC hg
  have hstatus : levelStatus g.levelCalls = some (holdsLevel g.state) := hinv.status
  rw [LevelsAlternate, hstatus]
  rfl

/-- **A death breaks the discipline at once**: the level of a multiplayer game with
a dead player is freed twice. -/
theorem not_levelsAlternate_of_diesInMp (hmaps : ∀ k, (c.maps k).isSome) {g g' : Game K}
    {t : Tick K} (hg : LevelInv g.flow) (hlink : ¬ LosesLink g)
    (hdies : DiesInMp c t (timerIntHandler g))
    (h : (gameMachine c).step g (.tick t) = some g') : ¬ LevelsAlternate g'.levelCalls := by
  obtain ⟨b, hb, hst, hdeath⟩ := hdies
  have hmoves : Moves (fun k => k ≠ .timeout ∧ k ≠ .death) g.flow b.flow :=
    moves_beforeUpdate c (by decide) hmaps (g := timerIntHandler g)
      (fun hlose => absurd hlose hlink) (fun _ => by decide) hb
  have hinv : LevelInv b.flow := hmoves.invariant (fun k f f' hk hm hf => hf.move hk hm) hg
  have hstatus : levelStatus b.levelCalls = some true := by
    rw [show b.levelCalls = b.flow.calls from rfl, hinv.status,
      show b.flow.state = .mpGame from hst]
    rfl
  have hstep : g' = updateGameState b := by
    have htick : gameHandler c t (timerIntHandler g) = .ok (updateGameState b) := by
      unfold gameHandler
      rw [hb]
      rfl
    by_cases hexit : g.state = .exit
    · simp only [gameMachine, if_pos hexit] at h
      cases h
    · rw [step_tick c hexit htick] at h
      exact (Option.some.inj h).symm
  have hcalls : g'.levelCalls = b.levelCalls ++ [.free] ++ [.free] := by
    rw [hstep, updateGameState_dead hst hdeath]
    split <;> rfl
  rw [LevelsAlternate, hcalls, levelStatus_append, levelStatus_append, hstatus]
  simp [levelStep]

/-- **A session can be started.**  In every run that neither times out in the
middle of a game nor leaves the multiplayer menu through its button, the menu is
only ever shown with the network in a state of the handshake, so that `uart_sync`
makes a step. -/
theorem session_startable (hmaps : ∀ k, (c.maps k).isSome) (w : World K) (rtc : Rtc)
    (is : List (GameInput K)) (hC : (gameMachine c).Along (KeepsSession c) (Game.start w rtc) is)
    {g : Game K} (hg : (gameMachine c).run (Game.start w rtc) is = some g)
    (hmenu : g.state = .mpMenu) :
    (g.net.state = .cleanup ∨ g.net.state = .waiting ∨ g.net.state = .linked) ∧
      ∀ polls, uartSync polls g.net ≠ .ok g.net := by
  have hstart : SessionInv (Game.start w rtc).flow := List.mem_singleton_self _
  have hinv := Machine.run_invariant (J := fun g => SessionInv g.flow)
    (fun g i g' hg hi h => SessionInv.step hmaps hg hi h) is _ g hstart hC hg
  have hstates : g.net.state ∈ netStates .mpMenu := by
    rw [← hmenu]
    exact hinv
  simp only [netStates, List.mem_cons, List.not_mem_nil, or_false] at hstates
  exact ⟨hstates, fun polls => uartSync_ne polls hstates⟩

end Model

/-! ### Leaving the multiplayer menu -/

/-- The screen of `1152` by `864` pixels with its buttons of `400` by `130`. -/
def screenLayout : Button → Vec ℚ × Vec ℚ
  | .single => (⟨376, 200⟩, ⟨400, 130⟩)
  | .multi => (⟨376, 400⟩, ⟨400, 130⟩)
  | .exitMain => (⟨740, 685⟩, ⟨400, 130⟩)
  | .exitScreen => (⟨376, 700⟩, ⟨400, 130⟩)
  | .restart => (⟨376, 450⟩, ⟨400, 130⟩)
  | .next => (⟨376, 450⟩, ⟨400, 130⟩)
  | .corner => (⟨0, 0⟩, ⟨400, 130⟩)
  | .gun i => (⟨284 + 200 * i, 250⟩, ⟨150, 75⟩)
  | .exitGame => (⟨742, 18⟩, ⟨400, 130⟩)

/-- A level of 20 lines and 42 columns with walls around it. -/
def arena : GameMap :=
  { matrix := List.replicate 42 5 ::
      List.replicate 18 (5 :: List.replicate 40 0 ++ [5]) ++ [List.replicate 42 5]
    lines := 20, columns := 42 }

/-- The three levels are there, and a shot meets nothing. -/
def scene : Setting ℚ :=
  { openField with
    fov := 66, maps := fun _ => some arena, layout := screenLayout, middle := ⟨576, 432⟩
    slot := { details := .ammo 0 0, pickedUp := false, collider := ⟨⟨0, 0⟩, 0⟩
              animation := pickupAnimation (.ammo 0 0) } }

/-- The program at its start. -/
def sceneStart : Game ℚ := Game.start emptyWorld { regA := 0, regB := 0, pieState := 0 }

/-- A tick on a silent line. -/
def silentTick : GameInput ℚ :=
  .tick { polls := List.replicate uartMaxTries .empty, bots := fun _ => none }

/-- The middle of a button. -/
def middleOf (b : Button) : Vec ℚ := ⟨(screenLayout b).1.x + 200, (screenLayout b).1.y + 65⟩

/-- A click in the middle of a button, and the tick that sees it. -/
def clickOn (b : Button) : List (GameInput ℚ) := [.mouse (middleOf b) true 0, silentTick]

/-- The gun menu is opened, and its exit button tapped. -/
def quitGame : List (GameInput ℚ) :=
  [.kbd { (Controls.zero : Controls ℚ).kbdState with gunMenu := true }, silentTick,
    .mouse (middleOf .exitGame) true 0, silentTick]

example : ((gameMachine scene).run sceneStart (clickOn .single ++ quitGame)).map Game.state =
    some .mainMenu := by decide +kernel

/-- The multiplayer menu is entered. -/
theorem session_startable_lobby :
    ∃ g, (gameMachine scene).run sceneStart (clickOn .multi) = some g ∧ g.state = .mpMenu ∧
      (g.net.state = .cleanup ∨ g.net.state = .waiting ∨ g.net.state = .linked) ∧
        ∀ polls, uartSync polls g.net ≠ .ok g.net := by
  obtain ⟨g, hg⟩ : ∃ g, (gameMachine scene).run sceneStart (clickOn .multi) = some g :=
    Option.isSome_iff_exists.mp (by decide +kernel)
  have hst : ((gameMachine scene).run sceneStart (clickOn .multi)).map Game.state =
      some .mpMenu := by decide +kernel
  rw [hg] at hst
  have hmenu : g.state = .mpMenu := Option.some.inj hst
  exact ⟨g, hg, hmenu, session_startable (fun _ => rfl) emptyWorld _ (clickOn .multi)
    (by decide +kernel) hg hmenu⟩

/-! ### A game that was given up -/

/-- A single player level is started, left through the gun menu, and started again. -/
theorem level_discipline_single :
    ∃ g, (gameMachine scene).run sceneStart
        (clickOn .single ++ quitGame ++ clickOn .single) = some g ∧
      g.levelCalls = [.load 0 0, .free, .load 0 0] ∧ LevelsAlternate g.levelCalls := by
  have hcalls : ((gameMachine scene).run sceneStart
      (clickOn .single ++ quitGame ++ clickOn .single)).map Game.levelCalls =
        some [.load 0 0, .free, .load 0 0] := by decide +kernel
  obtain ⟨g, hg, hcalls⟩ := Option.map_eq_some_iff.mp hcalls
  exact ⟨g, hg, hcalls, level_discipline (fun _ => rfl) emptyWorld _
    (clickOn .single ++ quitGame ++ clickOn .single) (by decide +kernel) hg⟩

/-- The letters of the peer that asks to be let in: the password, and the
acknowledgements of the answer to it. -/
def peerLetters : List Byte :=
  uartSyncPassword.take uartPasswordSize ++ uartGetResponse ::
    List.replicate uartPasswordSize uartAck

/-- The multiplayer menu is entered, and the handshake runs to its end. -/
def joinGame : List (GameInput ℚ) :=
  clickOn .multi ++ silentTick :: peerLetters.flatMap fun b => [.recv (entry b), silentTick]

example : ((gameMachine scene).run sceneStart joinGame).map Game.state = some .mpGame := by
  decide +kernel

/-- The game is joined, the line falls silent until the other peer is given up,
and the disconnect screen is left. -/
def givenUp : List (GameInput ℚ) :=
  joinGame ++ (List.replicate uartPacketTries silentTick ++ [silentTick]) ++ clickOn .exitScreen

/-- The game that has just been joined is silent. -/
theorem silent_joinGame :
    ∃ g, (gameMachine scene).run sceneStart joinGame = some g ∧ Silent 0 g ∧
      g.levelCalls = [.load 0 0] := by
  have hlook : ((gameMachine scene).run sceneStart joinGame).map (fun g => decide
      ((g.state = .mpGame ∧ g.net.state = .connected ∧ g.net.inFifo = [] ∧
          g.net.packetTries = 0 ∧ g.levelCalls = [.load 0 0]) ∧
        (g.world.player.type = .player ∧ g.world.player.health = 100 ∧
          (g.world.get (.enemy 0)).health = 100) ∧
        g.world.player.movm.lb = false ∧ g.world.player.movm.mouseState = .keyUp ∧
          g.world.player.movm.lbSingleTap = false ∧ g.world.player.movm.lbHeldDown = false ∧
            g.world.player.movm.kbdState.gunMenu = false)) = some true := by
    decide +kernel
  obtain ⟨g, hg, hlook⟩ := Option.map_eq_some_iff.mp hlook
  obtain ⟨⟨hstate, hnet, hin, htries, hcalls⟩, ⟨htype, hhealth, henemy⟩,
    hlb, hmouse, htap, hheld, hmenu⟩ := of_decide_eq_true hlook
  exact ⟨g, hg, ⟨hstate, hnet, hin, htries, ⟨htype, hlb, hmouse, htap, hheld, hmenu⟩,
    by simp [hhealth], by simp [henemy]⟩, hcalls⟩

/-- The calls of the level manager are not forgotten. -/
theorem levelCalls_updateGameState {K : Type*} [Field K] [LinearOrder K] [FloorRing K]
    (g : Game K) : ∃ cs, (updateGameState g).levelCalls = g.levelCalls ++ cs := by
  have hnil : g.levelCalls = g.levelCalls ++ [] := (List.append_nil _).symm
  unfold updateGameState
  split
  · split_ifs
    · exact ⟨[.free], rfl⟩
    · exact ⟨[.free], rfl⟩
    · exact ⟨[], hnil⟩
  · dsimp only
    split_ifs
    · exact ⟨[.free, .free], List.append_assoc _ _ _⟩
    · exact ⟨[.free, .free], List.append_assoc _ _ _⟩
    · exact ⟨[], hnil⟩
  · exact ⟨[.free], rfl⟩
  · exact ⟨[.free], rfl⟩
  · exact ⟨[], hnil⟩

/-- The program when the tick of a click begins. -/
def clicked (b : Button) (g : Game ℚ) : Game ℚ :=
  timerIntHandler (mouseParseData (middleOf b) true 0 g)

/-- A click on a screen without a game. -/
theorem run_clickOn {g : Game ℚ} (b : Button)
    (hst : g.state ∈ [GameState.mainMenu, .winGame, .loseGame, .disconnect]) :
    (gameMachine scene).run g (clickOn b) =
      some (updateGameState (resetPlayerMouseMovm (display scene (clicked b g)))) := by
  have hexit : g.state ≠ .exit := by
    intro h
    rw [h] at hst
    simp at hst
  have hmouse : (gameMachine scene).step g (.mouse (middleOf b) true 0) =
      some (mouseParseData (middleOf b) true 0 g) := by
    simp only [gameMachine, if_neg hexit]
  have htick := step_tick scene (g := mouseParseData (middleOf b) true 0 g) hexit
    (gameHandler_screen scene (t := { polls := List.replicate uartMaxTries .empty
                                      bots := fun _ => none }) hst)
  exact Machine.run_cons_eq_some.mpr ⟨_, hmouse, Machine.run_cons_eq_some.mpr ⟨_, htick, rfl⟩⟩

/-- The middle of a button lies on the button. -/
theorem mouseOver_clicked {b : Button} (hb : b ∈ [Button.exitScreen, .single, .multi])
    (g : Game ℚ) :
    ((clicked b g).inControls fun m => { m with lbHeldDown := false }).mouseOver scene b =
      true := by
  have hover : msDetectCollision (middleOf b) (screenLayout b).1 (screenLayout b).2 = true := by
    simp only [List.mem_cons, List.not_mem_nil, or_false] at hb
    rcases hb with rfl | rfl | rfl <;> norm_num [msDetectCollision, middleOf, screenLayout]
  exact hover

/-- The disconnect screen is left through its button. -/
theorem display_exitScreen {g : Game ℚ} (hg : g.state = .disconnect) :
    (display scene (clicked .exitScreen g)).flow = { g.flow with state := .mainMenu } := by
  have hst : (clicked .exitScreen g).state = .disconnect := hg
  unfold display
  rw [hst]
  show (renderDisconnectScreen scene (clicked .exitScreen g)).flow = _
  unfold renderDisconnectScreen onClick
  rw [if_pos (show (clicked .exitScreen g).world.player.movm.lbHeldDown = true from rfl)]
  dsimp only
  rw [if_pos (mouseOver_clicked (by simp) g)]
  rfl

/-- A single player level is started from the main menu. -/
theorem display_single {g : Game ℚ} (hg : g.state = .mainMenu) :
    ∃ e p, (display scene (clicked .single g)).flow = g.flow.load .game e p := by
  have hst : (clicked .single g).state = .mainMenu := hg
  unfold display
  rw [hst]
  show ∃ e p, (renderMenu scene (clicked .single g)).flow = _
  unfold renderMenu onClick
  rw [if_pos (show (clicked .single g).world.player.movm.lbHeldDown = true from rfl)]
  dsimp only
  rw [if_pos (mouseOver_clicked (by simp) g)]
  exact flow_gmInitGame scene rfl 1 1 _

/-- The multiplayer menu is entered from the main menu. -/
theorem display_multi {g : Game ℚ} (hg : g.state = .mainMenu) :
    (display scene (clicked .multi g)).flow = { g.flow with state := .mpMenu } := by
  have hst : (clicked .multi g).state = .mainMenu := hg
  have hsingle : ((clicked .multi g).inControls fun m =>
      { m with lbHeldDown := false }).mouseOver scene .single ≠ true := by
    have hmiss : msDetectCollision (middleOf .multi) (screenLayout .single).1
        (screenLayout .single).2 ≠ true := by
      norm_num [msDetectCollision, middleOf, screenLayout]
    exact hmiss
  unfold display
  rw [hst]
  show (renderMenu scene (clicked .multi g)).flow = _
  unfold renderMenu onClick
  rw [if_pos (show (clicked .multi g).world.player.movm.lbHeldDown = true from rfl)]
  dsimp only
  rw [if_neg hsingle, if_pos (mouseOver_clicked (by simp) g)]
  rfl

/-- The main menu is reached with the level of the game still loaded, and with the
network in `DISCONNECTED`. -/
theorem run_givenUp : ∃ g, (gameMachine scene).run sceneStart givenUp = some g ∧
    g.state = .mainMenu ∧ g.net.state = .disconnected ∧ g.levelCalls = [.load 0 0] := by
  obtain ⟨g₁, hrun₁, hsilent, hcalls₁⟩ := silent_joinGame
  obtain ⟨g₂, hrun₂, hst₂, hnet₂, hcalls₂⟩ := silent_disconnect scene hsilent
    (List.replicate uartPacketTries { polls := List.replicate uartMaxTries .empty
                                      bots := fun _ => none }) _ (List.length_replicate ..)
  have hrun₃ := run_clickOn .exitScreen (g := g₂) (by rw [hst₂]; simp)
  have hflow : (resetPlayerMouseMovm (display scene (clicked .exitScreen g₂))).flow =
      { g₂.flow with state := .mainMenu } := display_exitScreen hst₂
  generalize resetPlayerMouseMovm (display scene (clicked .exitScreen g₂)) = g₃ at hrun₃ hflow
  have hst₃ : g₃.state = .mainMenu := congrArg Flow.state hflow
  have hupdate : updateGameState g₃ = g₃ := by
    unfold updateGameState
    rw [hst₃]
  rw [hupdate] at hrun₃
  refine ⟨g₃, ?_, hst₃, (congrArg Flow.net hflow).trans hnet₂,
    (congrArg Flow.calls hflow).trans (hcalls₂.trans hcalls₁)⟩
  rw [List.map_replicate] at hrun₂
  rw [givenUp, Machine.run_append_eq_some]
  exact ⟨g₂, Machine.run_append_eq_some.mpr ⟨g₁, hrun₁, hrun₂⟩, hrun₃⟩

/-- The level of the game that was given up is still loaded when a single player
level is started. -/
theorem not_level_discipline_leaked :
    ∃ g, (gameMachine scene).run sceneStart (givenUp ++ clickOn .single) = some g ∧
      ¬ LevelsAlternate g.levelCalls := by
  obtain ⟨g₁, hrun₁, hst₁, -, hcalls₁⟩ := run_givenUp
  obtain ⟨e, p, hload⟩ := display_single hst₁
  obtain ⟨cs, hcs⟩ := levelCalls_updateGameState
    (resetPlayerMouseMovm (display scene (clicked .single g₁)))
  have hcalls : (resetPlayerMouseMovm (display scene (clicked .single g₁))).levelCalls =
      [.load 0 0] ++ [.load g₁.flow.enemies g₁.flow.pickups] := by
    rw [← hcalls₁]
    exact congrArg Flow.calls hload
  refine ⟨_, Machine.run_append_eq_some.mpr ⟨g₁, hrun₁, run_clickOn .single ?_⟩, ?_⟩
  · rw [hst₁]
    simp
  · -- the second level is loaded over the first
    rw [hcs, hcalls, LevelsAlternate, levelStatus]
    show ¬ (cs.foldl levelStep none).isSome
    rw [foldl_levelStep_none]
    exact nofun

/-- The multiplayer menu is entered with the network in `INIT`, after it was left
through its button, and with the network in `DISCONNECTED`, after a game that was
given up; in neither does `uart_sync` make a step. -/
theorem not_session_startable_again :
    (∃ g, (gameMachine scene).run sceneStart
        (clickOn .multi ++ clickOn .exitScreen ++ clickOn .multi) = some g ∧
      g.state = .mpMenu ∧ g.net.state = .init ∧ ∀ polls, uartSync polls g.net = .ok g.net) ∧
    ∃ g, (gameMachine scene).run sceneStart (givenUp ++ clickOn .multi) = some g ∧
      g.state = .mpMenu ∧ g.net.state = .disconnected ∧
        ∀ polls, uartSync polls g.net = .ok g.net := by
  constructor
  · have hrun : ((gameMachine scene).run sceneStart
        (clickOn .multi ++ clickOn .exitScreen ++ clickOn .multi)).map
          (fun g => (g.state, g.net.state)) = some (.mpMenu, .init) := by decide +kernel
    obtain ⟨g, hg, hst⟩ := Option.map_eq_some_iff.mp hrun
    obtain ⟨hstate, hnet⟩ := Prod.mk.inj hst
    exact ⟨g, hg, hstate, hnet, fun polls => uartSync_idle polls (by simp [hnet])
      (by simp [hnet]) (by simp [hnet])⟩
  · obtain ⟨g₁, hrun₁, hst₁, hnet₁, -⟩ := run_givenUp
    have hrun₂ := run_clickOn .multi (g := g₁) (by rw [hst₁]; simp)
    have hflow : (resetPlayerMouseMovm (display scene (clicked .multi g₁))).flow =
        { g₁.flow with state := .mpMenu } := display_multi hst₁
    generalize resetPlayerMouseMovm (display scene (clicked .multi g₁)) = g₂ at hrun₂ hflow
    have hst₂ : g₂.state = .mpMenu := congrArg Flow.state hflow
    have hnet₂ : g₂.net.state = .disconnected := (congrArg Flow.net hflow).trans hnet₁
    have hupdate : updateGameState g₂ = g₂ := by
      unfold updateGameState
      rw [hst₂]
    rw [hupdate] at hrun₂
    exact ⟨g₂, Machine.run_append_eq_some.mpr ⟨g₁, hrun₁, hrun₂⟩, hst₂, hnet₂,
      fun polls => uartSync_idle polls (by simp [hnet₂]) (by simp [hnet₂])
        (by simp [hnet₂])⟩

end OperationMinix
