import OperationMinix.Game.Round
import OperationMinix.Game.Discipline
import OperationMinix.Runs.Duplex

/-!
# The outcome of a multiplayer game

Two connected peers play over two lossless FIFO channels.  Each decides alone that
the game is over, and announces the result afterwards; until the other has read
the announcement it plays on, and may decide for itself.

A result that is read is always the opposite of the one the other peer shows.  A
result that is decided on is not: two peers that quit, or that each find the
replica of the other dead, show the same one.  The invariant is about what is
under way: towards a peer that plays, whole packets, with the announcement among
them exactly when the other peer has left with a result.

A peer that has left the game stays on the screen it has come to.

## Main definitions

* `Combatant`, `combat` — a peer in the game, and its steps.
* `Clashes` — the decision that the other peer has anticipated.

## Main results

* `outcome_agreement_iff` — **the results are opposite exactly on the runs
  without such a decision.**
-/

namespace OperationMinix

open Runs

set_option linter.unusedSectionVars false

section Model

variable {K : Type*} [Field K] [LinearOrder K] [FloorRing K]

/-! ### The pair -/

/-- A peer: the program, and what it is given. -/
structure Combatant (K : Type*) where
  setting : Setting K
  game : Game K

/-- The program with the driver calls of the steps before forgotten. -/
def Game.quiet (g : Game K) : Game K := { g with net := { g.net with calls := [] } }

/-- A peer in the game: any interrupt but those of the line, which deliver what
the other peer has sent.  Once it has left the game it makes no more steps. -/
def combat : Endpoint (Combatant K) (GameInput K) Byte where
  act x i :=
    if x.game.state = .mpGame then
      match i with
      | .recv _ => none
      | i => ((gameMachine x.setting).step x.game.quiet i).map fun g =>
          ({ x with game := g }, wireBytes g.net.calls)
    else none
  receive x b :=
    { x with game := { x.game with
        net := { x.game.net with inFifo := x.game.net.inFifo ++ [entry b] } } }

/-- The state of the pair. -/
abbrev Duel (K : Type*) := Duplex (Combatant K) Byte

/-- The state of the game on one side. -/
def shows (s : Duel K) (p : Side) : GameState := (s.peer p).game.state

/-- What a peer has not read yet. -/
def unread (s : Duel K) (p : Side) : List Entry :=
  s.pending (fun x => x.game.net.inFifo) entry p

/-- Not both peers have won, and not both have lost. -/
def OppositeResults (s : Duel K) : Prop :=
  ∀ r ∈ [GameState.winGame, .loseGame], ¬ (shows s .left = r ∧ shows s .right = r)

/-- The decision of a peer whose opponent has come to `other` clashes with it: it
quits or is dead while the other has lost already, or finds the other dead that
has won already. -/
def Clashes (other : GameState) (b : Game K) : Prop :=
  (other = .loseGame ∧ (b.state = .endMGame ∨ b.state = .mpGame ∧ b.world.player.health ≤ 0)) ∨
    (other = .winGame ∧ b.state = .mpGame ∧ 0 < b.world.player.health ∧
      (b.world.get (.enemy 0)).health ≤ 0)

/-- The step is not a clashing decision of `update_game_state`. -/
def NoClash (s : Duel K) : Event (GameInput K) → Prop
  | .act p (.tick t) => shows s p = .mpGame →
      ¬ ∃ b, beforeUpdate (s.peer p).setting t (timerIntHandler (s.peer p).game.quiet) = .ok b ∧
        Clashes (shows s p.other) b
  | _ => True

/-- The decision clashes when it is the result the other peer has come to. -/
theorem clashes_iff {other : GameState} {b : Game K}
    (ho : other = .winGame ∨ other = .loseGame) :
    Clashes other b ↔ localDecision b = some other := by
  unfold Clashes localDecision Game.mpDeath
  rcases ho with rfl | rfl
  · by_cases hend : b.state = .endMGame
    · simp [hend]
    · by_cases hmp : b.state = .mpGame
      · by_cases hdead : b.world.player.health ≤ 0
        · simp [hmp, hdead, not_lt.mpr hdead]
        · simp [hmp, hdead, not_le.mp hdead]
      · simp [hend, hmp]
  · by_cases hend : b.state = .endMGame
    · simp [hend]
    · by_cases hmp : b.state = .mpGame
      · by_cases hdead : b.world.player.health ≤ 0
        · simp [hmp, hdead]
        · simp [hmp, hdead]
      · simp [hend, hmp]

theorem localDecision_mem (b : Game K) :
    (localDecision b).getD .mpGame ∈ [GameState.mpGame, .winGame, .loseGame] := by
  unfold localDecision
  split_ifs <;> simp

theorem localDecision_eq_none {b : Game K} (h : (localDecision b).getD .mpGame = .mpGame) :
    localDecision b = none := by
  unfold localDecision at h ⊢
  split_ifs at h ⊢
  all_goals first | rfl | cases h

theorem localDecision_eq_some {b : Game K} {r : GameState}
    (hr : r ∈ [GameState.winGame, .loseGame]) (h : (localDecision b).getD .mpGame = r) :
    localDecision b = some r := by
  cases hd : localDecision b with
  | none =>
    rw [hd] at h
    rw [← h] at hr
    simp at hr
  | some d =>
    rw [hd] at h
    exact congrArg some h

/-- An announced result is the opposite of the one its sender shows. -/
theorem owed_eq_cons {o : GameState} {res : ReceiveResult} {rs : List ReceiveResult}
    (h : owed o = [res] ++ rs) :
    (res = .loseGameErr ∧ o = .winGame) ∨ (res = .winGameErr ∧ o = .loseGame) := by
  cases o <;> simp_all [owed]

/-! ### What is under way -/

/-- A peer that plays: it is connected, has a gun in hand, and is sent whole
packets, with the announcement of the result its opponent has come to. -/
structure Engaged (s : Duel K) (p : Side) : Prop where
  connected : (s.peer p).game.net.state = .connected
  gun : HasGun (s.peer p).game.world.player
  unread : ∃ part, Unfinished (s.peer p).game.net part ∧
    (framer.feed part (unread s p)).1 = [] ∧
    announced (framer.feed part (unread s p)).2 = owed (shows s p.other)

/-- Every peer that plays is engaged, and the results are opposite. -/
structure DuelInv (s : Duel K) : Prop where
  engaged : ∀ p, shows s p = .mpGame → Engaged s p
  opposite : OppositeResults s

/-- A frame behind whole frames is cut off as it is. -/
theorem feed_append_frame {part xs f : List Entry} (h : (framer.feed part xs).1 = [])
    (hf : framer.Frame f) :
    framer.feed part (xs ++ f) = ([], (framer.feed part xs).2 ++ [f]) := by
  rw [Framer.feed_append, h, Framer.feed_frame hf]

theorem announced_announcement : ∀ r ∈ [GameState.winGame, .loseGame],
    framer.Frame ((announcement r).map entry) ∧
      announced [(announcement r).map entry] = owed r := by
  intro r hr
  simp only [List.mem_cons, List.not_mem_nil, or_false] at hr
  rcases hr with rfl | rfl
  · exact ⟨⟨rfl, _, rfl, by decide⟩, by decide⟩
  · exact ⟨⟨rfl, _, rfl, by decide⟩, by decide⟩

/-- What a peer is sent in a tick: a packet, and the announcement of the result the
sender comes to. -/
theorem feed_sent {part xs : List Entry} (h : (framer.feed part xs).1 = []) {p : PlayerInfo K}
    (hp : HasGun p) {r : GameState} (hr : r ∈ [GameState.mpGame, .winGame, .loseGame]) :
    (framer.feed part (xs ++ (sentBytes p ++ announcement r).map entry)).1 = [] ∧
      announced (framer.feed part (xs ++ (sentBytes p ++ announcement r).map entry)).2 =
        announced (framer.feed part xs).2 ++ owed r := by
  have hdata := feed_append_frame h (frame_sentBytes hp)
  have hnone : announced [(sentBytes p).map entry] = [] := by
    simp [announced, frameResult_sentBytes hp]
  rw [List.map_append, ← List.append_assoc]
  rcases List.mem_cons.mp hr with rfl | hr
  · rw [show (announcement .mpGame).map entry = [] from rfl, List.append_nil, hdata]
    exact ⟨rfl, by rw [announced_append, hnone]; rfl⟩
  · obtain ⟨hframe, hann⟩ := announced_announcement r hr
    rw [feed_append_frame (by rw [hdata]) hframe, hdata]
    refine ⟨rfl, ?_⟩
    rw [announced_append, announced_append, hnone, hann, List.append_nil]

theorem wireBytes_append (cs ds : List UartCall) :
    wireBytes (cs ++ ds) = wireBytes cs ++ wireBytes ds := List.filterMap_append

theorem wireBytes_announcement : ∀ r : GameState,
    wireBytes (uartSendString (announcement r) Net.start).calls = announcement r := by
  intro r
  cases r <;> rfl

/-! ### One step -/

section Act

variable {s : Duel K} {p : Side} {x : Combatant K} {ms : List Byte}

@[simp] theorem shows_afterAct_self : shows (s.afterAct p x ms) p = x.game.state := by
  simp [shows]

@[simp] theorem shows_afterAct_other : shows (s.afterAct p x ms) p.other = shows s p.other := by
  simp [shows]

theorem oppositeResults_iff (s : Duel K) (p : Side) :
    OppositeResults s ↔
      ∀ r ∈ [GameState.winGame, .loseGame], ¬ (shows s p = r ∧ shows s p.other = r) := by
  cases p with
  | left => exact Iff.rfl
  | right =>
    refine forall₂_congr fun r _ => not_congr ?_
    exact and_comm

/-- **A step of one peer keeps the invariant** when it leaves the peer engaged or
out of the game, sends whole frames with the announcement of its result, and does
not come to the result of the other. -/
theorem DuelInv.act (hs : DuelInv s) (hp : shows s p = .mpGame)
    (hself : x.game.state = .mpGame → Engaged (s.afterAct p x ms) p)
    (hsent : shows s p.other = .mpGame → ∀ part xs, (framer.feed part xs).1 = [] →
      (framer.feed part (xs ++ ms.map entry)).1 = [] ∧
        announced (framer.feed part (xs ++ ms.map entry)).2 =
          announced (framer.feed part xs).2 ++ owed x.game.state)
    (hopp : ∀ r ∈ [GameState.winGame, .loseGame], ¬ (x.game.state = r ∧ shows s p.other = r)) :
    DuelInv (s.afterAct p x ms) := by
  refine ⟨fun q hq => ?_, (oppositeResults_iff _ p).mpr ?_⟩
  · rcases Side.eq_or_eq_other q p with rfl | rfl
    · rw [shows_afterAct_self] at hq
      exact hself hq
    · rw [shows_afterAct_other] at hq
      obtain ⟨hconn, hgun, part, hun, hrest, hann⟩ := hs.engaged p.other hq
      have hpeer : (s.afterAct p x ms).peer p.other = s.peer p.other := Duplex.afterAct_other
      have hunread : unread (s.afterAct p x ms) p.other = unread s p.other ++ ms.map entry :=
        Duplex.pending_act_other s p x ms
      obtain ⟨hrest', hann'⟩ := hsent hq part _ hrest
      refine ⟨by rw [hpeer]; exact hconn, by rw [hpeer]; exact hgun, part,
        by rw [hpeer]; exact hun, by rw [hunread]; exact hrest', ?_⟩
      -- the peer was playing, so nothing was announced before
      rw [hunread, hann', hann, Side.other_other, hp, shows_afterAct_self]
      rfl
  · intro r hr
    rw [shows_afterAct_self, shows_afterAct_other]
    exact hopp r hr

/-- A step of a peer is a tick, or touches its controls and its clock only. -/
theorem combat_act_cases {y : Combatant K} {i : GameInput K}
    (h : combat.act y i = some (x, ms)) :
    y.game.state = .mpGame ∧ ms = wireBytes x.game.net.calls ∧
      ((∃ t, i = .tick t ∧ gameHandler y.setting t (timerIntHandler y.game.quiet) = .ok x.game) ∨
        (x.game.state = .mpGame ∧ x.game.net = y.game.quiet.net ∧
          x.game.world.player.gunIndex = y.game.world.player.gunIndex)) := by
  simp only [combat] at h
  split at h
  · next hst =>
    have hexit : y.game.quiet.state ≠ .exit := by
      show y.game.state ≠ .exit
      rw [hst]
      decide
    cases i with
    | recv e => cases h
    | mouse pos lb desl =>
      simp only [gameMachine, if_neg hexit] at h
      cases h
      exact ⟨hst, rfl, Or.inr ⟨hst, rfl, rfl⟩⟩
    | kbd k =>
      simp only [gameMachine, if_neg hexit] at h
      cases h
      exact ⟨hst, rfl, Or.inr ⟨hst, rfl, rfl⟩⟩
    | rtc cause =>
      simp only [gameMachine, if_neg hexit] at h
      cases h
      refine ⟨hst, rfl, Or.inr ?_⟩
      unfold rtcIh
      split_ifs <;> exact ⟨hst, rfl, rfl⟩
    | tick t =>
      obtain ⟨g, hg, heq⟩ := Option.map_eq_some_iff.mp h
      cases heq
      exact ⟨hst, rfl, Or.inl ⟨t, rfl, gameHandler_of_tick hg⟩⟩
  · cases h

theorem unread_afterAct_self :
    unread (s.afterAct p x ms) p = x.game.net.inFifo ++ (s.wire p).map entry :=
  Duplex.pending_act_self s p x ms

/-- A peer that goes on after a step is engaged, when what it has not read yet is
cut as before. -/
theorem Engaged.afterAct (hconn : x.game.net.state = .connected) (hgun : HasGun x.game.world.player)
    {part : List Entry} (hun : Unfinished x.game.net part)
    (hrest : (framer.feed part (x.game.net.inFifo ++ (s.wire p).map entry)).1 = [])
    (hann : announced (framer.feed part (x.game.net.inFifo ++ (s.wire p).map entry)).2 =
      owed (shows s p.other)) : Engaged (s.afterAct p x ms) p := by
  have hpeer : (s.afterAct p x ms).peer p = x := Duplex.afterAct_self
  refine ⟨by rw [hpeer]; exact hconn, by rw [hpeer]; exact hgun, part, by rw [hpeer]; exact hun,
    ?_, ?_⟩
  · rw [unread_afterAct_self]
    exact hrest
  · rw [unread_afterAct_self, shows_afterAct_other]
    exact hann

/-- A step that touches the controls and the clock only. -/
theorem DuelInv.control (hs : DuelInv s) (hp : shows s p = .mpGame) (hst : x.game.state = .mpGame)
    (hnet : x.game.net = (s.peer p).game.quiet.net)
    (hgun : x.game.world.player.gunIndex = (s.peer p).game.world.player.gunIndex) :
    DuelInv (s.afterAct p x (wireBytes x.game.net.calls)) := by
  have hms : wireBytes x.game.net.calls = [] := by rw [hnet]; rfl
  obtain ⟨hconn, hgun', part, hun, hrest, hann⟩ := hs.engaged p hp
  rw [hms]
  refine hs.act hp (fun _ => ?_) (fun _ part xs h => ?_) ?_
  · have hun' : Unfinished x.game.net part :=
      hun.congr (by rw [hnet]; rfl) (by rw [hnet]; rfl)
    refine Engaged.afterAct (by rw [hnet]; exact hconn) (by unfold HasGun; rw [hgun]; exact hgun')
      hun' ?_ ?_
    · rw [hnet]
      exact hrest
    · rw [hnet]
      exact hann
  · rw [hst]
    simpa [owed] using h
  · intro r hr
    rw [hst]
    rintro ⟨rfl, -⟩
    simp at hr

/-- A tick. -/
theorem DuelInv.tick (hs : DuelInv s) (hp : shows s p = .mpGame) {t : Tick K}
    (hclash : NoClash s (.act p (.tick t)))
    (h : gameHandler (s.peer p).setting t (timerIntHandler (s.peer p).game.quiet) = .ok x.game) :
    DuelInv (s.afterAct p x (wireBytes x.game.net.calls)) := by
  obtain ⟨hconn, hgun, part, hun, hrest, hann⟩ := hs.engaged p hp
  -- what has not been read yet is in the queue, and behind it on the wire
  have hunread : unread s p = (s.peer p).game.net.inFifo ++ (s.wire p).map entry := rfl
  have htick : MpTick (s.peer p).setting t part (timerIntHandler (s.peer p).game.quiet) x.game :=
    mpTick_gameHandler hp hconn hgun (hun.congr rfl rfl) h
  rw [hunread] at hrest hann
  cases htick with
  | remote res taken rest hres hin hann' hst hcalls =>
    -- the other peer has come to the opposite result, and does not play any more
    have hms : wireBytes x.game.net.calls = [] := by rw [hcalls]; rfl
    rw [show (s.peer p).game.net.inFifo = taken ++ rest from hin, List.append_assoc,
      Framer.feed_append, announced_append, hann'] at hann
    have hother := owed_eq_cons hann.symm
    rw [hms]
    refine hs.act hp (fun hmp => ?_) (fun hmp => ?_) ?_
    · rcases hother with ⟨rfl, -⟩ | ⟨rfl, -⟩ <;> cases hst.symm.trans hmp
    · rcases hother with ⟨-, ho⟩ | ⟨-, ho⟩ <;> cases ho.symm.trans hmp
    · rintro r - ⟨hr, hr'⟩
      rcases hother with ⟨rfl, ho⟩ | ⟨rfl, ho⟩
      · cases (hst.symm.trans hr).trans (hr'.symm.trans ho)
      · cases (hst.symm.trans hr).trans (hr'.symm.trans ho)
  | lost hst hcalls =>
    have hms : wireBytes x.game.net.calls = [] := by rw [hcalls]; rfl
    have howed : owed x.game.state = [] := by rcases hst with hst | hst <;> rw [hst] <;> rfl
    rw [hms]
    refine hs.act hp (fun hmp => ?_) (fun _ part xs hxs => ?_) ?_
    · rcases hst with hst | hst <;> cases hst.symm.trans hmp
    · rw [howed]
      simpa using hxs
    · rintro r hr ⟨hr', -⟩
      rcases hst with hst | hst <;> rw [← hr', hst] at hr <;> simp at hr
  | goesOn b q hb hg' hann' hin hun' hnet hst hgun' hq hcalls =>
    obtain ⟨hst', hcalls', hnone⟩ := updateGameState_localDecision hst
    rw [← hg'] at hst' hcalls' hnone
    have hms : wireBytes x.game.net.calls = sentBytes q ++ announcement x.game.state := by
      rw [hcalls', hcalls, wireBytes_append, wireBytes_announcement, hst']
      rfl
    rw [hms]
    refine hs.act hp (fun hmp => ?_) (fun _ part xs hxs => ?_) ?_
    · -- no decision was taken, and the queue has been read to its end
      have hx : x.game = b := hnone (localDecision_eq_none (hst'.symm.trans hmp))
      rw [Framer.feed_append] at hrest hann
      refine Engaged.afterAct (by rw [hx]; exact hnet) (by rw [hx]; exact hgun')
        (by rw [hx]; exact hun') ?_ ?_
      · rw [hx, hin]
        exact hrest
      · rw [announced_append, show announced (framer.feed part (s.peer p).game.net.inFifo).2 = []
          from hann'] at hann
        rw [hx, hin]
        exact hann
    · exact feed_sent hxs hq (by rw [hst']; exact localDecision_mem b)
    · rintro r hr ⟨hr', ho⟩
      refine hclash hp ⟨b, hb, ?_⟩
      rw [ho, clashes_iff (by simpa using hr)]
      exact localDecision_eq_some hr (hst'.symm.trans hr')

/-- A delivery moves an entry from the wire to the queue. -/
theorem DuelInv.deliver (hs : DuelInv s) {m : Byte} (hw : s.wire p = m :: ms) :
    DuelInv (s.afterDeliver p (combat.receive (s.peer p) m) ms) := by
  set u : Duel K := s.afterDeliver p (combat.receive (s.peer p) m) ms with hu
  have hunread : ∀ q, unread u q = unread s q :=
    Duplex.pending_deliver (A := combat) (fun _ => rfl) hw
  have hpeer : ∀ q, u.peer q = s.peer q ∨ u.peer q = combat.receive (s.peer q) m := by
    intro q
    rcases Side.eq_or_eq_other q p with rfl | rfl
    · exact Or.inr (by simp [hu])
    · exact Or.inl (by simp [hu])
  have hshows : ∀ q, shows u q = shows s q := by
    intro q
    unfold shows
    rcases hpeer q with h | h <;> rw [h]
    rfl
  refine ⟨fun q hq => ?_, ?_⟩
  · rw [hshows] at hq
    obtain ⟨hconn, hgun, part, hun, hrest, hann⟩ := hs.engaged q hq
    rw [← hunread] at hrest hann
    rw [← hshows] at hann
    rcases hpeer q with h | h
    · exact ⟨by rw [h]; exact hconn, by rw [h]; exact hgun, part, by rw [h]; exact hun, hrest, hann⟩
    · exact ⟨by rw [h]; exact hconn, by rw [h]; exact hgun, part,
        by rw [h]; exact hun.congr rfl rfl, hrest, hann⟩
  · intro r hr
    rw [hshows, hshows]
    exact hs.opposite r hr

/-- **One step of the pair**, other than a clashing decision. -/
theorem DuelInv.step (hs : DuelInv s) {e : Event (GameInput K)} (he : NoClash s e) {u : Duel K}
    (h : combat.machine.step s e = some u) : DuelInv u := by
  obtain ⟨p, i, x, ms, rfl, hact, rfl⟩ | ⟨p, m, ms, rfl, hw, rfl⟩ := Duplex.step_cases h
  · obtain ⟨hp, rfl, ⟨t, rfl, htick⟩ | ⟨hst, hnet, hgun⟩⟩ := combat_act_cases hact
    · exact hs.tick hp he htick
    · exact hs.control hp hst hnet hgun
  · exact hs.deliver hw

/-- **A clashing decision** leads to equal results at once. -/
theorem not_oppositeResults_of_clash {e : Event (GameInput K)} (he : ¬ NoClash s e) :
    ∃ u, combat.machine.step s e = some u ∧ ¬ OppositeResults u := by
  cases e with
  | deliver p => exact absurd trivial he
  | act p i =>
    cases i with
    | mouse pos lb desl => exact absurd trivial he
    | kbd k => exact absurd trivial he
    | recv e => exact absurd trivial he
    | rtc cause => exact absurd trivial he
    | tick t =>
      obtain ⟨hp, b, hb, hclash⟩ : shows s p = .mpGame ∧ ∃ b,
          beforeUpdate (s.peer p).setting t (timerIntHandler (s.peer p).game.quiet) = .ok b ∧
            Clashes (shows s p.other) b := by
        simpa [NoClash] using he
      have hother : shows s p.other = .winGame ∨ shows s p.other = .loseGame := by
        rcases hclash with ⟨ho, -⟩ | ⟨ho, -⟩
        · exact Or.inr ho
        · exact Or.inl ho
      have hdecision := (clashes_iff hother).mp hclash
      have hst : b.state = .mpGame ∨ b.state = .endMGame := by
        rcases hclash with ⟨-, hend | ⟨hmp, -⟩⟩ | ⟨-, hmp, -⟩
        · exact Or.inr hend
        · exact Or.inl hmp
        · exact Or.inl hmp
      obtain ⟨hst', -, -⟩ := updateGameState_localDecision hst
      rw [hdecision, Option.getD_some] at hst'
      have hact : combat.act (s.peer p) (.tick t) =
          some ({ s.peer p with game := updateGameState b },
            wireBytes (updateGameState b).net.calls) := by
        have hexit : (s.peer p).game.quiet.state ≠ .exit := by
          show shows s p ≠ .exit
          rw [hp]
          decide
        have htick : gameHandler (s.peer p).setting t (timerIntHandler (s.peer p).game.quiet) =
            .ok (updateGameState b) := by
          unfold gameHandler
          rw [hb]
          rfl
        simp only [combat, if_pos (show (s.peer p).game.state = .mpGame from hp),
          step_tick _ hexit htick, Option.map_some]
      refine ⟨s.afterAct p { s.peer p with game := updateGameState b }
        (wireBytes (updateGameState b).net.calls), ?_, fun hopp => ?_⟩
      · simp only [Endpoint.machine, hact, Option.map_some]
      · refine (oppositeResults_iff _ p).mp hopp (shows s p.other) (by simpa using hother) ?_
        rw [shows_afterAct_self, shows_afterAct_other]
        exact ⟨hst', rfl⟩

end Act

/-- **Outcome agreement.**  Two connected peers in the multiplayer game, with
whole packets under way, never come to the same result exactly on the runs in
which no peer takes a decision that clashes with the result the other has come
to. -/
theorem outcome_agreement_iff (s : Duel K) (hs : ∀ p, shows s p = .mpGame ∧ Engaged s p)
    (es : List (Event (GameInput K))) :
    combat.machine.Always OppositeResults s es ↔ combat.machine.Along NoClash s es := by
  have hinv : DuelInv s := by
    refine ⟨fun p _ => (hs p).2, ?_⟩
    rintro r hr ⟨hl, -⟩
    rw [← hl, (hs .left).1] at hr
    simp at hr
  exact Machine.always_iff_along (J := DuelInv) (fun _ h => h.opposite)
    (fun _ _ _ h he ht => h.step he ht) (fun _ _ _ he => not_oppositeResults_of_clash he) es s hinv

instance (other : GameState) (b : Game K) : Decidable (Clashes other b) :=
  inferInstanceAs (Decidable (_ ∨ _))

instance (s : Duel K) : ∀ e : Event (GameInput K), Decidable (NoClash s e)
  | .act p (.tick t) => inferInstanceAs (Decidable (shows s p = .mpGame →
      ¬ ∃ b, beforeUpdate (s.peer p).setting t (timerIntHandler (s.peer p).game.quiet) = .ok b ∧
        Clashes (shows s p.other) b))
  | .act _ (.mouse _ _ _) => isTrue trivial
  | .act _ (.kbd _) => isTrue trivial
  | .act _ (.recv _) => isTrue trivial
  | .act _ (.rtc _) => isTrue trivial
  | .deliver _ => isTrue trivial

end Model

/-! ### Two peers that quit -/

/-- A peer whose handshake has just ended. -/
def duelGame (player : ℕ) : Game ℚ :=
  (loadLevel scene 3 2 player
    { sceneStart with net := { Net.start with state := .connected, player := player } }).2

/-- The two peers at the start of their game. -/
def duel : Duel ℚ :=
  { peer := fun p => { setting := scene, game := duelGame (if p = .left then 1 else 2) }
    wire := fun _ => [] }

theorem engaged_duel (p : Side) : shows duel p = .mpGame ∧ Engaged duel p := by
  refine ⟨by cases p <;> rfl, by cases p <;> rfl, ?_, [],
    ⟨by cases p <;> rfl, by decide, rfl⟩, ?_, ?_⟩
  · cases p <;> exact List.mem_cons_self
  · cases p <;> rfl
  · cases p <;> rfl

/-- One peer quits, and the other reads its announcement. -/
theorem outcome_agreement_quit : combat.machine.Always OppositeResults duel
    (quitGame.map (.act .left) ++ List.replicate 9 (.deliver .right) ++ [.act .right silentTick]) :=
  (outcome_agreement_iff duel engaged_duel _).mpr (by decide +kernel)

/-- Both peers quit before either has read the announcement of the other: both
have lost. -/
theorem not_outcome_agreement_bothQuit :
    ∃ s, combat.machine.run duel
        (quitGame.map (.act .left) ++ quitGame.map (.act .right)) = some s ∧
      shows s .left = .loseGame ∧ shows s .right = .loseGame ∧ ¬ OppositeResults s := by
  have hrun : (combat.machine.run duel
      (quitGame.map (.act .left) ++ quitGame.map (.act .right))).map
        (fun s => (shows s .left, shows s .right)) = some (.loseGame, .loseGame) := by
    decide +kernel
  obtain ⟨s, hs, hshows⟩ := Option.map_eq_some_iff.mp hrun
  obtain ⟨hl, hr⟩ := Prod.mk.inj hshows
  exact ⟨s, hs, hl, hr, fun h => h .loseGame (by simp) ⟨hl, hr⟩⟩

end OperationMinix
