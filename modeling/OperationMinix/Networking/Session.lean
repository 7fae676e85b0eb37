import OperationMinix.Networking.Handshake
import OperationMinix.Networking.Stranded

/-!
# The end of a handshake

A handshake ends in one of two ways: with the last letter of the response, or with
the timeout.

The peer that receives the last letter acknowledges it and empties its transmit
queue.  An acknowledgement that could not be sent at once stands in this queue.

The timeout counts the calls of `uart_sync_link` and `uart_sync_connect` that
return `2`, from the start of the session on.  No byte that is accepted clears the
counter, so it does not count calls in a row.  To speak of the latest calls, the
machine below remembers of each call whether it was fruitless.

## Main definitions

* `handedBytes` — what a list of driver calls hands to `uart_send_byte`.
* `syncResults` — what the link and connect steps of one call return.
* `Session`, `sessionMachine` — one peer through any number of sessions.

## Main results

* `lastAck_survives_iff` — the last acknowledgement survives exactly when it is sent
  at once.
* `timeout_inactive_iff` — a timeout means inactivity exactly when no byte has been
  accepted after the counter had passed one.
-/

namespace OperationMinix

open Runs

/-! ### The last acknowledgement -/

section LastAck

variable {σ : Type*}

/-- The bytes a list of driver calls hands to `uart_send_byte`, from the driver `u`. -/
def handedBytes (d : Device σ) : List UartCall → Uart σ → List Byte
  | [], _ => []
  | .uartSafeTransmit b :: cs, u =>
    (if transmitterEmpty u then [b] else []) ++
      handedBytes d cs (performCall d u (.uartSafeTransmit b))
  | c :: cs, u => handedBytes d cs (performCall d u c)

/-- The peer that becomes player 2 acknowledges the last letter and empties the queue. -/
theorem uartSyncConnect_player2 {n m : Net} (hl : n.state = .linked)
    (h : uartSyncConnect n = .ok (.ok, m)) (hm : m.state = .connected) (hp : m.player = 2) :
    m.calls = n.calls ++ [.uartSafeTransmit uartAck, .emptyTransmitQueue] := by
  rcases uartSyncConnect_cases h with ⟨hok, -⟩ | ⟨calls, idx, hr⟩ | hr | hr
  · exact absurd rfl hok
  · -- the peer has stayed in `LINKED`
    cases hr
    cases hl.symm.trans hm
  · cases hr
    cases hp
  · cases hr
    rfl

/-- **When the last acknowledgement survives.**  For every state of the transmit path,
the call of `uart_sync_connect` that takes the last letter of the response and
makes the peer player 2 has handed its acknowledgement to `uart_send_byte`, or
left it in the queue, if and only if `can_send` is set. -/
theorem lastAck_survives_iff (d : Device σ) (u : Uart σ) (n m : Net) (hl : n.state = .linked)
    (h : uartSyncConnect n.noCalls = .ok (.ok, m)) (hm : m.state = .connected)
    (hp : m.player = 2) :
    (uartAck ∈ handedBytes d m.calls u ∨ uartAck ∈ (performCalls d m.calls u).outFifo) ↔
      u.canSend = true := by
  have hcalls : m.calls = [.uartSafeTransmit uartAck, .emptyTransmitQueue] :=
    uartSyncConnect_player2 (n := n.noCalls) hl h hm hp
  have hempty : (performCalls d m.calls u).outFifo = [] := by
    rw [hcalls]
    rfl
  rw [hempty, hcalls]
  unfold handedBytes transmitterEmpty
  cases hc : u.canSend <;> simp [handedBytes]

/-- A peer that waits for the last letter of the response, which has come in. -/
def awaitsLast : Net :=
  { Net.start with state := .linked, idx := 4, inFifo := [entry 0x4e] }

/-- On an idle line the last acknowledgement survives. -/
theorem lastAck_survives_idle : ∃ m, uartSyncConnect awaitsLast.noCalls = .ok (.ok, m) ∧
    (uartAck ∈ handedBytes lineDevice m.calls (Uart.init ⟨false, false, []⟩) ∨
      uartAck ∈ (performCalls lineDevice m.calls (Uart.init ⟨false, false, []⟩)).outFifo) :=
  ⟨_, rfl, (lastAck_survives_iff lineDevice (Uart.init ⟨false, false, []⟩) awaitsLast _ rfl rfl rfl
    rfl).mpr rfl⟩

/-- A peer and its driver. -/
structure Wired where
  net : Net
  uart : Uart Line

/-- What happens to a peer and its driver. -/
inductive WiredInput where
  /-- An entry is pushed on the receive queue. -/
  | recv (e : Entry)
  /-- A call of `uart_sync`, whose driver calls are performed. -/
  | sync
  /-- Earlier traffic: a call of `uart_send_string`. -/
  | sendString (word : List Byte)
  /-- The byte in the transmitter is finished. -/
  | complete
  /-- A call of the interrupt handler. -/
  | ih (fuel : ℕ) (byte : Byte)

/-- A peer on the driver with the two-bit chip, step by step. -/
def wiredMachine : Machine Wired WiredInput where
  step s
    | .recv e => some { s with net := { s.net with inFifo := s.net.inFifo ++ [e] } }
    | .sync => (uartSync silent s.net.noCalls).toOption.map fun m =>
        { net := m, uart := performCalls lineDevice m.calls s.uart }
    | .sendString word =>
        some { s with
          uart := performCalls lineDevice (uartSendString word Net.start).calls s.uart }
    | .complete => some { s with uart := { s.uart with dev := s.uart.dev.complete } }
    | .ih fuel byte => (uartIh lineDevice fuel byte s.uart).map fun u => { s with uart := u }

/-- The program as it starts. -/
def Wired.start : Wired := { net := Net.start, uart := Uart.init ⟨false, false, []⟩ }

/-- A handshake that starts while the announcement of the last result is still going
out: six acknowledgements and the response come in, and each byte that goes out
leaves in an interrupt. -/
def hurriedHandshake : List WiredInput :=
  .sendString uartWinGame :: .sync ::
    ((List.replicate 6 (entry uartAck) ++ [0x42, 0x45, 0x47, 0x49].map entry).map fun e =>
      [WiredInput.complete, .ih 2 0, .recv e, .sync]).flatten ++
    [.recv (entry 0x4e)]

/-- The last acknowledgement of this handshake is neither sent nor queued. -/
theorem hurriedHandshake_lost : ∃ s m, wiredMachine.run Wired.start hurriedHandshake = some s ∧
    uartSyncConnect s.net.noCalls = .ok (.ok, m) ∧ m.state = .connected ∧ m.player = 2 ∧
    uartAck ∉ handedBytes lineDevice m.calls s.uart ∧
    uartAck ∉ (performCalls lineDevice m.calls s.uart).outFifo :=
  ⟨_, _, rfl, rfl, rfl, rfl, by decide, by decide⟩

end LastAck

/-! ### What a call returns -/

/-- What `uart_sync_link` returns in this call, if it is called. -/
def linkResult (n : Net) : Option SyncResult :=
  if n.state = .waiting then (uartSyncLink n).toOption.map Prod.fst else none

/-- What `uart_sync_connect` returns in this call, if it is called. -/
def connectResult (n : Net) : Option SyncResult :=
  if n.state = .linked then (uartSyncConnect n).toOption.map Prod.fst else none

/-- What the two steps of a call return, from the state after the `CLEANUP` branch. -/
def stageResults (n : Net) : List SyncResult :=
  (linkResult n).toList ++ match linkStage n with
    | .ok m => (connectResult m).toList
    | .error _ => []

/-- What the two steps of a call of `uart_sync` return. -/
def syncResults (polls : List RecvResult) (n : Net) : List SyncResult :=
  match cleanupStage polls n with
  | .ok m => stageResults m
  | .error _ => []

/-- A call all of whose steps return `2`, and at least one. -/
def Fruitless (rs : List SyncResult) : Prop := rs ≠ [] ∧ ∀ r ∈ rs, r = .noByte

instance (rs : List SyncResult) : Decidable (Fruitless rs) := inferInstanceAs (Decidable (_ ∧ _))

/-- The handshake is under way. -/
def Net.Handshaking (n : Net) : Prop := n.state = .waiting ∨ n.state = .linked

instance (n : Net) : Decidable n.Handshaking := inferInstanceAs (Decidable (_ ∨ _))

/-- What a link step leaves alone. -/
theorem uartSyncLink_keeps {n : Net} {r : SyncResult × Net} (h : uartSyncLink n = .ok r) :
    r.2.tries = n.tries ∧ (r.2.state = n.state ∨ r.1 = .ok ∧ r.2.state = .linked) := by
  rcases uartSyncLink_cases h with ⟨-, hr⟩ | ⟨calls, idx, state, rfl | rfl, rfl⟩
  · rw [hr]; exact ⟨rfl, Or.inl rfl⟩
  · exact ⟨rfl, Or.inl rfl⟩
  · exact ⟨rfl, Or.inr ⟨rfl, rfl⟩⟩

/-- What a connect step leaves alone. -/
theorem uartSyncConnect_keeps {n : Net} {r : SyncResult × Net} (h : uartSyncConnect n = .ok r) :
    r.2.tries = n.tries ∧ (r.2.state = n.state ∨ r.1 = .ok ∧ r.2.state = .connected) := by
  rcases uartSyncConnect_cases h with ⟨-, hr⟩ | ⟨calls, idx, rfl⟩ | rfl | rfl
  · rw [hr]; exact ⟨rfl, Or.inl rfl⟩
  · exact ⟨rfl, Or.inl rfl⟩
  · exact ⟨rfl, Or.inr ⟨rfl, rfl⟩⟩
  · exact ⟨rfl, Or.inr ⟨rfl, rfl⟩⟩

/-- **What a call does to the counter**, by what its steps return: `t` is the counter
before them, and `m` the state after the call. -/
def Counts (t : ℕ) (rs : List SyncResult) (m : Net) : Prop :=
  rs ≠ [] ∧
    (.lineError ∈ rs ∧ .noByte ∉ rs ∧ m.state = .cleanup ∨
      .lineError ∉ rs ∧ .noByte ∈ rs ∧ (if t + 1 > uartSyncTries then m.state = .init
        else m.Handshaking ∧ m.tries = t + 1) ∨
      .lineError ∉ rs ∧ .noByte ∉ rs ∧ m.tries = t ∧ (m.Handshaking ∨ m.state = .connected))

/-- The counter after one step. -/
theorem counts_settleSync {n : Net} {r : SyncResult × Net} (hn : n.Handshaking)
    (htries : r.2.tries = n.tries)
    (hstate : r.2.state = n.state ∨ r.1 = .ok ∧ (r.2.state = .linked ∨ r.2.state = .connected)) :
    Counts n.tries [r.1] (settleSync r) := by
  refine ⟨by simp, ?_⟩
  obtain ⟨res, m⟩ := r
  cases res with
  | ok =>
    refine Or.inr (Or.inr ⟨by simp, by simp, htries, ?_⟩)
    rcases hstate with h | ⟨-, h | h⟩
    · exact Or.inl (by rw [Net.Handshaking, settleSync, h]; exact hn)
    · exact Or.inl (Or.inr h)
    · exact Or.inr h
  | lineError => exact Or.inl ⟨by simp, by simp, rfl⟩
  | noByte =>
    refine Or.inr (Or.inl ⟨by simp, by simp, ?_⟩)
    have hst : m.state = n.state := by simpa using hstate
    dsimp only at htries
    rw [settleSync]
    dsimp only
    rw [htries]
    split
    · rfl
    · exact ⟨by rw [Net.Handshaking, hst]; exact hn, rfl⟩

/-- The counter after a connect step. -/
theorem counts_connectStage {n m : Net} (hl : n.state = .linked) (h : connectStage n = .ok m) :
    ∃ r, connectResult n = some r ∧ Counts n.tries [r] m := by
  cases hr : uartSyncConnect n with
  | error f =>
    rw [connectStage, if_pos hl, hr] at h
    cases h
  | ok r =>
    rw [connectStage_of_linked hl hr] at h
    cases h
    obtain ⟨htries, hstate⟩ := uartSyncConnect_keeps hr
    refine ⟨r.1, by simp [connectResult, hl, hr, Except.toOption], ?_⟩
    apply counts_settleSync (Or.inr hl) htries
    rcases hstate with h | ⟨h, h'⟩
    · exact Or.inl h
    · exact Or.inr ⟨h, Or.inr h'⟩

/-- Only a byte that is accepted links the peer. -/
theorem ok_of_linked {n : Net} {r : SyncResult × Net} (hw : n.state = .waiting)
    (hr : uartSyncLink n = .ok r) (hl : (settleSync r).state = .linked) : r.1 = .ok := by
  obtain ⟨-, hstate⟩ := uartSyncLink_keeps hr
  obtain ⟨res, m⟩ := r
  cases res with
  | ok => rfl
  | lineError => cases hl
  | noByte =>
    have hst : m.state = .waiting := by simpa [hw] using hstate
    unfold settleSync at hl
    dsimp only at hl
    split at hl
    · cases hl
    · rw [hst] at hl
      cases hl

/-- A byte accepted by the link step does not count. -/
theorem Counts.cons_ok {t : ℕ} {rs : List SyncResult} {m : Net} (h : Counts t rs m) :
    Counts t (.ok :: rs) m := by
  refine ⟨by simp, ?_⟩
  simpa using h.2

/-- The counter after the two steps of a call. -/
theorem counts_stages {n m : Net} (hn : n.Handshaking)
    (h : linkStage n >>= connectStage = .ok m) : Counts n.tries (stageResults n) m := by
  rcases hn with hw | hl
  · cases hr : uartSyncLink n with
    | error f =>
      rw [linkStage, if_pos hw, hr] at h
      cases h
    | ok r =>
      have hlink := linkStage_of_waiting hw hr
      rw [hlink] at h
      obtain ⟨htries, hstate⟩ := uartSyncLink_keeps hr
      have hcounts : Counts n.tries [r.1] (settleSync r) := by
        apply counts_settleSync (Or.inl hw) htries
        rcases hstate with h | ⟨h, h'⟩
        · exact Or.inl h
        · exact Or.inr ⟨h, Or.inl h'⟩
      have hresult : linkResult n = some r.1 := by simp [linkResult, hw, hr, Except.toOption]
      rw [stageResults, hlink, hresult]
      by_cases hl : (settleSync r).state = .linked
      · have hok : r.1 = .ok := ok_of_linked hw hr hl
        obtain ⟨r', hr', hcounts'⟩ := counts_connectStage hl h
        have htries' : (settleSync r).tries = n.tries := by
          rw [settleSync, hok]
          exact htries
        rw [htries'] at hcounts'
        simp only [hr', hok, Option.toList_some]
        exact hcounts'.cons_ok
      · have hm : m = settleSync r := (Except.ok.inj ((connectStage_of_ne hl).symm.trans h)).symm
        simpa [connectResult, hl, hm] using hcounts
  · have hw : n.state ≠ .waiting := by simp [hl]
    rw [linkStage_of_ne hw] at h
    obtain ⟨r, hr, hcounts⟩ := counts_connectStage hl h
    simpa [stageResults, linkResult, linkStage_of_ne hw, hw, hr] using hcounts

/-- The counter as the steps of a call find it: the `CLEANUP` branch clears it. -/
def Net.counted (n : Net) : ℕ := if n.state = .cleanup then 0 else n.tries

/-- **The counter after a call**, in the three states of the handshake. -/
theorem counts_uartSync {polls : List RecvResult} {n m : Net}
    (hn : n.state = .cleanup ∨ n.Handshaking) (h : uartSync polls n = .ok m) :
    Counts n.counted (syncResults polls n) m := by
  by_cases hc : n.state = .cleanup
  · rcases cleanup_cases polls n with hok | herr
    · rw [uartSync_of_cleanup hc hok] at h
      rw [Net.counted, if_pos hc, syncResults, cleanupStage, if_pos hc, hok]
      exact counts_stages (n := n.joined) (Or.inl rfl) h
    · simp [uartSync, cleanupStage, hc, herr, bind, Except.bind] at h
  · rw [uartSync_of_ne_cleanup polls hc] at h
    rw [Net.counted, if_neg hc, syncResults, cleanupStage, if_neg hc]
    exact counts_stages (hn.resolve_left hc) h

/-- Elsewhere a call does nothing. -/
theorem syncResults_idle (polls : List RecvResult) {n : Net} (hc : n.state ≠ .cleanup)
    (hn : ¬ n.Handshaking) : uartSync polls n = .ok n ∧ syncResults polls n = [] := by
  obtain ⟨hw, hl⟩ := not_or.mp hn
  refine ⟨uartSync_idle polls hc hw hl, ?_⟩
  simp [syncResults, cleanupStage, hc, stageResults, linkResult, hw, linkStage_of_ne hw,
    connectResult, hl]

/-- A link step that fails returns nothing. -/
theorem linkResult_of_error {n : Net} {f : Fault} (h : linkStage n = .error f) :
    linkResult n = none := by
  unfold linkStage at h
  unfold linkResult
  split at h
  · cases hr : uartSyncLink n with
    | error f => simp [Except.toOption]
    | ok r => rw [hr] at h; cases h
  · cases h

/-- Nor does a connect step that fails. -/
theorem connectResult_of_error {n : Net} {f : Fault} (h : connectStage n = .error f) :
    n.state = .linked ∧ connectResult n = none := by
  unfold connectStage at h
  unfold connectResult
  split at h
  · next hst =>
    refine ⟨hst, ?_⟩
    cases hr : uartSyncConnect n with
    | error f => simp [Except.toOption]
    | ok r => rw [hr] at h; cases h
  · cases h

/-- A link step that has linked the peer has accepted a byte. -/
theorem linkResult_ne_noByte {n m : Net} (h : linkStage n = .ok m) (hm : m.state = .linked) :
    linkResult n ≠ some .noByte := by
  unfold linkResult
  split
  · next hw =>
    cases hr : uartSyncLink n with
    | error f => simp [Except.toOption]
    | ok r =>
      rw [linkStage_of_waiting hw hr] at h
      cases h
      simp [Except.toOption, ok_of_linked hw hr hm]
  · simp

/-- A call that returns a result has not failed in a step. -/
theorem uartSync_of_noByte {polls : List RecvResult} {n : Net}
    (h : .noByte ∈ syncResults polls n) : ∃ m, uartSync polls n = .ok m := by
  unfold syncResults at h
  unfold uartSync
  cases hc : cleanupStage polls n with
  | error f => simp [hc] at h
  | ok n₁ =>
    simp only [hc, stageResults] at h
    cases hl : linkStage n₁ with
    | error f => simp [hl, linkResult_of_error hl] at h
    | ok n₂ =>
      simp only [hl] at h
      cases hs : connectStage n₂ with
      | ok m => exact ⟨m, by simp [bind, Except.bind, hl, hs]⟩
      | error f =>
        -- the connect step has failed, so the link step has linked the peer
        obtain ⟨hlinked, hnone⟩ := connectResult_of_error hs
        have hlink : linkResult n₁ = some .noByte := by simpa [hnone] using h
        exact absurd hlink (linkResult_ne_noByte hl hlinked)

/-! ### The timeout -/

/-- One peer through any number of sessions, with the history of its calls. -/
structure Session where
  net : Net
  /-- For each call of `uart_sync`, the latest first, whether it was fruitless. -/
  fruitless : List Bool
  /-- The counter after the last call of the session that accepted a byte. -/
  mark : ℕ
  /-- The last input was a call that gave up. -/
  gaveUp : Bool
  deriving DecidableEq, Repr

/-- What happens to a peer. -/
inductive SessionInput where
  | recv (e : Entry)
  /-- A call of `uart_sync`, with the answers of `uart_receive_byte`. -/
  | sync (polls : List RecvResult)
  /-- The multiplayer menu is opened: `set_network_state(CLEANUP)`. -/
  | join
  /-- The menu is left: `set_network_state(INIT)`. -/
  | leave
  deriving DecidableEq, Repr

/-- The session after a call that has led to `m`. -/
def Session.after (s : Session) (polls : List RecvResult) (m : Net) : Session :=
  { net := m
    fruitless := decide (Fruitless (syncResults polls s.net)) :: s.fruitless
    mark := if .ok ∈ syncResults polls s.net then m.tries
      else if s.net.state = .cleanup then 0 else s.mark
    gaveUp := s.net.state ≠ .init ∧ m.state = .init }

/-- The sessions of a peer, step by step. -/
def sessionMachine : Machine Session SessionInput where
  step s
    | .recv e => some
        { s with net := { s.net with inFifo := s.net.inFifo ++ [e] }, gaveUp := false }
    | .sync polls => (uartSync polls s.net).toOption.map (s.after polls)
    | .join => some { s with net := { s.net with state := .cleanup }, gaveUp := false }
    | .leave => some { s with net := { s.net with state := .init }, gaveUp := false }

/-- A peer before its first session. -/
def Session.start : Session := { net := Net.start, fruitless := [], mark := 0, gaveUp := false }

/-- A peer that has just given up has been inactive: each of the last
`UART_SYNC_TRIES` calls was fruitless. -/
def Inactive (s : Session) : Prop :=
  s.gaveUp = true → s.fruitless.take uartSyncTries = List.replicate uartSyncTries true

/-- If the counter is used up and the call returns `2`, it accepts no byte, and the last
byte that was accepted came before the counter had passed one. -/
def NoLateByte (s : Session) : SessionInput → Prop
  | .sync polls => s.net.counted = uartSyncTries → .noByte ∈ syncResults polls s.net →
      .ok ∉ syncResults polls s.net ∧ s.mark ≤ 1
  | _ => True

/-- The counter is the calls since the last byte that was accepted, and those counted
up to it. -/
structure Streak (s : Session) (k : ℕ) (rest : List Bool) : Prop where
  fruitless : s.fruitless = List.replicate k true ++ rest
  tries : k + s.mark = s.net.tries
  accepted : s.mark = 0 ∨ rest.head? = some false

/-- The invariant of the sessions. -/
structure StreakInv (s : Session) : Prop where
  streak : s.net.Handshaking → s.net.tries ≤ uartSyncTries ∧ ∃ k rest, Streak s k rest
  inactive : Inactive s

theorem not_handshaking_of {n : Net} {st : NetworkState} (h : n.state = st) (hw : st ≠ .waiting)
    (hl : st ≠ .linked) : ¬ n.Handshaking := by
  rintro (hn | hn)
  · exact hw (h.symm.trans hn)
  · exact hl (h.symm.trans hn)

section Call

variable {s : Session} {polls : List RecvResult} {m : Net}

/-- A call that accepts a byte starts a new streak. -/
theorem Session.streak_of_ok (hok : .ok ∈ syncResults polls s.net) :
    Streak (s.after polls m) 0 (s.after polls m).fruitless := by
  have hnot : ¬ Fruitless (syncResults polls s.net) := fun h => by simpa using h.2 _ hok
  refine ⟨rfl, ?_, Or.inr ?_⟩
  · simp [Session.after, hok]
  · simp [Session.after, hnot]

theorem fruitless_of_noByte {rs : List SyncResult} (hno : .noByte ∈ rs) (herr : .lineError ∉ rs)
    (hok : .ok ∉ rs) : Fruitless rs := by
  refine ⟨List.ne_nil_of_mem hno, fun r hr => ?_⟩
  cases r with
  | ok => exact absurd hr hok
  | lineError => exact absurd hr herr
  | noByte => rfl

/-- The streak before a fruitless call, or the one of a session that starts with it. -/
theorem StreakInv.counted (h : StreakInv s) (hn : s.net.state = .cleanup ∨ s.net.Handshaking) :
    s.net.counted ≤ uartSyncTries ∧ ∃ k rest, s.fruitless = List.replicate k true ++ rest ∧
      (if s.net.state = .cleanup then 0 else s.mark) + k = s.net.counted ∧
      ((if s.net.state = .cleanup then 0 else s.mark) = 0 ∨ rest.head? = some false) := by
  by_cases hc : s.net.state = .cleanup
  · simp only [Net.counted, hc, if_true]
    exact ⟨Nat.zero_le _, 0, s.fruitless, rfl, rfl, Or.inl trivial⟩
  · simp only [Net.counted, hc, if_false]
    obtain ⟨htries, k, rest, hstreak⟩ := h.streak (hn.resolve_left hc)
    have := hstreak.tries
    exact ⟨htries, k, rest, hstreak.fruitless, by omega, hstreak.accepted⟩

/-- **One call keeps the invariant** when no byte was accepted late. -/
theorem StreakInv.sync (h : StreakInv s) (hC : NoLateByte s (.sync polls))
    (hm : uartSync polls s.net = .ok m) : StreakInv (s.after polls m) := by
  by_cases hn : s.net.state = .cleanup ∨ s.net.Handshaking
  · obtain ⟨htries, k, rest, hfr, hk, hrest⟩ := h.counted hn
    obtain ⟨-, ⟨-, -, hst⟩ | ⟨herr, hno, hst⟩ | ⟨herr, hno, htr, hst⟩⟩ := counts_uartSync hn hm
    · -- the handshake restarts
      have hnot : ¬ m.Handshaking := not_handshaking_of hst (by decide) (by decide)
      refine ⟨fun hh => absurd hh hnot, fun hg => ?_⟩
      simp [Session.after, hst] at hg
    · split at hst
      · next hover =>
        -- the call gives up
        have hused : s.net.counted = uartSyncTries := by omega
        obtain ⟨hok, hmark⟩ := hC hused hno
        have hc : s.net.state ≠ .cleanup := by
          intro hc
          rw [Net.counted, if_pos hc] at hused
          cases hused
        rw [if_neg hc] at hk
        have hnot : ¬ m.Handshaking := not_handshaking_of hst (by decide) (by decide)
        refine ⟨fun hh => absurd hh hnot, fun _ => ?_⟩
        have hcalls : (s.after polls m).fruitless = List.replicate (k + 1) true ++ rest := by
          simp [Session.after, fruitless_of_noByte hno herr hok, hfr, List.replicate_succ]
        rw [hcalls, List.take_append_of_le_length (by rw [List.length_replicate]; omega),
          List.take_replicate, Nat.min_eq_left (by omega)]
      · next hover =>
        have hgave : (s.after polls m).gaveUp ≠ true := by
          rcases hst.1 with h | h <;> simp [Session.after, h]
        refine ⟨fun _ => ⟨?_, ?_⟩, fun hg => absurd hg hgave⟩
        · show m.tries ≤ uartSyncTries
          omega
        · by_cases hok : .ok ∈ syncResults polls s.net
          · exact ⟨0, _, Session.streak_of_ok hok⟩
          · refine ⟨k + 1, rest, ⟨?_, ?_, ?_⟩⟩
            · simp [Session.after, fruitless_of_noByte hno herr hok, hfr, List.replicate_succ]
            · simp only [Session.after, hok, if_false]
              omega
            · simpa [Session.after, hok] using hrest
    · -- every step has accepted a byte
      have hok : .ok ∈ syncResults polls s.net := by
        have hne := (counts_uartSync hn hm).1
        cases hrs : syncResults polls s.net with
        | nil => exact absurd hrs hne
        | cons r rs =>
          cases r with
          | ok => exact List.mem_cons_self
          | lineError => simp [hrs] at herr
          | noByte => simp [hrs] at hno
      have hgave : (s.after polls m).gaveUp ≠ true := by
        rcases hst with (h | h) | h <;> simp [Session.after, h]
      refine ⟨fun _ => ⟨?_, 0, _, Session.streak_of_ok hok⟩, fun hg => absurd hg hgave⟩
      show m.tries ≤ uartSyncTries
      omega
  · obtain ⟨hidle, hrs⟩ :=
      syncResults_idle polls (fun hc => hn (Or.inl hc)) fun hh => hn (Or.inr hh)
    obtain rfl : s.net = m := Except.ok.inj (hidle.symm.trans hm)
    refine ⟨fun hh => absurd (Or.inr hh) hn, fun hg => ?_⟩
    simp only [Session.after, decide_eq_true_eq] at hg
    exact absurd hg.2 hg.1

theorem getElem?_of_take {l : List Bool} {n i : ℕ} (h : l.take n = List.replicate n true)
    (hi : i < n) : l[i]? = some true := by
  have := congrArg (fun l => l[i]?) h
  simpa [List.getElem?_take, List.getElem?_replicate, hi] using this

/-- A late byte shows in the calls before the timeout. -/
theorem StreakInv.not_inactive (h : StreakInv s) (hC : ¬ NoLateByte s (.sync polls)) :
    ∃ m, uartSync polls s.net = .ok m ∧ ¬ Inactive (s.after polls m) := by
  obtain ⟨hused, hno, hlate⟩ : s.net.counted = uartSyncTries ∧
      .noByte ∈ syncResults polls s.net ∧
      (.ok ∈ syncResults polls s.net ∨ 1 < s.mark) := by
    simpa [NoLateByte, imp_iff_not_or] using hC
  obtain ⟨m, hm⟩ := uartSync_of_noByte hno
  have hc : s.net.state ≠ .cleanup := by
    intro hc
    rw [Net.counted, if_pos hc] at hused
    cases hused
  have hn : s.net.Handshaking := by
    by_contra hn
    rw [(syncResults_idle polls hc hn).2] at hno
    cases hno
  have hst : m.state = .init := by
    obtain ⟨-, ⟨-, hno', -⟩ | ⟨-, -, hst⟩ | ⟨-, hno', -⟩⟩ := counts_uartSync (Or.inr hn) hm
    · exact absurd hno hno'
    · rwa [if_pos (by omega)] at hst
    · exact absurd hno hno'
  have hgave : (s.after polls m).gaveUp = true := by
    rcases hn with h | h <;> simp [Session.after, h, hst]
  refine ⟨m, hm, fun hin => ?_⟩
  have htake := hin hgave
  rcases hlate with hok | hmark
  · -- the call itself has accepted one
    have hnot : ¬ Fruitless (syncResults polls s.net) := fun h => by simpa using h.2 _ hok
    have := getElem?_of_take htake (i := 0) (by decide)
    simp [Session.after, hnot] at this
  · -- the call that accepted the last one is among them
    obtain ⟨-, k, rest, hfr, hk, hrest⟩ := h.counted (Or.inr hn)
    rw [if_neg hc] at hk hrest
    have := getElem?_of_take htake (i := k + 1) (by omega)
    rw [show (s.after polls m).fruitless[k + 1]? = rest.head? by
      simp [Session.after, hfr, List.getElem?_append_right, List.head?_eq_getElem?]] at this
    rcases hrest with h0 | hrest
    · omega
    · rw [hrest] at this
      cases this

end Call

/-- **A timeout means inactivity exactly when no byte comes late.**  In every run, with
any received entries and any number of sessions, each timeout follows
`UART_SYNC_TRIES` fruitless calls if and only if no call that gives up accepts a
byte, and each session that is given up had counted at most one call when it
accepted its last byte. -/
theorem timeout_inactive_iff (is : List SessionInput) :
    sessionMachine.Always Inactive Session.start is ↔
      sessionMachine.Along NoLateByte Session.start is := by
  refine Machine.always_iff_along (J := StreakInv) (fun _ h => h.inactive) ?_ ?_ is _ ⟨?_, ?_⟩
  · intro s i t h hC ht
    cases i with
    | recv e =>
      cases ht
      refine ⟨fun hh => ?_, by simp [Inactive]⟩
      obtain ⟨htries, k, rest, hs⟩ := h.streak hh
      exact ⟨htries, k, rest, hs.fruitless, hs.tries, hs.accepted⟩
    | sync polls =>
      obtain ⟨m, hm, rfl⟩ := Option.map_eq_some_iff.mp ht
      cases hs : uartSync polls s.net with
      | error f => simp [hs, Except.toOption] at hm
      | ok m' =>
        obtain rfl : m' = m := by simpa [hs, Except.toOption] using hm
        exact h.sync hC hs
    | join =>
      cases ht
      have hnot :=
        not_handshaking_of (n := { s.net with state := .cleanup }) rfl (by simp) (by simp)
      exact ⟨fun hh => absurd hh hnot, by simp [Inactive]⟩
    | leave =>
      cases ht
      have hnot := not_handshaking_of (n := { s.net with state := .init }) rfl (by simp) (by simp)
      exact ⟨fun hh => absurd hh hnot, by simp [Inactive]⟩
  · intro s i h hC
    cases i with
    | sync polls =>
      obtain ⟨m, hm, hnot⟩ := h.not_inactive hC
      exact ⟨s.after polls m, by simp [sessionMachine, hm, Except.toOption], hnot⟩
    | recv e => exact absurd trivial hC
    | join => exact absurd trivial hC
    | leave => exact absurd trivial hC
  · intro hh
    exact absurd hh (by decide)
  · simp [Inactive, Session.start]

/-! ### A handshake that is aborted -/

/-- A call that finds nothing. -/
theorem sync_idle {n : Net} (hw : n.state = .waiting) (hin : n.inFifo = []) :
    uartSync [] n = .ok (settleSync (.noByte, n)) ∧ syncResults [] n = [.noByte] := by
  have hlink := uartSyncLink_empty hin
  have hne : (settleSync (.noByte, n)).state ≠ .linked := by
    unfold settleSync
    dsimp only
    split
    · nofun
    · simp [hw]
  constructor
  · rw [uartSync_waiting [] hw hlink]
    exact connectStage_of_ne hne
  · simp [syncResults, cleanupStage, hw, stageResults, linkResult, hlink, Except.toOption,
      linkStage_of_waiting hw hlink, connectResult, hne]

/-- Calls that find nothing, before the timeout. -/
theorem run_idle : ∀ (k : ℕ) (s : Session), s.net.state = .waiting → s.net.inFifo = [] →
    s.net.tries + k ≤ uartSyncTries → s.gaveUp = false →
    sessionMachine.run s (List.replicate k (.sync [])) = some
      { s with
        net := { s.net with tries := s.net.tries + k }
        fruitless := List.replicate k true ++ s.fruitless } := by
  intro k
  induction k with
  | zero => intro s _ _ _ _; rfl
  | succ k ih =>
    intro s hw hin hk hg
    obtain ⟨hsync, hrs⟩ := sync_idle hw hin
    have hsettle : settleSync (.noByte, s.net) = { s.net with tries := s.net.tries + 1 } := by
      unfold settleSync
      dsimp only
      rw [if_neg (by omega)]
    rw [hsettle] at hsync
    have hstep : sessionMachine.step s (.sync []) = some
        { s with
          net := { s.net with tries := s.net.tries + 1 }
          fruitless := true :: s.fruitless } := by
      simp [sessionMachine, hsync, Except.toOption, Session.after, hrs, Fruitless, hw, hg]
    rw [List.replicate_succ, Machine.run_cons_eq_some]
    refine ⟨_, hstep, ?_⟩
    have hk' : s.net.tries + 1 + k ≤ uartSyncTries := by omega
    have hrun := ih { s with
      net := { s.net with tries := s.net.tries + 1 }
      fruitless := true :: s.fruitless } hw hin hk' hg
    have hcalls : List.replicate k true ++ true :: s.fruitless =
        List.replicate (k + 1) true ++ s.fruitless := by simp [List.replicate_succ']
    have htries : s.net.tries + 1 + k = s.net.tries + (k + 1) := by omega
    rw [hrun]
    simp only [hcalls, htries]

/-- The call that finds nothing when the counter is used up. -/
theorem step_givesUp {s : Session} (hw : s.net.state = .waiting) (hin : s.net.inFifo = [])
    (hk : s.net.tries = uartSyncTries) : sessionMachine.step s (.sync []) = some
      { s with
        net := { s.net with idx := 0, state := .init, tries := 0 }
        fruitless := true :: s.fruitless
        gaveUp := true } := by
  obtain ⟨hsync, hrs⟩ := sync_idle hw hin
  have hsettle : settleSync (.noByte, s.net) =
      { s.net with idx := 0, state := .init, tries := 0 } := by
    unfold settleSync
    dsimp only
    rw [if_pos (by omega)]
  rw [hsettle] at hsync
  simp [sessionMachine, hsync, Except.toOption, Session.after, hrs, Fruitless, hw]

/-- A peer that answers late: its join request comes in after half of the timeout. -/
def lateJoin : List SessionInput :=
  .sync silent :: List.replicate 899 (.sync []) ++
    ([.recv (entry uartJoinRequest), .sync []] ++ List.replicate 901 (.sync []))

/-- A peer that waits, after the driver calls `cs`. -/
def waitingPeer (t : ℕ) (cs : List UartCall) : Net :=
  { Net.start with state := .waiting, tries := t, calls := cs }

/-- It is given up after half of the timeout. -/
theorem lateJoin_aborted : ∃ s, sessionMachine.run Session.start lateJoin = some s ∧
    s.gaveUp = true ∧ ¬ Inactive s := by
  let cs : List UartCall := Net.start.joined.calls
  let cs' : List UartCall := cs ++ [.emptyTransmitQueue, .uartSafeTransmit uartAck]
  have hhalf := run_idle 899 ⟨waitingPeer 1 cs, [true], 0, false⟩ rfl rfl (by decide) rfl
  have hrest := run_idle 900
    ⟨waitingPeer 900 cs', false :: (List.replicate 899 true ++ [true]), 900, false⟩ rfl rfl
    (by decide) rfl
  have hjoin := Machine.run_cons_eq_some.mpr ⟨_, (rfl : sessionMachine.step Session.start
    (.sync silent) = some ⟨waitingPeer 1 cs, [true], 0, false⟩), hhalf⟩
  have htwo : ∀ past, sessionMachine.run ⟨waitingPeer 900 cs, past, 0, false⟩
      [.recv (entry uartJoinRequest), .sync []] = some
      ⟨waitingPeer 900 cs', false :: past, 900, false⟩ := fun _ => rfl
  have hlast := Machine.run_append_eq_some.mpr ⟨_, hrest, Machine.run_cons_eq_some.mpr
    ⟨_, step_givesUp rfl rfl rfl, Machine.run_nil _⟩⟩
  have hcalls : List.replicate 901 (SessionInput.sync []) =
      List.replicate 900 (.sync []) ++ [.sync []] := List.replicate_succ'
  rw [lateJoin, hcalls]
  refine ⟨_, Machine.run_append_eq_some.mpr ⟨_, hjoin, Machine.run_append_eq_some.mpr
    ⟨_, htwo _, hlast⟩⟩, rfl, fun h => ?_⟩
  have hbyte := getElem?_of_take (h rfl) (i := 900 + 1) (by decide)
  rw [List.getElem?_cons_succ, List.getElem?_append_right (by rw [List.length_replicate]),
    List.length_replicate] at hbyte
  cases hbyte

end OperationMinix
