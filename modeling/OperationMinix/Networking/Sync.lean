import OperationMinix.Lib.Uart
import OperationMinix.Runs.Machine
import Mathlib.Tactic.SplitIfs

/-!
# The synchronisation handshake

`uart_sync` of `networking.c`, called once a tick while the multiplayer menu is
open.  A peer that joins drains the line, sends `'J'` and waits.  The peer that
receives a join request acknowledges it with `'O'`; from then on each `'O'` asks
for the next letter of a password and each letter is acknowledged, first for
`"START"`, then, with the parts exchanged, for `"BEGIN"`.  One index serves both
parts: it counts the letters sent by one side and those received by the other.

The networking code uses the UART driver through four calls.  They are recorded
in the order they are made, so that the same model serves over a line that
delivers everything and over the driver of `OperationMinix.Lib.Uart`.  The
answers of `uart_receive_byte` while the line is drained are an input.

A call can fail to be one of C: it may read outside a string literal, and the
loop that drains the line ends only when the line falls silent.  Both are
results of their own (`Fault`).

## Main definitions

* `Net` — the static variables of `networking.c`, the receive queue and the
  calls made on the driver.
* `uartSyncLink`, `uartSyncConnect`, `uartSync` — the handshake.
* `NulAtEnd` — the index stands behind the last letter and a NUL comes in.

## Main results

* `indexSafe_iff` — **the index stays inside the literals exactly on the runs
  that never read a NUL there.**
* `uartSync_ne` — a call in a state of the handshake makes a step.
-/

namespace OperationMinix

open Runs

/-! ### Constants -/

/-- `UART_JOIN_REQUEST`, `'J'`. -/
def uartJoinRequest : Byte := 0x4a

/-- `UART_ACK`, `'O'`. -/
def uartAck : Byte := 0x4f

/-- `UART_GET_RESPONSE`, `'P'`. -/
def uartGetResponse : Byte := 0x50

/-- `UART_SYNC_PASSWORD`, `"START"` with its terminating NUL. -/
def uartSyncPassword : List Byte := [0x53, 0x54, 0x41, 0x52, 0x54, 0x00]

/-- `UART_SYNC_RESPONSE`, `"BEGIN"` with its terminating NUL. -/
def uartSyncResponse : List Byte := [0x42, 0x45, 0x47, 0x49, 0x4e, 0x00]

/-- `UART_PASSWORD_SIZE`. -/
def uartPasswordSize : ℕ := 5

/-- `UART_SYNC_TRIES`. -/
def uartSyncTries : ℕ := 30 * 60

/-! ### State -/

/-- `network_state_t`. -/
inductive NetworkState where
  | init
  | waiting
  | linked
  | connected
  | disconnected
  | cleanup
  deriving DecidableEq, Repr

/-- The calls the networking code makes on the UART driver. -/
inductive UartCall where
  | uartInitFifo
  | emptyTransmitQueue
  | uartSafeTransmit (byte : Byte)
  | uartPushTransmit (byte : Byte)
  deriving DecidableEq, Repr

/-- The static variables of `networking.c` and of its functions, the receive
queue, and the calls made on the driver. -/
structure Net where
  state : NetworkState
  idx : ℕ
  player : ℕ
  /-- The static `tries` of `uart_sync`. -/
  tries : ℕ
  packetIdx : ℕ
  packetTries : ℕ
  /-- The static `bytes` of `uart_receive_data`. -/
  bytes : Vector Byte 3
  inFifo : List Entry
  /-- The calls made on the driver so far, oldest first. -/
  calls : List UartCall
  deriving DecidableEq, Repr

/-- The static initialisers. -/
def Net.start : Net :=
  { state := .cleanup, idx := 0, player := 0, tries := 0, packetIdx := 0, packetTries := 0
    bytes := #v[0, 0, 0], inFifo := [], calls := [] }

/-- A call on the driver. -/
def Net.call (n : Net) (c : UartCall) : Net := { n with calls := n.calls ++ [c] }

/-- The bytes a list of driver calls puts on the line. -/
def wireBytes (cs : List UartCall) : List Byte :=
  cs.filterMap fun
    | .uartSafeTransmit b => some b
    | .uartPushTransmit b => some b
    | _ => none

/-- How a call can fail to return. -/
inductive Fault where
  /-- A string literal is read outside its bytes. -/
  | outOfBounds
  /-- The line never falls silent. -/
  | noReturn
  deriving DecidableEq, Repr

/-- The return values of `uart_sync_link` and `uart_sync_connect`. -/
inductive SyncResult where
  /-- `OK`. -/
  | ok
  /-- `1`: an error mark was read. -/
  | lineError
  /-- `2`: no byte, or none that is expected. -/
  | noByte
  deriving DecidableEq, Repr

/-! ### The handshake -/

/-- The character `literal[i]`. -/
def charAt (literal : List Byte) (i : ℕ) : Except Fault Byte :=
  match literal[i]? with
  | some c => .ok c
  | none => .error .outOfBounds

/-- `uart_sync_link`. -/
def uartSyncLink (n : Net) : Except Fault (SyncResult × Net) :=
  match n.inFifo with
  | [] => .ok (.noByte, n)
  | byte :: rest =>
    let n := { n with inFifo := rest }
    if byte = uartErrorCode then .ok (.lineError, n)
    else if byte = entry uartAck then
      -- the last letter is acknowledged, and it is the other peer's turn
      if n.idx = uartPasswordSize then
        .ok (.ok, { n with state := .linked, idx := 0 }.call (.uartSafeTransmit uartGetResponse))
      else do
        let c ← charAt uartSyncPassword n.idx
        .ok (.ok, { n.call (.uartSafeTransmit c) with idx := n.idx + 1 })
    else if byte = entry uartJoinRequest then
      .ok (.ok, { (n.call .emptyTransmitQueue).call (.uartSafeTransmit uartAck) with idx := 0 })
    else do
      -- any other byte is compared with the letter at the index, the NUL included
      let c ← charAt uartSyncPassword n.idx
      if byte = entry c then
        let n := { n.call (.uartSafeTransmit uartAck) with idx := n.idx + 1 }
        .ok (.ok, if n.idx = uartPasswordSize then { n with state := .linked, idx := 0 } else n)
      else .ok (.noByte, n)

/-- `uart_sync_connect`. -/
def uartSyncConnect (n : Net) : Except Fault (SyncResult × Net) :=
  match n.inFifo with
  | [] => .ok (.noByte, n)
  | byte :: rest =>
    let n := { n with inFifo := rest }
    if byte = uartErrorCode then .ok (.lineError, n)
    else if byte = entry uartAck then
      if n.idx = uartPasswordSize then
        .ok (.ok, { n with state := .connected, player := 1 }.call .emptyTransmitQueue)
      else do
        let c ← charAt uartSyncResponse n.idx
        .ok (.ok, { n.call (.uartSafeTransmit c) with idx := n.idx + 1 })
    else if byte = entry uartGetResponse then do
      let c ← charAt uartSyncResponse 0
      .ok (.ok, { (n.call .emptyTransmitQueue).call (.uartSafeTransmit c) with idx := 1 })
    else do
      let c ← charAt uartSyncResponse n.idx
      if byte = entry c then
        let n := { n.call (.uartSafeTransmit uartAck) with idx := n.idx + 1 }
        .ok (.ok, if n.idx = uartPasswordSize then
          { n with player := 2, state := .connected }.call .emptyTransmitQueue else n)
      else .ok (.noByte, n)

/-- `reset_sync`. -/
def resetSync (n : Net) : Net := { n with state := .cleanup, idx := 0 }

/-- What `uart_sync` does with the result of a link or connect call: an error
mark restarts the handshake, a fruitless call counts towards the timeout. -/
def settleSync (r : SyncResult × Net) : Net :=
  match r.1 with
  | .ok => r.2
  | .lineError => resetSync r.2
  | .noByte =>
    if r.2.tries + 1 > uartSyncTries then { r.2 with idx := 0, state := .init, tries := 0 }
    else { r.2 with tries := r.2.tries + 1 }

/-- The loop of `uart_sync` that drains the line, on the answers of
`uart_receive_byte`: `tries` counts the passes in a row that found nothing, and
`clean` says whether the pass under way has.  `none` when the answers run out
before the loop ends. -/
def cleanupLoop : ℕ → Bool → List RecvResult → Option (List RecvResult)
  | tries, _, [] => if tries < uartMaxTries then none else some []
  | tries, clean, r :: polls =>
    if tries < uartMaxTries then
      if r = .empty then cleanupLoop (if clean then tries + 1 else 0) true polls
      else cleanupLoop tries false polls
    else some (r :: polls)

/-- The `CLEANUP` branch of `uart_sync`. -/
def cleanup (polls : List RecvResult) (n : Net) : Except Fault Net :=
  let n := { n.call .uartInitFifo with idx := 0, packetIdx := 0, packetTries := 0 }
  let n := { n.call .emptyTransmitQueue with inFifo := [] }
  match cleanupLoop n.tries true polls with
  | none => .error .noReturn
  | some _ =>
    .ok { n.call (.uartSafeTransmit uartJoinRequest) with state := .waiting, tries := 0 }

/-- The `CLEANUP` branch, if it is taken. -/
def cleanupStage (polls : List RecvResult) (n : Net) : Except Fault Net :=
  if n.state = .cleanup then cleanup polls n else .ok n

/-- The `WAITING` branch, if it is taken. -/
def linkStage (n : Net) : Except Fault Net :=
  if n.state = .waiting then settleSync <$> uartSyncLink n else .ok n

/-- The `LINKED` branch, if it is taken. -/
def connectStage (n : Net) : Except Fault Net :=
  if n.state = .linked then settleSync <$> uartSyncConnect n else .ok n

/-- `uart_sync`, with the answers of `uart_receive_byte` to the `CLEANUP` branch:
each branch looks at the state the one before has left. -/
def uartSync (polls : List RecvResult) (n : Net) : Except Fault Net := do
  let n ← cleanupStage polls n
  let n ← linkStage n
  connectStage n

/-! ### One call -/

/-- The state after the `CLEANUP` branch. -/
def Net.joined (n : Net) : Net :=
  { n with
    state := .waiting, idx := 0, tries := 0, packetIdx := 0, packetTries := 0, inFifo := []
    calls := n.calls ++ [.uartInitFifo, .emptyTransmitQueue, .uartSafeTransmit uartJoinRequest] }

/-- The state after an entry has been read from the queue, leaving `rest`: the
calls `cs` are made, and the peer is in state `st` with index `i`. -/
def Net.moved (n : Net) (rest : List Entry) (cs : List UartCall) (st : NetworkState) (i : ℕ) :
    Net :=
  { n with state := st, idx := i, inFifo := rest, calls := n.calls ++ cs }

/-- The `CLEANUP` branch has one outcome if its loop ends. -/
theorem cleanup_cases (polls : List RecvResult) (n : Net) :
    cleanup polls n = .ok n.joined ∨ cleanup polls n = .error .noReturn := by
  unfold cleanup
  dsimp only
  split
  · exact Or.inr rfl
  · apply Or.inl
    simp [Net.joined, Net.call]

theorem uartSync_of_cleanup {polls : List RecvResult} {n m : Net} (hc : n.state = .cleanup)
    (hm : cleanup polls n = .ok m) : uartSync polls n = linkStage m >>= connectStage := by
  unfold uartSync cleanupStage
  rw [if_pos hc, hm]
  rfl

theorem uartSync_of_ne_cleanup (polls : List RecvResult) {n : Net} (hc : n.state ≠ .cleanup) :
    uartSync polls n = linkStage n >>= connectStage := by
  unfold uartSync cleanupStage
  rw [if_neg hc]
  rfl

theorem linkStage_of_waiting {n : Net} {r : SyncResult × Net} (hw : n.state = .waiting)
    (hr : uartSyncLink n = .ok r) : linkStage n = .ok (settleSync r) := by
  unfold linkStage
  rw [if_pos hw, hr]
  rfl

theorem linkStage_of_ne {n : Net} (hw : n.state ≠ .waiting) : linkStage n = .ok n := if_neg hw

theorem connectStage_of_linked {n : Net} {r : SyncResult × Net} (hl : n.state = .linked)
    (hr : uartSyncConnect n = .ok r) : connectStage n = .ok (settleSync r) := by
  unfold connectStage
  rw [if_pos hl, hr]
  rfl

theorem connectStage_of_ne {n : Net} (hl : n.state ≠ .linked) : connectStage n = .ok n := if_neg hl

/-- Outside the states of the handshake a call does nothing. -/
theorem uartSync_idle (polls : List RecvResult) {n : Net} (hc : n.state ≠ .cleanup)
    (hw : n.state ≠ .waiting) (hl : n.state ≠ .linked) : uartSync polls n = .ok n := by
  rw [uartSync_of_ne_cleanup polls hc, linkStage_of_ne hw]
  exact connectStage_of_ne hl

/-- A call in `WAITING`: the link step, then the connect step if it has linked. -/
theorem uartSync_waiting (polls : List RecvResult) {n : Net} {r : SyncResult × Net}
    (hw : n.state = .waiting) (hr : uartSyncLink n = .ok r) :
    uartSync polls n = connectStage (settleSync r) := by
  rw [uartSync_of_ne_cleanup polls (by simp [hw]), linkStage_of_waiting hw hr]
  rfl

/-- A call in `LINKED`: the connect step alone. -/
theorem uartSync_linked (polls : List RecvResult) {n : Net} {r : SyncResult × Net}
    (hl : n.state = .linked) (hr : uartSyncConnect n = .ok r) :
    uartSync polls n = .ok (settleSync r) := by
  rw [uartSync_of_ne_cleanup polls (by simp [hl]),
    linkStage_of_ne (by simp [hl])]
  exact connectStage_of_linked hl hr

theorem charAt_of_lt {literal : List Byte} {i : ℕ} (hi : i < literal.length) :
    charAt literal i = .ok (literal.getD i 0) := by
  simp [charAt, List.getD, hi]

theorem charAt_password {i : ℕ} (hi : i ≤ uartPasswordSize) :
    charAt uartSyncPassword i = .ok (uartSyncPassword.getD i 0) :=
  charAt_of_lt (Nat.lt_succ_of_le hi)

theorem charAt_response {i : ℕ} (hi : i ≤ uartPasswordSize) :
    charAt uartSyncResponse i = .ok (uartSyncResponse.getD i 0) :=
  charAt_of_lt (Nat.lt_succ_of_le hi)

/-! ### The branches of the handshake

One lemma for each byte the protocol knows, by the index it is read at. -/

section Branches

variable {n : Net} {rest : List Entry}

theorem uartSyncLink_empty (hin : n.inFifo = []) : uartSyncLink n = .ok (.noByte, n) := by
  unfold uartSyncLink
  rw [hin]

theorem uartSyncConnect_empty (hin : n.inFifo = []) : uartSyncConnect n = .ok (.noByte, n) := by
  unfold uartSyncConnect
  rw [hin]

/-- An acknowledgement asks for the next letter of the password. -/
theorem uartSyncLink_ack (hin : n.inFifo = entry uartAck :: rest) (hi : n.idx < uartPasswordSize) :
    uartSyncLink n = .ok (.ok, n.moved rest
      [.uartSafeTransmit (uartSyncPassword.getD n.idx 0)] n.state (n.idx + 1)) := by
  unfold uartSyncLink
  rw [hin]
  dsimp only
  rw [if_neg (by decide), if_pos rfl, if_neg (Nat.ne_of_lt hi), charAt_password (Nat.le_of_lt hi)]
  rfl

/-- The acknowledgement of the whole password asks for the response. -/
theorem uartSyncLink_lastAck (hin : n.inFifo = entry uartAck :: rest)
    (hi : n.idx = uartPasswordSize) :
    uartSyncLink n = .ok (.ok, n.moved rest [.uartSafeTransmit uartGetResponse] .linked 0) := by
  unfold uartSyncLink
  rw [hin]
  dsimp only
  rw [if_neg (by decide), if_pos rfl, if_pos hi]
  rfl

/-- A join request is acknowledged. -/
theorem uartSyncLink_join (hin : n.inFifo = entry uartJoinRequest :: rest) :
    uartSyncLink n = .ok (.ok, n.moved rest
      [.emptyTransmitQueue, .uartSafeTransmit uartAck] n.state 0) := by
  unfold uartSyncLink
  rw [hin]
  dsimp only
  rw [if_neg (by decide), if_neg (by decide), if_pos rfl]
  simp [Net.call, Net.moved]

/-- No letter of the password is an error mark or a byte of the protocol. -/
theorem uartSyncPassword_letter : ∀ i < uartPasswordSize,
    entry (uartSyncPassword.getD i 0) ≠ uartErrorCode ∧
      entry (uartSyncPassword.getD i 0) ≠ entry uartAck ∧
      entry (uartSyncPassword.getD i 0) ≠ entry uartJoinRequest := by decide

/-- Nor is a letter of the response. -/
theorem uartSyncResponse_letter : ∀ i < uartPasswordSize,
    entry (uartSyncResponse.getD i 0) ≠ uartErrorCode ∧
      entry (uartSyncResponse.getD i 0) ≠ entry uartAck ∧
      entry (uartSyncResponse.getD i 0) ≠ entry uartGetResponse := by decide

/-- The expected letter of the password is acknowledged, and the last one links
the peer. -/
theorem uartSyncLink_letter (hi : n.idx < uartPasswordSize)
    (hin : n.inFifo = entry (uartSyncPassword.getD n.idx 0) :: rest) :
    uartSyncLink n = .ok (.ok, if n.idx + 1 = uartPasswordSize
      then n.moved rest [.uartSafeTransmit uartAck] .linked 0
      else n.moved rest [.uartSafeTransmit uartAck] n.state (n.idx + 1)) := by
  obtain ⟨herr, hack, hjoin⟩ := uartSyncPassword_letter n.idx hi
  unfold uartSyncLink
  rw [hin]
  dsimp only
  rw [if_neg herr, if_neg hack, if_neg hjoin, charAt_password (Nat.le_of_lt hi)]
  dsimp only [bind, Except.bind]
  rw [if_pos rfl]
  rfl

/-- A byte the protocol does not expect is dropped. -/
theorem uartSyncLink_unexpected {b : Byte} (hi : n.idx ≤ uartPasswordSize)
    (hin : n.inFifo = entry b :: rest) (herr : entry b ≠ uartErrorCode)
    (hack : entry b ≠ entry uartAck) (hjoin : entry b ≠ entry uartJoinRequest)
    (hletter : entry b ≠ entry (uartSyncPassword.getD n.idx 0)) :
    uartSyncLink n = .ok (.noByte, { n with inFifo := rest }) := by
  unfold uartSyncLink
  rw [hin]
  dsimp only
  rw [if_neg herr, if_neg hack, if_neg hjoin, charAt_password hi]
  dsimp only [bind, Except.bind]
  rw [if_neg hletter]

/-- An acknowledgement asks for the next letter of the response. -/
theorem uartSyncConnect_ack (hin : n.inFifo = entry uartAck :: rest)
    (hi : n.idx < uartPasswordSize) :
    uartSyncConnect n = .ok (.ok, n.moved rest
      [.uartSafeTransmit (uartSyncResponse.getD n.idx 0)] n.state (n.idx + 1)) := by
  unfold uartSyncConnect
  rw [hin]
  dsimp only
  rw [if_neg (by decide), if_pos rfl, if_neg (Nat.ne_of_lt hi), charAt_response (Nat.le_of_lt hi)]
  rfl

/-- The acknowledgement of the whole response makes the peer player 1. -/
theorem uartSyncConnect_lastAck (hin : n.inFifo = entry uartAck :: rest)
    (hi : n.idx = uartPasswordSize) :
    uartSyncConnect n = .ok (.ok,
      { n.moved rest [.emptyTransmitQueue] .connected uartPasswordSize with player := 1 }) := by
  unfold uartSyncConnect
  rw [hin]
  dsimp only
  rw [if_neg (by decide), if_pos rfl, if_pos hi, ← hi]
  rfl

/-- A request for the response is answered with its first letter. -/
theorem uartSyncConnect_getResponse (hin : n.inFifo = entry uartGetResponse :: rest) :
    uartSyncConnect n = .ok (.ok, n.moved rest
      [.emptyTransmitQueue, .uartSafeTransmit (uartSyncResponse.getD 0 0)] n.state 1) := by
  unfold uartSyncConnect
  rw [hin]
  dsimp only
  rw [if_neg (by decide), if_neg (by decide), if_pos rfl, charAt_response (Nat.zero_le _)]
  simp [bind, Except.bind, Net.call, Net.moved]

/-- The expected letter of the response is acknowledged, and the last one makes
the peer player 2. -/
theorem uartSyncConnect_letter (hi : n.idx < uartPasswordSize)
    (hin : n.inFifo = entry (uartSyncResponse.getD n.idx 0) :: rest) :
    uartSyncConnect n = .ok (.ok, if n.idx + 1 = uartPasswordSize
      then { n.moved rest [.uartSafeTransmit uartAck, .emptyTransmitQueue]
        .connected (n.idx + 1) with player := 2 }
      else n.moved rest [.uartSafeTransmit uartAck] n.state (n.idx + 1)) := by
  obtain ⟨herr, hack, hget⟩ := uartSyncResponse_letter n.idx hi
  unfold uartSyncConnect
  rw [hin]
  dsimp only
  rw [if_neg herr, if_neg hack, if_neg hget, charAt_response (Nat.le_of_lt hi)]
  dsimp only [bind, Except.bind]
  rw [if_pos rfl]
  simp [Net.call, Net.moved]

end Branches

/-! ### Reading the queue

A call reads the queue from its front, and none leads to `DISCONNECTED`. -/

section Reads

variable {n m : Net} {r : SyncResult × Net}

/-- **What a link step can do.**  It reads the entry at the front of the queue,
if there is one, and only a byte it accepts moves the peer. -/
theorem uartSyncLink_cases (h : uartSyncLink n = .ok r) :
    (r.1 ≠ .ok ∧ r.2 = { n with inFifo := n.inFifo.tail }) ∨
      ∃ calls idx state, (state = n.state ∨ state = .linked) ∧
        r = (.ok, n.moved n.inFifo.tail calls state idx) := by
  unfold uartSyncLink at h
  split at h
  · next hin =>
    cases h
    refine Or.inl ⟨nofun, ?_⟩
    rw [hin]
    cases n
    cases hin
    rfl
  · next byte rest hin =>
    rw [hin]
    dsimp only at h
    split_ifs at h
    · cases h
      exact Or.inl ⟨nofun, rfl⟩
    · cases h
      exact Or.inr ⟨_, _, _, Or.inr rfl, rfl⟩
    · cases hc : charAt uartSyncPassword n.idx with
      | error f => rw [hc] at h; cases h
      | ok ch => rw [hc] at h; cases h; exact Or.inr ⟨_, _, _, Or.inl rfl, rfl⟩
    · cases h
      exact Or.inr ⟨[.emptyTransmitQueue, .uartSafeTransmit uartAck], 0, _, Or.inl rfl,
        by simp [Net.call, Net.moved]⟩
    all_goals
      cases hc : charAt uartSyncPassword n.idx with
      | error f => rw [hc] at h; cases h
      | ok ch =>
        rw [hc] at h
        simp only [bind, Except.bind] at h
        split at h
        · cases h
          first
            | exact Or.inr ⟨_, _, _, Or.inl rfl, rfl⟩
            | exact Or.inr ⟨_, _, _, Or.inr rfl, rfl⟩
        · cases h
          exact Or.inl ⟨nofun, rfl⟩

/-- **What a connect step can do.**  As a link step, and the byte that connects
the peer makes it player 1 or player 2. -/
theorem uartSyncConnect_cases (h : uartSyncConnect n = .ok r) :
    (r.1 ≠ .ok ∧ r.2 = { n with inFifo := n.inFifo.tail }) ∨
      (∃ calls idx, r = (.ok, n.moved n.inFifo.tail calls n.state idx)) ∨
      r = (.ok, { n.moved n.inFifo.tail [.emptyTransmitQueue] .connected n.idx with player := 1 }) ∨
      r = (.ok, { n.moved n.inFifo.tail [.uartSafeTransmit uartAck, .emptyTransmitQueue]
        .connected (n.idx + 1) with player := 2 }) := by
  unfold uartSyncConnect at h
  split at h
  · next hin =>
    cases h
    refine Or.inl ⟨nofun, ?_⟩
    rw [hin]
    cases n
    cases hin
    rfl
  · next byte rest hin =>
    rw [hin]
    dsimp only at h
    split_ifs at h
    · cases h
      exact Or.inl ⟨nofun, rfl⟩
    · cases h
      exact Or.inr (Or.inr (Or.inl rfl))
    · cases hc : charAt uartSyncResponse n.idx with
      | error f => rw [hc] at h; cases h
      | ok ch => rw [hc] at h; cases h; exact Or.inr (Or.inl ⟨_, _, rfl⟩)
    · cases h
      exact Or.inr (Or.inl ⟨[.emptyTransmitQueue, .uartSafeTransmit (uartSyncResponse.getD 0 0)],
        1, by simp [Net.call, Net.moved, uartSyncResponse]⟩)
    · cases hc : charAt uartSyncResponse n.idx with
      | error f => rw [hc] at h; cases h
      | ok ch =>
        rw [hc] at h
        simp only [bind, Except.bind] at h
        split at h
        · cases h
          exact Or.inr (Or.inr (Or.inr (by simp [Net.call, Net.moved])))
        · cases h
          exact Or.inl ⟨nofun, rfl⟩
    · cases hc : charAt uartSyncResponse n.idx with
      | error f => rw [hc] at h; cases h
      | ok ch =>
        rw [hc] at h
        simp only [bind, Except.bind] at h
        split at h
        · cases h
          exact Or.inr (Or.inl ⟨_, _, rfl⟩)
        · cases h
          exact Or.inl ⟨nofun, rfl⟩

/-- A link step reads one entry, if there is one. -/
theorem uartSyncLink_reads (h : uartSyncLink n = .ok r) :
    r.2.inFifo = n.inFifo.tail ∧ (r.2.state = .disconnected → n.state = .disconnected) := by
  rcases uartSyncLink_cases h with ⟨-, hr⟩ | ⟨calls, idx, state, rfl | rfl, rfl⟩
  · rw [hr]; exact ⟨rfl, id⟩
  · exact ⟨rfl, id⟩
  · exact ⟨rfl, nofun⟩

/-- A connect step reads one entry, if there is one. -/
theorem uartSyncConnect_reads (h : uartSyncConnect n = .ok r) :
    r.2.inFifo = n.inFifo.tail ∧ (r.2.state = .disconnected → n.state = .disconnected) := by
  rcases uartSyncConnect_cases h with ⟨-, hr⟩ | ⟨calls, idx, rfl⟩ | rfl | rfl
  · rw [hr]; exact ⟨rfl, id⟩
  · exact ⟨rfl, id⟩
  · exact ⟨rfl, nofun⟩
  · exact ⟨rfl, nofun⟩

theorem settleSync_reads (r : SyncResult × Net) :
    (settleSync r).inFifo = r.2.inFifo ∧
      ((settleSync r).state = .disconnected → r.2.state = .disconnected) := by
  obtain ⟨e, n⟩ := r
  cases e with
  | ok => exact ⟨rfl, id⟩
  | lineError => exact ⟨rfl, nofun⟩
  | noByte =>
    unfold settleSync
    dsimp only
    split
    · exact ⟨rfl, nofun⟩
    · exact ⟨rfl, id⟩

/-- The link branch reads one entry when it is taken. -/
theorem linkStage_reads (h : linkStage n = .ok m) :
    m.inFifo = (if n.state = .waiting then n.inFifo.tail else n.inFifo) ∧
      (m.state = .disconnected → n.state = .disconnected) := by
  unfold linkStage at h
  split at h
  · next hw =>
    cases hr : uartSyncLink n with
    | error f => rw [hr] at h; cases h
    | ok r =>
      rw [hr] at h
      cases h
      obtain ⟨hin, hst⟩ := uartSyncLink_reads hr
      obtain ⟨hin', hst'⟩ := settleSync_reads r
      exact ⟨by rw [if_pos hw, hin', hin], fun hd => hst (hst' hd)⟩
  · next hw =>
    cases h
    exact ⟨by rw [if_neg hw], id⟩

/-- The connect branch reads one entry when it is taken. -/
theorem connectStage_reads (h : connectStage n = .ok m) :
    m.inFifo = (if n.state = .linked then n.inFifo.tail else n.inFifo) ∧
      (m.state = .disconnected → n.state = .disconnected) := by
  unfold connectStage at h
  split at h
  · next hl =>
    cases hr : uartSyncConnect n with
    | error f => rw [hr] at h; cases h
    | ok r =>
      rw [hr] at h
      cases h
      obtain ⟨hin, hst⟩ := uartSyncConnect_reads hr
      obtain ⟨hin', hst'⟩ := settleSync_reads r
      exact ⟨by rw [if_pos hl, hin', hin], fun hd => hst (hst' hd)⟩
  · next hl =>
    cases h
    exact ⟨by rw [if_neg hl], id⟩

/-- The two branches of a call, one after the other. -/
theorem bind_stages (h : linkStage n >>= connectStage = .ok m) :
    ∃ k, linkStage n = .ok k ∧ connectStage k = .ok m := by
  cases hk : linkStage n with
  | error f => rw [hk] at h; cases h
  | ok k => rw [hk] at h; exact ⟨k, rfl, h⟩

/-- **No call disconnects.** -/
theorem uartSync_disconnected {polls : List RecvResult} (h : uartSync polls n = .ok m)
    (hm : m.state = .disconnected) : n.state = .disconnected := by
  by_cases hc : n.state = .cleanup
  · obtain hj | hj := cleanup_cases polls n
    · rw [uartSync_of_cleanup hc hj] at h
      obtain ⟨k, hk, hkm⟩ := bind_stages h
      -- the state between the branches is the one of a peer that has just joined
      have hjoined := (linkStage_reads hk).2 ((connectStage_reads hkm).2 hm)
      cases hjoined
    · unfold uartSync cleanupStage at h
      rw [if_pos hc, hj] at h
      cases h
  · rw [uartSync_of_ne_cleanup polls hc] at h
    obtain ⟨k, hk, hkm⟩ := bind_stages h
    exact (linkStage_reads hk).2 ((connectStage_reads hkm).2 hm)

/-- A call that finds nothing counts towards the timeout, or gives up. -/
theorem settleSync_noByte_ne (n : Net) : settleSync (.noByte, n) ≠ n := by
  intro h
  have htries : (settleSync (.noByte, n)).tries = n.tries := by rw [h]
  unfold settleSync uartSyncTries at htries
  dsimp only at htries
  split at htries
  · dsimp only at htries
    omega
  · dsimp only at htries
    omega

theorem eq_nil_of_eq_tail {l : List Entry} (h : l = l.tail ∨ l = l.tail.tail) : l = [] := by
  cases l with
  | nil => rfl
  | cons e es =>
    have hlen : (e :: es).length ≤ es.length := by
      rcases h with h | h
      · exact Nat.le_of_eq (congrArg List.length h)
      · rw [h, List.length_tail]
        exact Nat.sub_le _ _
    exact absurd hlen (Nat.not_succ_le_self _)

/-- **A call in one of the three states of the handshake makes a step.** -/
theorem uartSync_ne (polls : List RecvResult)
    (hn : n.state = .cleanup ∨ n.state = .waiting ∨ n.state = .linked) :
    uartSync polls n ≠ .ok n := by
  intro h
  rcases hn with hc | hw | hl
  · obtain hj | hj := cleanup_cases polls n
    · rw [uartSync_of_cleanup hc hj, linkStage_of_waiting rfl (uartSyncLink_empty rfl)] at h
      have hstate := congrArg (fun x : Except Fault Net => x.map Net.state) h
      simp [settleSync, Net.joined, uartSyncTries, connectStage, Except.map, bind, Except.bind, hc]
        at hstate
    · unfold uartSync cleanupStage at h
      rw [if_pos hc, hj] at h
      cases h
  · rw [uartSync_of_ne_cleanup polls (by simp [hw])] at h
    obtain ⟨k, hk, hkn⟩ := bind_stages h
    have hlink := (linkStage_reads hk).1
    have hconnect := (connectStage_reads hkn).1
    rw [if_pos hw] at hlink
    -- an entry that was read would be missing
    have hin : n.inFifo = [] := by
      apply eq_nil_of_eq_tail
      rw [hlink] at hconnect
      split at hconnect
      · exact Or.inr hconnect
      · exact Or.inl hconnect
    rw [linkStage_of_waiting hw (uartSyncLink_empty hin), Except.ok.injEq] at hk
    have hnot : k.state ≠ .linked := by
      rw [← hk]
      unfold settleSync
      dsimp only
      split
      · exact nofun
      · rw [hw]; decide
    rw [connectStage_of_ne hnot, Except.ok.injEq] at hkn
    exact settleSync_noByte_ne n (hk.trans hkn)
  · rw [uartSync_of_ne_cleanup polls (by simp [hl])] at h
    obtain ⟨k, hk, hkn⟩ := bind_stages h
    rw [linkStage_of_ne (by simp [hl]), Except.ok.injEq] at hk
    rw [← hk] at hkn
    have hconnect := (connectStage_reads hkn).1
    rw [if_pos hl] at hconnect
    have hin : n.inFifo = [] := eq_nil_of_eq_tail (Or.inl hconnect)
    rw [connectStage_of_linked hl (uartSyncConnect_empty hin), Except.ok.injEq] at hkn
    exact settleSync_noByte_ne n hkn

end Reads

/-- The index stands behind the last letter of a password and the next byte is a
NUL, which is what the literal holds there. -/
def NulAtEnd (n : Net) : Prop :=
  (n.state = .waiting ∨ n.state = .linked) ∧ n.idx = uartPasswordSize ∧ n.inFifo.head? = some 0

instance (n : Net) : Decidable (NulAtEnd n) := inferInstanceAs (Decidable (_ ∧ _ ∧ _))

/-- **What `uart_sync_link` does to the index.**  From an index inside the
literal the call returns, and it leaves an index inside the literal unless it
read the NUL behind the last letter. -/
theorem uartSyncLink_idx {n : Net} (hi : n.idx ≤ uartPasswordSize) :
    ∃ r, uartSyncLink n = .ok r ∧
      (r.2.idx ≤ uartPasswordSize ∨ n.idx = uartPasswordSize ∧ n.inFifo.head? = some 0) ∧
      (r.2.state = n.state ∨ r.2.idx = 0) := by
  unfold uartSyncLink
  split
  · exact ⟨_, rfl, Or.inl hi, Or.inl rfl⟩
  · next byte rest hin =>
    dsimp only
    rw [charAt_password hi]
    dsimp only [bind, Except.bind]
    split_ifs with _ _ hfull _ hletter hlast
    · exact ⟨_, rfl, Or.inl hi, Or.inl rfl⟩
    · exact ⟨_, rfl, Or.inl (Nat.zero_le _), Or.inr rfl⟩
    · exact ⟨_, rfl, Or.inl (Nat.lt_of_le_of_ne hi hfull), Or.inl rfl⟩
    · exact ⟨_, rfl, Or.inl (Nat.zero_le _), Or.inr rfl⟩
    · exact ⟨_, rfl, Or.inl (Nat.zero_le _), Or.inr rfl⟩
    · -- the accepted byte is a letter, or the NUL behind the last one
      refine ⟨_, rfl, ?_, Or.inl rfl⟩
      rcases Nat.eq_or_lt_of_le hi with heq | hlt
      · rw [heq] at hletter
        exact Or.inr ⟨heq, by rw [hin, hletter]; rfl⟩
      · exact Or.inl hlt
    · exact ⟨_, rfl, Or.inl hi, Or.inl rfl⟩

/-- **What `uart_sync_connect` does to the index.** -/
theorem uartSyncConnect_idx {n : Net} (hi : n.idx ≤ uartPasswordSize) :
    ∃ r, uartSyncConnect n = .ok r ∧
      (r.2.idx ≤ uartPasswordSize ∨ n.idx = uartPasswordSize ∧ n.inFifo.head? = some 0) := by
  unfold uartSyncConnect
  split
  · exact ⟨_, rfl, Or.inl hi⟩
  · next byte rest hin =>
    dsimp only
    rw [charAt_response hi, charAt_response (Nat.zero_le _)]
    dsimp only [bind, Except.bind]
    split_ifs with _ _ hfull _ hletter hlast
    · exact ⟨_, rfl, Or.inl hi⟩
    · exact ⟨_, rfl, Or.inl hi⟩
    · exact ⟨_, rfl, Or.inl (Nat.lt_of_le_of_ne hi hfull)⟩
    · exact ⟨_, rfl, Or.inl (Nat.succ_le_succ (Nat.zero_le _))⟩
    · exact ⟨_, rfl, Or.inl (Nat.le_of_eq hlast)⟩
    · refine ⟨_, rfl, ?_⟩
      rcases Nat.eq_or_lt_of_le hi with heq | hlt
      · rw [heq] at hletter
        exact Or.inr ⟨heq, by rw [hin, hletter]; rfl⟩
      · exact Or.inl hlt
    · exact ⟨_, rfl, Or.inl hi⟩

/-- Settling a result resets the index or leaves it. -/
theorem settleSync_idx (r : SyncResult × Net) :
    (settleSync r).idx = 0 ∨ (settleSync r).idx = r.2.idx ∧ (settleSync r).state = r.2.state := by
  obtain ⟨e, n⟩ := r
  cases e with
  | ok => exact Or.inr ⟨rfl, rfl⟩
  | lineError => exact Or.inl rfl
  | noByte =>
    unfold settleSync
    dsimp only
    split
    · exact Or.inl rfl
    · exact Or.inr ⟨rfl, rfl⟩

theorem linkStage_idx {n : Net} (hi : n.idx ≤ uartPasswordSize) (hn : ¬ NulAtEnd n) :
    ∃ m, linkStage n = .ok m ∧ m.idx ≤ uartPasswordSize ∧
      (m = n ∨ m.state = .waiting ∨ m.idx = 0) := by
  unfold linkStage
  split
  · next hw =>
    obtain ⟨r, hr, hidx, hst⟩ := uartSyncLink_idx hi
    have hidx : r.2.idx ≤ uartPasswordSize := by
      rcases hidx with h | h
      · exact h
      · exact absurd ⟨Or.inl hw, h⟩ hn
    refine ⟨settleSync r, by rw [hr]; rfl, ?_⟩
    rcases settleSync_idx r with h0 | ⟨h1, h2⟩
    · exact ⟨by omega, Or.inr (Or.inr h0)⟩
    · rw [h1, h2]
      rcases hst with hst | hst
      · exact ⟨hidx, Or.inr (Or.inl (hst.trans hw))⟩
      · exact ⟨hidx, Or.inr (Or.inr hst)⟩
  · exact ⟨n, rfl, hi, Or.inl rfl⟩

theorem connectStage_idx {n : Net} (hi : n.idx ≤ uartPasswordSize)
    (hn : n.state = .linked → ¬ (n.idx = uartPasswordSize ∧ n.inFifo.head? = some 0)) :
    ∃ m, connectStage n = .ok m ∧ m.idx ≤ uartPasswordSize := by
  unfold connectStage
  split
  · next hl =>
    obtain ⟨r, hr, hidx⟩ := uartSyncConnect_idx hi
    have hidx : r.2.idx ≤ uartPasswordSize := by
      rcases hidx with h | h
      · exact h
      · exact absurd h (hn hl)
    refine ⟨settleSync r, by rw [hr]; rfl, ?_⟩
    rcases settleSync_idx r with h0 | ⟨h1, -⟩ <;> omega
  · exact ⟨n, rfl, hi⟩

/-- The index inside the literals stays there in a call that does not read the
NUL behind the last letter; such a call reads no literal outside its bytes. -/
theorem uartSync_idx (polls : List RecvResult) {n : Net} (hi : n.idx ≤ uartPasswordSize)
    (hn : ¬ NulAtEnd n) :
    (∃ m, uartSync polls n = .ok m ∧ m.idx ≤ uartPasswordSize) ∨
      uartSync polls n = .error .noReturn := by
  -- the stages after CLEANUP, from any state they can start in
  have hrest : ∀ a : Net, a.idx ≤ uartPasswordSize → ¬ NulAtEnd a →
      ∃ m, (linkStage a >>= connectStage) = .ok m ∧ m.idx ≤ uartPasswordSize := by
    intro a ha hna
    obtain ⟨b, hb, hbi, hcase⟩ := linkStage_idx ha hna
    have hcon : b.state = .linked → ¬ (b.idx = uartPasswordSize ∧ b.inFifo.head? = some 0) := by
      intro hl hnul
      rcases hcase with rfl | hw | h0
      · exact hna ⟨Or.inr hl, hnul⟩
      · rw [hw] at hl; cases hl
      · rw [h0] at hnul; exact absurd hnul.1 (by decide)
    obtain ⟨m, hm, hmi⟩ := connectStage_idx hbi hcon
    exact ⟨m, by rw [hb]; exact hm, hmi⟩
  by_cases hc : n.state = .cleanup
  · rcases cleanup_cases polls n with hm | hm
    · rw [uartSync_of_cleanup hc hm]
      refine Or.inl (hrest _ (Nat.zero_le _) ?_)
      rintro ⟨-, h, -⟩
      cases h
    · apply Or.inr
      unfold uartSync cleanupStage
      rw [if_pos hc, hm]
      rfl
  · rw [uartSync_of_ne_cleanup polls hc]
    exact Or.inl (hrest n hi hn)

/-- Reading the NUL moves the index past the literal. -/
theorem uartSync_nulAtEnd (polls : List RecvResult) {n : Net} (hn : NulAtEnd n) :
    ∃ m, uartSync polls n = .ok m ∧ m.idx = uartPasswordSize + 1 := by
  obtain ⟨hst, hi, hhead⟩ := hn
  obtain ⟨rest, hin⟩ : ∃ rest, n.inFifo = 0 :: rest := by
    cases hq : n.inFifo with
    | nil => rw [hq] at hhead; cases hhead
    | cons b rest => rw [hq] at hhead; cases hhead; exact ⟨rest, rfl⟩
  -- either branch compares the NUL with the one it finds behind the last letter
  have hletter : ∀ f, f = uartSyncLink ∨ f = uartSyncConnect →
      f n = .ok (.ok, n.moved rest [.uartSafeTransmit uartAck] n.state (uartPasswordSize + 1)) := by
    rintro f (rfl | rfl)
    · unfold uartSyncLink
      rw [hin]
      dsimp only
      rw [hi]
      rfl
    · unfold uartSyncConnect
      rw [hin]
      dsimp only
      rw [hi]
      rfl
  refine ⟨n.moved rest [.uartSafeTransmit uartAck] n.state (uartPasswordSize + 1), ?_, rfl⟩
  rcases hst with hw | hl
  · rw [uartSync_waiting polls hw (hletter _ (Or.inl rfl))]
    apply connectStage_of_ne
    show n.state ≠ .linked
    rw [hw]
    decide
  · exact uartSync_linked polls hl (hletter _ (Or.inr rfl))

/-! ### Runs of the handshake -/

/-- What happens to one peer: an entry is queued, or `uart_sync` is called. -/
inductive SyncInput where
  | recv (e : Entry)
  | sync (polls : List RecvResult)
  deriving DecidableEq, Repr

/-- One peer and whatever comes in on its line. -/
def syncMachine : Machine Net SyncInput where
  step n
    | .recv e => some { n with inFifo := n.inFifo ++ [e] }
    | .sync polls => (uartSync polls n).toOption

/-- The index is inside the literals, and so is every read of the next call. -/
def IndexSafe (n : Net) : Prop :=
  n.idx ≤ uartPasswordSize ∧ ∀ polls, uartSync polls n ≠ .error .outOfBounds

/-- The call does not read the NUL behind the last letter. -/
def NoNulAtEnd (n : Net) : SyncInput → Prop
  | .recv _ => True
  | .sync _ => ¬ NulAtEnd n

instance (n : Net) : ∀ i, Decidable (NoNulAtEnd n i)
  | .recv _ => isTrue trivial
  | .sync _ => inferInstanceAs (Decidable (¬ NulAtEnd n))

theorem indexSafe_of_le {n : Net} (hi : n.idx ≤ uartPasswordSize) : IndexSafe n := by
  refine ⟨hi, fun polls h => ?_⟩
  by_cases hn : NulAtEnd n
  · obtain ⟨m, hm, -⟩ := uartSync_nulAtEnd polls hn
    rw [hm] at h
    cases h
  · rcases uartSync_idx polls hi hn with ⟨m, hm, -⟩ | hm <;> rw [hm] at h <;> cases h

/-- **Exactly when the handshake index is safe.**  From `CLEANUP` or any other
state with an index within the literals, whatever is received and however often
`uart_sync` is called, the index stays there and no read leaves them exactly on
the runs in which no call reads a NUL while the index stands behind the last
letter. -/
theorem indexSafe_iff (n : Net) (hn : n.idx ≤ uartPasswordSize) (is : List SyncInput) :
    syncMachine.Always IndexSafe n is ↔ syncMachine.Along NoNulAtEnd n is := by
  refine Machine.always_iff_along (J := fun n => n.idx ≤ uartPasswordSize)
    (fun _ hi => indexSafe_of_le hi) ?_ ?_ is n hn
  · intro n i m hi hC hm
    cases i with
    | recv e => cases hm; exact hi
    | sync polls =>
      rcases uartSync_idx polls hi hC with ⟨m', hm', hi'⟩ | herr
      · simp only [syncMachine, hm', Except.toOption, Option.some.injEq] at hm
        exact hm ▸ hi'
      · simp [syncMachine, herr, Except.toOption] at hm
  · intro n i hi hC
    cases i with
    | recv e => exact absurd trivial hC
    | sync polls =>
      obtain ⟨m, hm, hidx⟩ := uartSync_nulAtEnd polls (not_not.mp hC)
      refine ⟨m, by simp [syncMachine, hm, Except.toOption], fun hsafe => ?_⟩
      have := hsafe.1
      omega

/-- Five acknowledgements, which move the index behind the last letter. -/
def fiveAcks : List SyncInput :=
  .sync (List.replicate uartMaxTries .empty) ::
    (List.replicate uartPasswordSize [.recv (entry uartAck), .sync []]).flatten

/-- The password sent to its end is within the literal. -/
theorem indexSafe_fiveAcks : syncMachine.Always IndexSafe Net.start fiveAcks :=
  (indexSafe_iff Net.start (Nat.zero_le _) fiveAcks).mpr (by decide)

/-- A NUL is taken for the letter behind the last one: the index is six, and the
next comparison reads outside the literal. -/
theorem not_indexSafe_nul :
    ¬ syncMachine.Always IndexSafe Net.start (fiveAcks ++ [.recv 0, .sync []]) ∧
      ∃ n, syncMachine.run Net.start (fiveAcks ++ [.recv 0, .sync []]) = some n ∧ n.idx = 6 ∧
        uartSync [] { n with inFifo := [entry uartAck] } = .error .outOfBounds := by
  refine ⟨fun h => ?_, _, rfl, rfl, rfl⟩
  have hidx := (Machine.always_run _ _ _ h rfl).1
  revert hidx
  decide

end OperationMinix
