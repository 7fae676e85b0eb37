import OperationMinix.Networking.Sync
import OperationMinix.Runs.Duplex
import Mathlib.Data.Fintype.Basic
import Mathlib.Tactic.FinCases

/-!
# Two peers shaking hands

Two peers run `uart_sync` on the two ends of a line that loses nothing.  Both
run the same code and nothing tells them apart in advance: the roles emerge from
the order in which the bytes cross.

If the second peer to leave `CLEANUP` does so with nothing in flight towards it,
exactly one byte is in flight from then on, and the pair walks through a fixed
list of positions (`Phase`), each of which says where the two peers stand and
which byte is on its way to whom.  The peer that left `CLEANUP` first receives
the password and becomes player 1, the other becomes player 2.

If the join request of the first is still in flight when the second leaves
`CLEANUP`, the requests cross.  Each peer takes the other's request for the
start of a conversation in which the other leads, and after three bytes each
way (`Crossed`) both wait for ever.

## Main definitions

* `syncPeer` — a peer of the handshake, as an endpoint of a duplex line.
* `Phase` — the positions of an orderly handshake.
* `Shape` — what the pair looks like at any moment.

## Main results

* `handshake_agreement` — **the roles are agreed on whenever both peers are
  connected**, in every interleaving.
* `handshake_progress` — **an orderly handshake never gets stuck.**
-/

namespace OperationMinix

open Runs

/-! ### One peer -/

/-- The answers of `uart_receive_byte` on a silent line.  A byte that arrives
while the line is drained is one that was delivered just before. -/
def silent : List RecvResult := List.replicate uartMaxTries .empty

/-- A peer before a call, with no calls on the driver recorded. -/
def Net.noCalls (n : Net) : Net := { n with calls := [] }

/-- A peer of the handshake: it calls `uart_sync`, and queues what arrives. -/
def syncPeer : Endpoint Net Unit Byte where
  act n _ := (uartSync silent n.noCalls).toOption.map fun m => (m, wireBytes m.calls)
  receive n b := { n with inFifo := n.inFifo ++ [entry b] }

/-- What is on its way to a peer: the bytes it has queued and those in flight. -/
def inFlight (s : Duplex Net Byte) (p : Side) : List Entry :=
  Duplex.pending Net.inFifo entry s p

/-- Where a peer stands: its state, its index, and the player it has become, if
it has become one. -/
structure Station where
  state : NetworkState
  idx : ℕ
  player : Option ℕ := none
  deriving DecidableEq, Repr

/-- The station of a peer. -/
def Net.station (n : Net) : Station :=
  { state := n.state, idx := n.idx, player := if n.state = .connected then some n.player else none }

theorem Net.station_eq_none {n : Net} {st : NetworkState} {i : ℕ} (hst : st ≠ .connected) :
    n.station = ⟨st, i, none⟩ ↔ n.state = st ∧ n.idx = i := by
  unfold Net.station
  constructor
  · intro h
    rw [Station.mk.injEq] at h
    exact ⟨h.1, h.2.1⟩
  · rintro ⟨rfl, rfl⟩
    rw [if_neg hst]

theorem Net.state_of_station {n : Net} {st : Station} (h : n.station = st) :
    n.state = st.state := by
  rw [← h]
  rfl

theorem Net.idx_of_station {n : Net} {st : Station} (h : n.station = st) : n.idx = st.idx := by
  rw [← h]
  rfl

/-- A call of the peer `n` takes one entry from its queue, leads to the station
`st` and sends `out`, unless its try counter expires. -/
def Answers (n : Net) (st : Station) (out : List Byte) : Prop :=
  ∀ q ms, syncPeer.act n () = some (q, ms) →
    q.state = .init ∨ (q.station = st ∧ q.inFifo = n.inFifo.tail ∧ ms = out)

theorem answers_of_call {n m : Net} {st : Station} {out : List Byte}
    (hcall : uartSync silent n.noCalls = .ok m)
    (hm : m.state = .init ∨
      (m.station = st ∧ m.inFifo = n.inFifo.tail ∧ wireBytes m.calls = out)) :
    Answers n st out := by
  intro q ms h
  simp only [syncPeer, hcall, Except.toOption, Option.map_some, Option.some.injEq,
    Prod.mk.injEq] at h
  obtain ⟨rfl, rfl⟩ := h
  exact hm

/-- A call that finds nothing expected leaves the peer where it is. -/
theorem settleSync_noByte (m : Net) :
    (settleSync (.noByte, m)).state = .init ∨
      ((settleSync (.noByte, m)).station = m.station ∧
        (settleSync (.noByte, m)).inFifo = m.inFifo ∧
        (settleSync (.noByte, m)).calls = m.calls) := by
  unfold settleSync
  dsimp only
  split
  · exact Or.inl rfl
  · exact Or.inr ⟨rfl, rfl, rfl⟩

section Answers

variable {n m : Net} {cs : List UartCall} {i : ℕ}

/-- A call of `uart_sync_link` that is answered and leaves the peer waiting. -/
theorem answers_link (hw : n.state = .waiting)
    (hm : uartSyncLink n.noCalls = .ok (.ok, n.noCalls.moved n.inFifo.tail cs n.noCalls.state i)) :
    Answers n ⟨.waiting, i, none⟩ (wireBytes cs) := by
  have hmw : (n.noCalls.moved n.inFifo.tail cs n.noCalls.state i).state = .waiting := hw
  have hcall : uartSync silent n.noCalls =
      .ok (n.noCalls.moved n.inFifo.tail cs n.noCalls.state i) := by
    rw [uartSync_waiting silent (n := n.noCalls) hw hm]
    exact connectStage_of_ne (by rw [settleSync, hmw]; decide)
  refine answers_of_call hcall (Or.inr ⟨?_, rfl, rfl⟩)
  exact (Net.station_eq_none (by decide)).mpr ⟨hmw, rfl⟩

/-- A call of `uart_sync_link` that links the peer: the connect step of the same
call finds the queue empty. -/
theorem answers_link_linked (hw : n.state = .waiting) (htail : n.inFifo.tail = [])
    (hm : uartSyncLink n.noCalls = .ok (.ok, n.noCalls.moved [] cs .linked i)) :
    Answers n ⟨.linked, i, none⟩ (wireBytes cs) := by
  have hcall : uartSync silent n.noCalls =
      .ok (settleSync (.noByte, n.noCalls.moved [] cs .linked i)) := by
    rw [uartSync_waiting silent (n := n.noCalls) hw hm]
    exact connectStage_of_linked rfl (uartSyncConnect_empty rfl)
  apply answers_of_call hcall
  rcases settleSync_noByte (n.noCalls.moved [] cs .linked i) with h | ⟨h1, h2, h3⟩
  · exact Or.inl h
  · exact Or.inr ⟨h1, by rw [h2, htail]; rfl, by rw [h3]; rfl⟩

/-- A call of `uart_sync_connect` that is answered and leaves the peer linked. -/
theorem answers_connect (hl : n.state = .linked)
    (hm : uartSyncConnect n.noCalls =
      .ok (.ok, n.noCalls.moved n.inFifo.tail cs n.noCalls.state i)) :
    Answers n ⟨.linked, i, none⟩ (wireBytes cs) := by
  refine answers_of_call (uartSync_linked silent (n := n.noCalls) hl hm) (Or.inr ⟨?_, rfl, rfl⟩)
  exact (Net.station_eq_none (by decide)).mpr ⟨hl, rfl⟩

/-- A call of `uart_sync_connect` that makes the peer a player. -/
theorem answers_connect_done {pl : ℕ} (hl : n.state = .linked)
    (hm : uartSyncConnect n.noCalls =
      .ok (.ok, { n.noCalls.moved n.inFifo.tail cs .connected i with player := pl })) :
    Answers n ⟨.connected, i, some pl⟩ (wireBytes cs) :=
  answers_of_call (uartSync_linked silent (n := n.noCalls) hl hm) (Or.inr ⟨rfl, rfl, rfl⟩)

/-- A call of `uart_sync_link` that finds no byte, or none that is expected. -/
theorem answers_of_link_noByte (hw : n.state = .waiting)
    (hm : uartSyncLink n.noCalls = .ok (.noByte, m)) (hst : m.station = n.station)
    (hin : m.inFifo = n.inFifo.tail) (hcs : m.calls = []) : Answers n n.station [] := by
  have hsettle := settleSync_noByte m
  have hstay : (settleSync (.noByte, m)).state ≠ .linked := by
    rcases hsettle with h | ⟨h, -, -⟩
    · rw [h]; decide
    · rw [Net.state_of_station (h.trans hst)]
      show n.state ≠ .linked
      rw [hw]; decide
  have hcall : uartSync silent n.noCalls = .ok (settleSync (.noByte, m)) := by
    rw [uartSync_waiting silent (n := n.noCalls) hw hm]
    exact connectStage_of_ne hstay
  apply answers_of_call hcall
  rcases hsettle with h | ⟨h1, h2, h3⟩
  · exact Or.inl h
  · exact Or.inr ⟨h1.trans hst, h2.trans hin, by rw [h3, hcs]; rfl⟩

/-- A call on an empty queue sends nothing and moves nothing. -/
theorem answers_empty (hc : n.state ≠ .cleanup) (hin : n.inFifo = []) :
    Answers n n.station [] := by
  have htail : n.inFifo.tail = [] := by rw [hin]; rfl
  by_cases hw : n.state = .waiting
  · exact answers_of_link_noByte hw (uartSyncLink_empty (n := n.noCalls) hin) rfl
      (hin.trans htail.symm) rfl
  · by_cases hl : n.state = .linked
    · refine answers_of_call
        (uartSync_linked silent (n := n.noCalls) hl (uartSyncConnect_empty hin)) ?_
      rcases settleSync_noByte n.noCalls with h | ⟨h1, h2, h3⟩
      · exact Or.inl h
      · exact Or.inr ⟨h1, by rw [h2, htail]; exact hin, by rw [h3]; rfl⟩
    · -- connected, or given up: no branch of the call is taken
      exact answers_of_call (uartSync_idle silent (n := n.noCalls) hc hw hl)
        (Or.inr ⟨rfl, by rw [htail]; exact hin, rfl⟩)

end Answers

/-! ### The orderly handshake -/

/-- The positions of an orderly handshake, in the order they are passed.  The
first peer is the one that left `CLEANUP` first. -/
inductive Phase where
  /-- The join request of the second peer is on its way. -/
  | joined
  /-- The request for letter `k` of the password is on its way. -/
  | ack (k : Fin 5)
  /-- Letter `k` of the password is on its way. -/
  | letter (k : Fin 5)
  /-- The first peer has the password. -/
  | linked
  /-- The second peer asks for the response. -/
  | getResponse
  /-- Letter `k` of the response is on its way. -/
  | response (k : Fin 5)
  /-- Letter `k` of the response is acknowledged. -/
  | responseAck (k : Fin 4)
  /-- The whole response is acknowledged. -/
  | finalAck
  | done
  deriving DecidableEq, Repr

namespace Phase

/-- The next position. -/
def next : Phase → Phase
  | joined => ack 0
  | ack k => letter k
  | letter k => if h : k.val + 1 < 5 then ack ⟨k.val + 1, h⟩ else linked
  | linked => getResponse
  | getResponse => response 0
  | response k => if h : k.val < 4 then responseAck ⟨k.val, h⟩ else finalAck
  | responseAck k => response k.succ
  | finalAck => done
  | done => done

/-- Where the first peer stands. -/
def first : Phase → Station
  | joined => ⟨.waiting, 0, none⟩
  | ack k => ⟨.waiting, k, none⟩
  | letter k => ⟨.waiting, k, none⟩
  | linked => ⟨.linked, 0, none⟩
  | getResponse => ⟨.linked, 0, none⟩
  | response k => ⟨.linked, k + 1, none⟩
  | responseAck k => ⟨.linked, k + 1, none⟩
  | finalAck => ⟨.linked, uartPasswordSize, none⟩
  | done => ⟨.connected, uartPasswordSize, some 1⟩

/-- Where the second peer stands. -/
def second : Phase → Station
  | joined => ⟨.waiting, 0, none⟩
  | ack k => ⟨.waiting, k, none⟩
  | letter k => ⟨.waiting, k + 1, none⟩
  | linked => ⟨.waiting, uartPasswordSize, none⟩
  | getResponse => ⟨.linked, 0, none⟩
  | response k => ⟨.linked, k, none⟩
  | responseAck k => ⟨.linked, k + 1, none⟩
  | finalAck => ⟨.connected, uartPasswordSize, some 2⟩
  | done => ⟨.connected, uartPasswordSize, some 2⟩

/-- The byte on its way to the first peer. -/
def toFirst : Phase → Option Byte
  | joined => some uartJoinRequest
  | letter k => some (uartSyncPassword.getD k 0)
  | getResponse => some uartGetResponse
  | responseAck _ => some uartAck
  | finalAck => some uartAck
  | _ => none

/-- The byte on its way to the second peer. -/
def toSecond : Phase → Option Byte
  | ack _ => some uartAck
  | linked => some uartAck
  | response k => some (uartSyncResponse.getD k 0)
  | _ => none

/-- When the first peer is to move, the second stays where it is. -/
theorem next_of_toFirst {ph : Phase} {b : Byte} (hb : ph.toFirst = some b) :
    ph.next.second = ph.second ∧ ph.next.toFirst = none ∧ ph.toSecond = none := by
  cases ph with
  | letter k => fin_cases k <;> decide
  | ack k => cases hb
  | response k => cases hb
  | linked => cases hb
  | done => cases hb
  | joined => decide
  | getResponse => decide
  | responseAck k => exact ⟨rfl, rfl, rfl⟩
  | finalAck => decide

/-- When the second peer is to move, the first stays where it is. -/
theorem next_of_toSecond {ph : Phase} {b : Byte} (hb : ph.toSecond = some b) :
    ph.next.first = ph.first ∧ ph.next.toSecond = none ∧ ph.toFirst = none := by
  cases ph with
  | ack k => exact ⟨rfl, rfl, rfl⟩
  | response k => fin_cases k <;> decide
  | linked => decide
  | letter k => cases hb
  | done => cases hb
  | joined => cases hb
  | getResponse => cases hb
  | responseAck k => cases hb
  | finalAck => cases hb

/-- **The first peer answers the byte on its way to it with the next one.** -/
theorem answers_first {ph : Phase} {b : Byte} (hb : ph.toFirst = some b) {n : Net}
    (hn : n.station = ph.first) (hin : n.inFifo = [entry b]) :
    Answers n ph.next.first ph.next.toSecond.toList := by
  have hstate := Net.state_of_station hn
  have hidx : n.noCalls.idx = ph.first.idx := Net.idx_of_station hn
  have htail : n.inFifo.tail = [] := by rw [hin]; rfl
  cases ph with
  | joined =>
    cases hb
    exact answers_link hstate (htail ▸ uartSyncLink_join (n := n.noCalls) hin)
  | letter k =>
    cases hb
    have hm := uartSyncLink_letter (n := n.noCalls) (by rw [hidx]; exact k.isLt)
      (by rw [hidx]; exact hin)
    by_cases hk : k.val + 1 < 5
    · rw [if_neg (by rw [hidx]; exact Nat.ne_of_lt hk), ← htail] at hm
      have hans := answers_link hstate hm
      rw [hidx] at hans
      simpa [next, hk, first, toSecond, wireBytes] using hans
    · have hk : k.val + 1 = 5 := by omega
      rw [if_pos (by rw [hidx]; exact hk)] at hm
      simpa [next, hk, first, toSecond, wireBytes] using answers_link_linked hstate htail hm
  | getResponse =>
    cases hb
    exact answers_connect hstate (htail ▸ uartSyncConnect_getResponse (n := n.noCalls) hin)
  | responseAck k =>
    cases hb
    have hm := uartSyncConnect_ack (n := n.noCalls) hin
      (by rw [hidx]; exact Nat.succ_lt_succ k.isLt)
    have hans := answers_connect hstate (htail ▸ hm)
    rw [hidx] at hans
    exact hans
  | finalAck =>
    cases hb
    exact answers_connect_done hstate (htail ▸ uartSyncConnect_lastAck (n := n.noCalls) hin hidx)
  | ack k => cases hb
  | response k => cases hb
  | linked => cases hb
  | done => cases hb

/-- **The second peer answers the byte on its way to it with the next one.** -/
theorem answers_second {ph : Phase} {b : Byte} (hb : ph.toSecond = some b) {n : Net}
    (hn : n.station = ph.second) (hin : n.inFifo = [entry b]) :
    Answers n ph.next.second ph.next.toFirst.toList := by
  have hstate := Net.state_of_station hn
  have hidx : n.noCalls.idx = ph.second.idx := Net.idx_of_station hn
  have htail : n.inFifo.tail = [] := by rw [hin]; rfl
  cases ph with
  | ack k =>
    cases hb
    have hm := uartSyncLink_ack (n := n.noCalls) hin (by rw [hidx]; exact k.isLt)
    have hans := answers_link hstate (htail ▸ hm)
    rw [hidx] at hans
    exact hans
  | linked =>
    cases hb
    exact answers_link_linked hstate htail (uartSyncLink_lastAck (n := n.noCalls) hin hidx)
  | response k =>
    cases hb
    have hm := uartSyncConnect_letter (n := n.noCalls) (by rw [hidx]; exact k.isLt)
      (by rw [hidx]; exact hin)
    by_cases hk : k.val < 4
    · have hk' : k.val + 1 ≠ 5 := by omega
      rw [if_neg (by rw [hidx]; exact hk'), ← htail] at hm
      have hans := answers_connect hstate hm
      rw [hidx] at hans
      simpa [next, hk, second, toFirst, wireBytes] using hans
    · have hk' : k.val + 1 = 5 := by omega
      rw [if_pos (by rw [hidx]; exact hk'), ← htail] at hm
      have hans := answers_connect_done hstate hm
      rw [hidx] at hans
      simpa [next, hk, hk', second, toFirst, wireBytes, uartPasswordSize] using hans
  | joined => cases hb
  | letter k => cases hb
  | getResponse => cases hb
  | responseAck k => cases hb
  | finalAck => cases hb
  | done => cases hb

end Phase

/-! ### Crossed join requests -/

/-- The bytes each peer sends once the requests have crossed: its request, the
acknowledgement of the other's, and the first letter of the password. -/
def crossedBytes : List Byte := [uartJoinRequest, uartAck, uartSyncPassword.getD 0 0]

/-- Where a peer stands after reading `i` of these bytes.  The letter, which
comes when the second one is expected, moves nothing. -/
def crossedStation (i : ℕ) : Station := ⟨.waiting, if i < 2 then 0 else 1, none⟩

/-- What a peer has sent after reading `i` of the other's bytes. -/
def crossedSent (i : ℕ) : List Byte := crossedBytes.take (i + 1)

/-- Reading one more of the crossed bytes sends one more, while there are any. -/
theorem answers_crossed {i : ℕ} {b : Byte} (hb : crossedBytes[i]? = some b) {n : Net}
    {rest : List Entry} (hn : n.station = crossedStation i) (hin : n.inFifo = entry b :: rest) :
    Answers n (crossedStation (i + 1)) (crossedBytes[i + 1]?).toList := by
  have hstate := Net.state_of_station hn
  have hidx : n.noCalls.idx = (crossedStation i).idx := Net.idx_of_station hn
  have htail : n.inFifo.tail = rest := by rw [hin]; rfl
  obtain rfl | rfl | rfl : i = 0 ∨ i = 1 ∨ i = 2 := by
    have hlt : i < 3 := (List.getElem?_eq_some_iff.mp hb).1
    omega
  · cases hb
    exact answers_link hstate (htail ▸ uartSyncLink_join (n := n.noCalls) hin)
  · cases hb
    have hm := uartSyncLink_ack (n := n.noCalls) hin (by rw [hidx]; decide)
    have hans := answers_link hstate (htail ▸ hm)
    rw [hidx] at hans
    exact hans
  · cases hb
    have hm := uartSyncLink_unexpected (n := n.noCalls) (by rw [hidx]; decide) hin
      (by decide) (by decide) (by decide) (by rw [hidx]; decide)
    have hans := answers_of_link_noByte hstate hm rfl htail.symm rfl
    rw [hn] at hans
    exact hans

/-! ### The pair -/

/-- Both peers are about to start a session and nothing is in flight. -/
def Fresh (s : Duplex Net Byte) : Prop :=
  ∀ p, (s.peer p).state = .cleanup ∧ s.wire p = []

/-- The try counter of a peer has expired. -/
def Expired (s : Duplex Net Byte) : Prop := ∃ p, (s.peer p).state = .init

/-- Where the pair stands, seen from side `p`: the stations of `p` and of the
other, and the bytes on their way to either. -/
structure Stand (s : Duplex Net Byte) (p : Side) (a b : Station) (toSelf toOther : List Byte) :
    Prop where
  self : (s.peer p).station = a
  other : (s.peer p.other).station = b
  toSelf : inFlight s p = toSelf.map entry
  toOther : inFlight s p.other = toOther.map entry

/-- The join requests have crossed, and the two peers have read `i` and `j` of
each other's bytes. -/
def Crossed (s : Duplex Net Byte) : Prop :=
  ∃ p i j, i ≤ 3 ∧ j ≤ 3 ∧ i ≤ j + 1 ∧ j ≤ i + 1 ∧
    Stand s p (crossedStation i) (crossedStation j) ((crossedSent j).drop i)
      ((crossedSent i).drop j)

/-- The pair as long as the join requests have not crossed. -/
inductive Orderly (s : Duplex Net Byte) : Prop where
  | expired (h : Expired s)
  | fresh (h : Fresh s)
  /-- Side `p` has left `CLEANUP`; its join request may still be in flight. -/
  | alone (p : Side) (self : (s.peer p).station = ⟨.waiting, 0, none⟩)
      (other : (s.peer p.other).state = .cleanup) (toSelf : inFlight s p = [])
      (wire : s.wire p.other = [] ∨ s.wire p.other = [uartJoinRequest])
  /-- Both have left `CLEANUP`, side `p` first. -/
  | talking (p : Side) (ph : Phase)
      (h : Stand s p ph.first ph.second ph.toFirst.toList ph.toSecond.toList)

section Steps

variable {s : Duplex Net Byte} {p : Side} {q : Net} {ms : List Byte}

theorem expired_afterAct (h : q.state = .init) : Expired (s.afterAct p q ms) :=
  ⟨p, by simp [h]⟩

theorem inFlight_afterAct_self :
    inFlight (s.afterAct p q ms) p = q.inFifo ++ (s.wire p).map entry :=
  Duplex.pending_act_self s p q ms

theorem inFlight_afterAct_other :
    inFlight (s.afterAct p q ms) p.other = inFlight s p.other ++ ms.map entry :=
  Duplex.pending_act_other s p q ms

namespace Stand

variable {a b : Station} {x y : List Byte}

theorem symm (h : Stand s p a b x y) : Stand s p.other b a y x where
  self := h.other
  other := by rw [Side.other_other]; exact h.self
  toSelf := h.toOther
  toOther := by rw [Side.other_other]; exact h.toSelf

/-- **A step of one side.**  Either it has nothing to read, or it reads the
oldest byte on its way, and what it answers follows the bytes it has sent. -/
theorem act (h : Stand s p a b x y) (ha : a.state ≠ .cleanup)
    (hact : syncPeer.act (s.peer p) () = some (q, ms)) :
    Expired (s.afterAct p q ms) ∨ Stand (s.afterAct p q ms) p a b x y ∨
      ∃ e x' rest, x = e :: x' ∧ (s.peer p).inFifo = entry e :: rest ∧
        (x' = [] → rest = []) ∧
        ∀ a' out, Answers (s.peer p) a' out →
          Expired (s.afterAct p q ms) ∨ Stand (s.afterAct p q ms) p a' b x' (y ++ out) := by
  have hflight : (s.peer p).inFifo ++ (s.wire p).map entry = x.map entry := h.toSelf
  have hcleanup : (s.peer p).state ≠ .cleanup := by rw [Net.state_of_station h.self]; exact ha
  cases hin : (s.peer p).inFifo with
  | nil =>
    rcases answers_empty hcleanup hin q ms hact with hi | ⟨hst, htail, rfl⟩
    · exact Or.inl (expired_afterAct hi)
    · refine Or.inr (Or.inl ⟨?_, ?_, ?_, ?_⟩)
      · rw [Duplex.afterAct_self, hst, h.self]
      · rw [Duplex.afterAct_other, h.other]
      · rw [inFlight_afterAct_self, htail, hin, ← hflight, hin]
        rfl
      · rw [inFlight_afterAct_other, h.toOther]
        simp
  | cons e rest =>
    rw [hin] at hflight
    cases x with
    | nil => cases hflight
    | cons e' x' =>
      rw [List.map_cons, List.cons_append, List.cons.injEq] at hflight
      obtain ⟨rfl, hrest⟩ := hflight
      refine Or.inr (Or.inr ⟨e', x', rest, rfl, rfl, ?_, fun a' out hans => ?_⟩)
      · rintro rfl
        exact (List.append_eq_nil_iff.mp hrest).1
      · rcases hans q ms hact with hi | ⟨hst, htail, rfl⟩
        · exact Or.inl (expired_afterAct hi)
        · refine Or.inr ⟨?_, ?_, ?_, ?_⟩
          · rw [Duplex.afterAct_self, hst]
          · rw [Duplex.afterAct_other, h.other]
          · rw [inFlight_afterAct_self, htail, hin, ← hrest]
            rfl
          · rw [inFlight_afterAct_other, h.toOther, List.map_append]

/-- A step in an orderly handshake: the peer whose byte has arrived moves the
pair to the next position. -/
theorem act_first {ph : Phase}
    (h : Stand s p ph.first ph.second ph.toFirst.toList ph.toSecond.toList)
    (hact : syncPeer.act (s.peer p) () = some (q, ms)) : Orderly (s.afterAct p q ms) := by
  have hne : ph.first.state ≠ .cleanup := by cases ph <;> simp [Phase.first]
  rcases h.act hne hact with hexp | hsame | ⟨e, x', rest, hx, hin, hrest, hmove⟩
  · exact .expired hexp
  · exact .talking p ph hsame
  · obtain ⟨hb, rfl⟩ : ph.toFirst = some e ∧ x' = [] := by
      cases hph : ph.toFirst with
      | none => rw [hph] at hx; cases hx
      | some b => rw [hph] at hx; cases hx; exact ⟨rfl, rfl⟩
    rw [hrest rfl] at hin
    obtain ⟨hsecond, hfirst, hnone⟩ := Phase.next_of_toFirst hb
    rcases hmove _ _ (Phase.answers_first hb h.self hin) with hexp | hstand
    · exact .expired hexp
    · refine .talking p ph.next ?_
      rw [hsecond, hfirst]
      rw [hnone] at hstand
      exact hstand

theorem act_second {ph : Phase}
    (h : Stand s p ph.second ph.first ph.toSecond.toList ph.toFirst.toList)
    (hact : syncPeer.act (s.peer p) () = some (q, ms)) : Orderly (s.afterAct p q ms) := by
  have hne : ph.second.state ≠ .cleanup := by cases ph <;> simp [Phase.second]
  -- seen from the first peer, on the other side
  have hseen : ∀ {ph : Phase}, Stand (s.afterAct p q ms) p ph.second ph.first ph.toSecond.toList
      ph.toFirst.toList → Orderly (s.afterAct p q ms) :=
    fun hstand => .talking p.other _ hstand.symm
  rcases h.act hne hact with hexp | hsame | ⟨e, x', rest, hx, hin, hrest, hmove⟩
  · exact .expired hexp
  · exact hseen hsame
  · obtain ⟨hb, rfl⟩ : ph.toSecond = some e ∧ x' = [] := by
      cases hph : ph.toSecond with
      | none => rw [hph] at hx; cases hx
      | some b => rw [hph] at hx; cases hx; exact ⟨rfl, rfl⟩
    rw [hrest rfl] at hin
    obtain ⟨hfirst, hsecond, hnone⟩ := Phase.next_of_toSecond hb
    rcases hmove _ _ (Phase.answers_second hb h.self hin) with hexp | hstand
    · exact .expired hexp
    · refine @hseen ph.next ?_
      rw [hsecond, hfirst]
      rw [hnone] at hstand
      exact hstand

/-- A step after the requests have crossed. -/
theorem act_crossed {i j : ℕ} (hi : i ≤ 3) (hj : j ≤ 3) (hij : i ≤ j + 1) (hji : j ≤ i + 1)
    (h : Stand s p (crossedStation i) (crossedStation j) ((crossedSent j).drop i)
      ((crossedSent i).drop j))
    (hact : syncPeer.act (s.peer p) () = some (q, ms)) :
    Expired (s.afterAct p q ms) ∨ Crossed (s.afterAct p q ms) := by
  rcases h.act (by simp [crossedStation]) hact with hexp | hsame | ⟨e, x', rest, hx, hin, -, hmove⟩
  · exact Or.inl hexp
  · exact Or.inr ⟨p, i, j, hi, hj, hij, hji, hsame⟩
  · -- the byte read is the next one of those the other has sent
    have hget : (crossedSent j)[i]? = some e := by
      rw [← List.head?_drop, hx]
      rfl
    have hlt : i < 3 ∧ i ≤ j := by
      have hlen := (List.getElem?_eq_some_iff.mp hget).1
      simp only [crossedSent, crossedBytes, List.length_take, List.length_cons,
        List.length_nil] at hlen
      omega
    have hb : crossedBytes[i]? = some e := by
      rw [crossedSent, List.getElem?_take_of_lt (by omega)] at hget
      exact hget
    have hx' : x' = (crossedSent j).drop (i + 1) := by
      rw [← List.tail_drop, hx]
      rfl
    have hy : (crossedSent i).drop j ++ (crossedBytes[i + 1]?).toList =
        (crossedSent (i + 1)).drop j := by
      have hsent : crossedSent (i + 1) = crossedSent i ++ (crossedBytes[i + 1]?).toList :=
        List.take_add_one
      rw [hsent, List.drop_append_of_le_length]
      simp only [crossedSent, crossedBytes, List.length_take, List.length_cons, List.length_nil]
      omega
    rcases hmove _ _ (answers_crossed hb h.self hin) with hexp | hstand
    · exact Or.inl hexp
    · rw [hy, hx'] at hstand
      exact Or.inr ⟨p, i + 1, j, hlt.1, hj, by omega, by omega, hstand⟩

end Stand

/-- Leaving `CLEANUP` forgets what has arrived and sends a join request. -/
theorem act_cleanup {n : Net} (hc : n.state = .cleanup)
    (hact : syncPeer.act n () = some (q, ms)) :
    q.station = ⟨.waiting, 0, none⟩ ∧ q.inFifo = [] ∧ ms = [uartJoinRequest] := by
  have hlink : uartSyncLink n.noCalls.joined = .ok (.noByte, n.noCalls.joined) :=
    uartSyncLink_empty rfl
  rcases cleanup_cases silent n.noCalls with hm | hm
  · have hcall : uartSync silent n.noCalls = .ok (settleSync (.noByte, n.noCalls.joined)) := by
      rw [uartSync_of_cleanup (n := n.noCalls) hc hm, linkStage_of_waiting rfl hlink]
      exact connectStage_of_ne (n := settleSync (.noByte, n.noCalls.joined))
        (fun h => by cases h)
    simp only [syncPeer, hcall, Except.toOption, Option.map_some, Option.some.injEq,
      Prod.mk.injEq] at hact
    obtain ⟨rfl, rfl⟩ := hact
    exact ⟨rfl, rfl, rfl⟩
  · have hcall : uartSync silent n.noCalls = .error .noReturn := by
      unfold uartSync cleanupStage
      rw [if_pos (show n.noCalls.state = .cleanup from hc), hm]
      rfl
    simp [syncPeer, hcall, Except.toOption] at hact

/-- A peer that has given up stays so. -/
theorem act_init {n : Net} (hi : n.state = .init) (hact : syncPeer.act n () = some (q, ms)) :
    q.state = .init := by
  have hi : n.noCalls.state = .init := hi
  have hcall : uartSync silent n.noCalls = .ok n.noCalls :=
    uartSync_idle silent (by simp [hi]) (by simp [hi]) (by simp [hi])
  simp only [syncPeer, hcall, Except.toOption, Option.map_some, Option.some.injEq,
    Prod.mk.injEq] at hact
  rw [← hact.1]
  exact hi

end Steps

/-! ### Every interleaving -/

/-- A peer that leaves `CLEANUP` has nothing in flight towards it. -/
def LeavesQuietly (s : Duplex Net Byte) : Event Unit → Prop
  | .act p _ => (s.peer p).state = .cleanup → s.wire p = []
  | .deliver _ => True

instance (s : Duplex Net Byte) : ∀ e, Decidable (LeavesQuietly s e)
  | .act _ _ => inferInstanceAs (Decidable (_ → _))
  | .deliver _ => isTrue trivial

section Deliver

variable {s : Duplex Net Byte} {p : Side} {m : Byte} {ms : List Byte}

/-- The state of the pair after a byte has arrived at `p`. -/
def arrived (s : Duplex Net Byte) (p : Side) (m : Byte) (ms : List Byte) : Duplex Net Byte :=
  s.afterDeliver p (syncPeer.receive (s.peer p) m) ms

theorem station_arrived (r : Side) :
    ((arrived s p m ms).peer r).station = (s.peer r).station := by
  rcases Side.eq_or_eq_other r p with rfl | rfl
  · simp [arrived, syncPeer, Net.station]
  · simp [arrived]

theorem state_arrived (r : Side) :
    ((arrived s p m ms).peer r).state = (s.peer r).state :=
  Net.state_of_station (station_arrived r)

theorem inFlight_arrived (hw : s.wire p = m :: ms) (r : Side) :
    inFlight (arrived s p m ms) r = inFlight s r :=
  Duplex.pending_deliver (A := syncPeer) (fun _ => rfl) hw r

theorem Stand.deliver {r : Side} {a b : Station} {x y : List Byte} (h : Stand s r a b x y)
    (hw : s.wire p = m :: ms) : Stand (arrived s p m ms) r a b x y where
  self := by rw [station_arrived, h.self]
  other := by rw [station_arrived, h.other]
  toSelf := by rw [inFlight_arrived hw, h.toSelf]
  toOther := by rw [inFlight_arrived hw, h.toOther]

end Deliver

section Acts

variable {s : Duplex Net Byte} {p : Side} {q : Net} {ms : List Byte}

theorem expired_act (h : Expired s) (hact : syncPeer.act (s.peer p) () = some (q, ms)) :
    Expired (s.afterAct p q ms) := by
  obtain ⟨r, hr⟩ := h
  rcases Side.eq_or_eq_other r p with rfl | rfl
  · exact expired_afterAct (act_init hr hact)
  · exact ⟨p.other, by rw [Duplex.afterAct_other, hr]⟩

/-- The first peer to leave `CLEANUP`. -/
theorem orderly_act_fresh (h : Fresh s) (hact : syncPeer.act (s.peer p) () = some (q, ms)) :
    Orderly (s.afterAct p q ms) := by
  obtain ⟨hst, hin, rfl⟩ := act_cleanup (h p).1 hact
  refine .alone p ?_ ?_ ?_ (Or.inr ?_)
  · rw [Duplex.afterAct_self, hst]
  · rw [Duplex.afterAct_other, (h p.other).1]
  · rw [inFlight_afterAct_self, hin, (h p).2]
    rfl
  · simp [Duplex.afterAct, (h p.other).2]

/-- The first peer calls again before the other has left `CLEANUP`. -/
theorem orderly_act_alone (hself : (s.peer p).station = ⟨.waiting, 0, none⟩)
    (hother : (s.peer p.other).state = .cleanup) (hflight : inFlight s p = [])
    (hwire : s.wire p.other = [] ∨ s.wire p.other = [uartJoinRequest])
    (hact : syncPeer.act (s.peer p) () = some (q, ms)) : Orderly (s.afterAct p q ms) := by
  obtain ⟨hin, hw⟩ := List.append_eq_nil_iff.mp hflight
  have hne : (s.peer p).state ≠ .cleanup := by
    rw [Net.state_of_station hself]
    decide
  rcases answers_empty hne hin q ms hact with hi | ⟨hst, htail, rfl⟩
  · exact .expired (expired_afterAct hi)
  · refine .alone p ?_ ?_ ?_ ?_
    · rw [Duplex.afterAct_self, hst, hself]
    · rw [Duplex.afterAct_other, hother]
    · rw [inFlight_afterAct_self, htail, hin, hw]
      rfl
    · simpa [Duplex.afterAct] using hwire

/-- The second peer to leave `CLEANUP`: what it finds in flight decides. -/
theorem act_second_join (hself : (s.peer p).state = .cleanup)
    (hother : (s.peer p.other).station = ⟨.waiting, 0, none⟩) (hflight : inFlight s p.other = [])
    (hact : syncPeer.act (s.peer p) () = some (q, ms)) :
    (s.wire p = [] → Orderly (s.afterAct p q ms)) ∧
      (s.wire p = [uartJoinRequest] → Crossed (s.afterAct p q ms)) := by
  obtain ⟨hst, hin, rfl⟩ := act_cleanup hself hact
  have hstand : Stand (s.afterAct p q [uartJoinRequest]) p ⟨.waiting, 0, none⟩ ⟨.waiting, 0, none⟩
      (s.wire p) [uartJoinRequest] := by
    refine ⟨?_, ?_, ?_, ?_⟩
    · rw [Duplex.afterAct_self, hst]
    · rw [Duplex.afterAct_other, hother]
    · rw [inFlight_afterAct_self, hin]
      rfl
    · rw [inFlight_afterAct_other, hflight]
      rfl
  constructor
  · intro hw
    rw [hw] at hstand
    exact .talking p.other .joined hstand.symm
  · intro hw
    rw [hw] at hstand
    exact ⟨p, 0, 0, by omega, by omega, by omega, by omega, hstand⟩

/-- **A call keeps the handshake orderly unless it crosses the requests.** -/
theorem orderly_act (h : Orderly s) (hact : syncPeer.act (s.peer p) () = some (q, ms)) :
    Orderly (s.afterAct p q ms) ∨
      ((s.peer p).state = .cleanup ∧ s.wire p ≠ [] ∧ Crossed (s.afterAct p q ms)) := by
  cases h with
  | expired h => exact Or.inl (.expired (expired_act h hact))
  | fresh h => exact Or.inl (orderly_act_fresh h hact)
  | alone r hself hother hflight hwire =>
    rcases Side.eq_or_eq_other r p with rfl | rfl
    · exact Or.inl (orderly_act_alone hself hother hflight hwire hact)
    · rw [Side.other_other] at hother hwire
      obtain ⟨hquiet, hcross⟩ := act_second_join hother hself hflight hact
      rcases hwire with hw | hw
      · exact Or.inl (hquiet hw)
      · exact Or.inr ⟨hother, by rw [hw]; exact List.cons_ne_nil _ _, hcross hw⟩
  | talking r ph h =>
    rcases Side.eq_or_eq_other r p with rfl | rfl
    · exact Or.inl (h.act_first hact)
    · have hsym := h.symm
      rw [Side.other_other] at hsym
      exact Or.inl (hsym.act_second hact)

theorem crossed_act (h : Crossed s) (hact : syncPeer.act (s.peer p) () = some (q, ms)) :
    Expired (s.afterAct p q ms) ∨ Crossed (s.afterAct p q ms) := by
  obtain ⟨r, i, j, hi, hj, hij, hji, h⟩ := h
  rcases Side.eq_or_eq_other r p with rfl | rfl
  · exact h.act_crossed hi hj hij hji hact
  · have hsym := h.symm
    rw [Side.other_other] at hsym
    exact hsym.act_crossed hj hi hji hij hact

end Acts

theorem orderly_deliver {s : Duplex Net Byte} {p : Side} {m : Byte} {ms : List Byte}
    (h : Orderly s) (hw : s.wire p = m :: ms) : Orderly (arrived s p m ms) := by
  cases h with
  | expired h =>
    obtain ⟨r, hr⟩ := h
    exact .expired ⟨r, by rw [state_arrived, hr]⟩
  | fresh h =>
    rw [(h p).2] at hw
    cases hw
  | alone r hself hother hflight hwire =>
    refine .alone r ?_ ?_ ?_ ?_
    · rw [station_arrived, hself]
    · rw [state_arrived, hother]
    · rw [inFlight_arrived hw, hflight]
    · -- only the join request can be the byte that arrives
      rcases Side.eq_or_eq_other p r with rfl | rfl
      · simpa [arrived, Duplex.afterDeliver] using hwire
      · rcases hwire with h | h
        · rw [h] at hw; cases hw
        · rw [h] at hw
          cases hw
          exact Or.inl (by simp [arrived, Duplex.afterDeliver])
  | talking r ph h => exact .talking r ph (h.deliver hw)

/-- **One step of the pair.**  An orderly handshake stays orderly unless a peer
leaves `CLEANUP` with a byte in flight towards it; then the requests have
crossed, and that is for good. -/
theorem handshake_step {s t : Duplex Net Byte} {e : Event Unit}
    (ht : syncPeer.machine.step s e = some t) :
    (Orderly s → Orderly t ∨ (¬ LeavesQuietly s e ∧ Crossed t)) ∧
      (Crossed s → Orderly t ∨ Crossed t) := by
  rcases Duplex.step_cases ht with ⟨p, i, q, ms, rfl, hact, rfl⟩ | ⟨p, m, ms, rfl, hw, rfl⟩
  · constructor
    · intro h
      rcases orderly_act h hact with h | ⟨hc, hw, h⟩
      · exact Or.inl h
      · exact Or.inr ⟨fun hq => hw (hq hc), h⟩
    · intro h
      rcases crossed_act h hact with h | h
      · exact Or.inl (.expired h)
      · exact Or.inr h
  · constructor
    · intro h
      exact Or.inl (orderly_deliver h hw)
    · rintro ⟨r, i, j, hi, hj, hij, hji, h⟩
      exact Or.inr ⟨r, i, j, hi, hj, hij, hji, h.deliver hw⟩

/-- Every run from fresh peers is orderly or has crossed. -/
theorem handshake_run {s t : Duplex Net Byte} (hs : Fresh s) {es : List (Event Unit)}
    (ht : syncPeer.machine.run s es = some t) : Orderly t ∨ Crossed t := by
  refine Machine.run_invariant_of_step (J := fun s => Orderly s ∨ Crossed s) ?_ es
    (Or.inl (.fresh hs)) ht
  intro s e t h ht
  rcases h with h | h
  · rcases (handshake_step ht).1 h with h | ⟨-, h⟩
    · exact Or.inl h
    · exact Or.inr h
  · exact (handshake_step ht).2 h

/-- A run whose peers leave `CLEANUP` quietly is orderly. -/
theorem handshake_run_quiet {s t : Duplex Net Byte} (hs : Fresh s) {es : List (Event Unit)}
    (hquiet : syncPeer.machine.Along LeavesQuietly s es)
    (ht : syncPeer.machine.run s es = some t) : Orderly t := by
  refine Machine.run_invariant ?_ es s t (.fresh hs) hquiet ht
  intro s e t h hq ht
  rcases (handshake_step ht).1 h with h | ⟨hn, -⟩
  · exact h
  · exact absurd hq hn

/-! ### Agreement -/

/-- The roles the two peers have taken fit each other: of two connected peers
one is player 1 and the other player 2, and when one is player 2 the other is
player 1, or will be with the acknowledgement that is in flight towards it. -/
def RolesAgree (t : Duplex Net Byte) : Prop :=
  ((∀ p, (t.peer p).state = .connected) →
    ∃ p, (t.peer p).player = 1 ∧ (t.peer p.other).player = 2) ∧
  ∀ p, (t.peer p).state = .connected → (t.peer p).player = 2 →
    ((t.peer p.other).state = .connected ∧ (t.peer p.other).player = 1) ∨
    ((t.peer p.other).state = .linked ∧ (t.peer p.other).idx = uartPasswordSize ∧
      inFlight t p.other = [entry uartAck])

theorem Net.player_of_station {n : Net} {i pl : ℕ} (h : n.station = ⟨.connected, i, some pl⟩) :
    n.player = pl := by
  have hst := Net.state_of_station h
  simp [Net.station, hst] at h
  exact h.2

/-- Without a connected peer there are no roles to disagree on. -/
theorem rolesAgree_of_not_connected {t : Duplex Net Byte}
    (h : ∀ p, (t.peer p).state ≠ .connected) : RolesAgree t :=
  ⟨fun hc => absurd (hc .left) (h .left), fun p hc => absurd hc (h p)⟩

theorem Phase.rolesAgree {t : Duplex Net Byte} {r : Side} {ph : Phase}
    (h : Stand t r ph.first ph.second ph.toFirst.toList ph.toSecond.toList) : RolesAgree t := by
  have hself := Net.state_of_station h.self
  have hother := Net.state_of_station h.other
  cases ph with
  | done =>
    have h1 := Net.player_of_station h.self
    have h2 := Net.player_of_station h.other
    refine ⟨fun _ => ⟨r, h1, h2⟩, fun p _ hp2 => ?_⟩
    rcases Side.eq_or_eq_other p r with rfl | rfl
    · rw [h1] at hp2
      cases hp2
    · rw [Side.other_other]
      exact Or.inl ⟨hself, h1⟩
  | finalAck =>
    refine ⟨fun hc => ?_, fun p hp _ => ?_⟩
    · rw [hc r] at hself
      cases hself
    · rcases Side.eq_or_eq_other p r with rfl | rfl
      · rw [hp] at hself
        cases hself
      · rw [Side.other_other]
        exact Or.inr ⟨hself, Net.idx_of_station h.self, h.toSelf⟩
  | _ =>
    -- nobody is connected before the last acknowledgement
    apply rolesAgree_of_not_connected
    intro p
    rcases Side.eq_or_eq_other p r with rfl | rfl
    · rw [hself]
      simp [Phase.first]
    · rw [hother]
      simp [Phase.second]

theorem Orderly.rolesAgree {t : Duplex Net Byte} (h : Orderly t)
    (hlive : ∀ p, (t.peer p).state ≠ .init) : RolesAgree t := by
  cases h with
  | expired h =>
    obtain ⟨p, hp⟩ := h
    exact absurd hp (hlive p)
  | fresh h =>
    apply rolesAgree_of_not_connected
    intro p
    rw [(h p).1]
    decide
  | alone r hself hother =>
    apply rolesAgree_of_not_connected
    intro p
    rcases Side.eq_or_eq_other p r with rfl | rfl
    · rw [Net.state_of_station hself]
      decide
    · rw [hother]
      decide
  | talking r ph h => exact Phase.rolesAgree h

theorem Crossed.rolesAgree {t : Duplex Net Byte} (h : Crossed t) : RolesAgree t := by
  obtain ⟨r, i, j, -, -, -, -, h⟩ := h
  apply rolesAgree_of_not_connected
  intro p
  rcases Side.eq_or_eq_other p r with rfl | rfl
  · rw [Net.state_of_station h.self]
    simp [crossedStation]
  · rw [Net.state_of_station h.other]
    simp [crossedStation]

/-- **Handshake agreement.**  Two peers start a session each, at any moment, and
their calls of `uart_sync` and the deliveries interleave in any order.  As long
as no try counter has expired, the roles agree. -/
theorem handshake_agreement (s t : Duplex Net Byte) (es : List (Event Unit)) (hs : Fresh s)
    (ht : syncPeer.machine.run s es = some t) (hlive : ∀ p, (t.peer p).state ≠ .init) :
    RolesAgree t := by
  rcases handshake_run hs ht with h | h
  · exact h.rolesAgree hlive
  · exact h.rolesAgree

/-- Two peers that start their first session. -/
def startPair : Duplex Net Byte := { peer := fun _ => Net.start, wire := fun _ => [] }

/-- The right peer joins after the request of the left one has arrived; from then
on every byte is delivered and answered. -/
def orderlyEvents : List (Event Unit) :=
  [.act .left (), .deliver .right, .act .right ()] ++
    (List.replicate 11 [.deliver .left, .act .left (), .deliver .right, .act .right ()]).flatten

theorem startPair_fresh : Fresh startPair := fun _ => ⟨rfl, rfl⟩

/-- The handshake up to its last acknowledgement. -/
theorem handshake_agreement_orderly : ∃ t, syncPeer.machine.run startPair orderlyEvents = some t ∧
    (t.peer .right).state = .connected ∧ (t.peer .right).player = 2 ∧ RolesAgree t := by
  refine ⟨_, rfl, rfl, rfl, handshake_agreement startPair _ orderlyEvents startPair_fresh rfl ?_⟩
  intro p
  cases p <;> decide

/-! ### Progress -/

/-- The pair is not stuck: when both have left `CLEANUP`, neither has given up
and they are not both connected, a byte is on its way to one of them. -/
def Progresses (t : Duplex Net Byte) : Prop :=
  (∀ p, (t.peer p).state ≠ .cleanup) → (∀ p, (t.peer p).state ≠ .init) →
    ¬ (∀ p, (t.peer p).state = .connected) → ∃ p, inFlight t p ≠ []

/-- In every position but the last one a byte is on its way. -/
theorem Phase.progresses {t : Duplex Net Byte} {r : Side} {ph : Phase}
    (h : Stand t r ph.first ph.second ph.toFirst.toList ph.toSecond.toList) : Progresses t := by
  intro _ _ hopen
  have hself := h.toSelf
  have hother := h.toOther
  cases ph with
  | done =>
    refine absurd (fun p => ?_) hopen
    rcases Side.eq_or_eq_other p r with rfl | rfl
    · exact Net.state_of_station h.self
    · exact Net.state_of_station h.other
  | ack k => exact ⟨r.other, by rw [hother]; simp [Phase.toSecond]⟩
  | linked => exact ⟨r.other, by rw [hother]; simp [Phase.toSecond]⟩
  | response k => exact ⟨r.other, by rw [hother]; simp [Phase.toSecond]⟩
  | joined => exact ⟨r, by rw [hself]; simp [Phase.toFirst]⟩
  | letter k => exact ⟨r, by rw [hself]; simp [Phase.toFirst]⟩
  | getResponse => exact ⟨r, by rw [hself]; simp [Phase.toFirst]⟩
  | responseAck k => exact ⟨r, by rw [hself]; simp [Phase.toFirst]⟩
  | finalAck => exact ⟨r, by rw [hself]; simp [Phase.toFirst]⟩

theorem Orderly.progresses {t : Duplex Net Byte} (h : Orderly t) : Progresses t := by
  cases h with
  | expired h =>
    intro _ hlive _
    obtain ⟨p, hp⟩ := h
    exact absurd hp (hlive p)
  | fresh h => intro hleft _ _; exact absurd (h .left).1 (hleft .left)
  | alone r _ hother => intro hleft _ _; exact absurd hother (hleft r.other)
  | talking r ph h => exact Phase.progresses h

/-- **An orderly handshake never gets stuck.**  If no peer leaves `CLEANUP` with
a byte in flight towards it, the pair always has a byte to go on with until both
are connected. -/
theorem handshake_progress (s t : Duplex Net Byte) (es : List (Event Unit)) (hs : Fresh s)
    (hquiet : syncPeer.machine.Along LeavesQuietly s es)
    (ht : syncPeer.machine.run s es = some t) : Progresses t :=
  (handshake_run_quiet hs hquiet ht).progresses

theorem leavesQuietly_orderly :
    syncPeer.machine.Along LeavesQuietly startPair orderlyEvents := by decide

/-- The last acknowledgement of the handshake is in flight. -/
theorem handshake_progress_orderly : ∃ t, syncPeer.machine.run startPair orderlyEvents = some t ∧
    (t.peer .left).state = .linked ∧ Progresses t :=
  ⟨_, rfl, rfl, handshake_progress startPair _ orderlyEvents startPair_fresh
    leavesQuietly_orderly rfl⟩

/-- Both peers join at once, and then read everything that arrives. -/
def crossedEvents : List (Event Unit) :=
  [.act .left (), .act .right ()] ++
    (List.replicate 3
      [.deliver .left, .deliver .right, .act .left (), .act .right ()]).flatten

/-- Crossed join requests leave both peers waiting at the second letter of the
password, with nothing in flight. -/
theorem not_progresses_crossed : Fresh startPair ∧
    ∃ t, syncPeer.machine.run startPair crossedEvents = some t ∧
      (∀ p, (t.peer p).state = .waiting ∧ (t.peer p).idx = 1 ∧ inFlight t p = []) ∧
      ¬ Progresses t := by
  have hstuck : ∀ {t : Duplex Net Byte},
      (∀ p, (t.peer p).state = .waiting ∧ (t.peer p).idx = 1 ∧ inFlight t p = []) →
        ¬ Progresses t := by
    intro t h hp
    obtain ⟨p, hflight⟩ := hp (fun p => by simp [(h p).1])
      (fun p => by simp [(h p).1])
      (fun hc => absurd ((h .left).1.symm.trans (hc .left)) (by decide))
    exact hflight (h p).2.2
  have hwait : ∃ t, syncPeer.machine.run startPair crossedEvents = some t ∧
      ∀ p, (t.peer p).state = .waiting ∧ (t.peer p).idx = 1 ∧ inFlight t p = [] :=
    ⟨_, rfl, fun p => by cases p <;> decide⟩
  obtain ⟨t, ht, hw⟩ := hwait
  exact ⟨startPair_fresh, t, ht, hw, hstuck hw⟩

end OperationMinix
