import Mathlib.Data.List.Basic

/-!
# The UART driver

The driver of `lib/uart.c`: a receive queue and a transmit queue on top of the
port registers of a 16550, an interrupt handler that moves bytes between the
registers and the queues, and a flag `can_send` that chooses between writing a
byte to the port at once and queueing it.

The chip is not part of the program, so it is a parameter.  A `Device` answers
the port accesses the driver makes, from a state of its own; nothing is assumed
about the answers, so a statement about every device is a statement about every
behaviour of the line.  The linked queues of `lib/queue.c` are lists.

Three loops of the driver depend on what the device answers.  The two that poll
a register give up after `UART_MAX_TRIES` rounds; the interrupt handler runs
until the device reports no interrupt, so it takes a bound on its rounds and
returns `none` when the bound is too small.

## Main definitions

* `Device`, `Uart` — the chip's answers, and the state of the driver.
* `uartSendByte`, `uartReceiveByte` — the two polling loops.
* `uartSafeTransmit`, `uartPushTransmit`, `emptyTransmitQueue` — the transmit path.
* `uartIh` — the interrupt handler.
-/

namespace OperationMinix

/-- A byte of a port register or of a frame. -/
abbrev Byte := BitVec 8

/-- An entry of a queue, an `int16_t` of the source. -/
abbrev Entry := BitVec 16

/-- The queue entry of a received byte: `uint8_t` widened to `int16_t`. -/
def entry (b : Byte) : Entry := b.setWidth 16

/-- `UART_ERROR_CODE`, the in-band mark of a line error. -/
def uartErrorCode : Entry := -1

/-! ### Register bits -/

/-- `UART_MAX_TRIES`: the rounds of a polling loop. -/
def uartMaxTries : ℕ := 4

/-- `RECEIVE_DATA`: the receiver holds a byte. -/
def receiveData : Byte := 0x01

/-- `OVERRUN_ERR | PARITY_ERR | FRAMING_ERR | FIFO_ERR`. -/
def receiveErrors : Byte := 0x8e

/-- `TRANS_HOLD_EMPTY`: the transmitter takes a byte. -/
def transHoldEmpty : Byte := 0x20

/-- `IIR_INT`: set when no interrupt is pending. -/
def iirInt : Byte := 0x01

/-- `INT_MASK`: the bits that name the cause of an interrupt. -/
def intMask : Byte := 0x0e

/-- `IIR_TRNSMT_EMPTY`. -/
def iirTrnsmtEmpty : Byte := 0x02

/-- `IIR_RECV_DATA_AVAIL`. -/
def iirRecvDataAvail : Byte := 0x04

/-- `IIR_STATUS`. -/
def iirStatus : Byte := 0x06

/-- `IIR_CHAR_TIMEOUT`. -/
def iirCharTimeout : Byte := 0x0c

/-! ### The chip and the driver -/

/-- What the chip answers to the driver's port accesses.  A read is `none` when
`util_sys_inb` fails; it then leaves its destination as it was. -/
structure Device (σ : Type*) where
  /-- `uart_get_line_status`. -/
  uartGetLineStatus : σ → Option Byte × σ
  /-- `uart_get_int_id`. -/
  uartGetIntId : σ → Option Byte × σ
  /-- A read of the receiver buffer register. -/
  readRbr : σ → Option Byte × σ
  /-- A write of the transmitter holding register; `true` when `sys_outb` is `OK`. -/
  writeThr : Byte → σ → Bool × σ
  /-- What a local variable holds that nothing has been assigned to yet. -/
  unassigned : σ → Byte

/-- The driver: its static variables, the chip, and the history of the bytes the
transmitter holding register has taken. -/
structure Uart (σ : Type*) where
  dev : σ
  inFifo : List Entry
  outFifo : List Byte
  canSend : Bool
  /-- Every byte written to the transmitter so far, oldest first. -/
  thr : List Byte

/-- The driver as `init_uart_queues` and its static initialisers leave it. -/
def Uart.init {σ : Type*} (dev : σ) : Uart σ :=
  { dev := dev, inFifo := [], outFifo := [], canSend := true, thr := [] }

variable {σ : Type*} (d : Device σ)

/-! ### Sending -/

/-- The polling loop of `uart_send_byte` with `n` rounds left and the variable
`status` as the rounds before left it. -/
def sendLoop (byte : Byte) : ℕ → Byte → Uart σ → Bool × Uart σ
  | 0, _, u => (false, u)
  | n + 1, status, u =>
    let r := d.uartGetLineStatus u.dev
    -- a read that fails leaves the variable as the round before has set it
    let status := r.1.getD status
    if status &&& transHoldEmpty ≠ 0 then
      let w := d.writeThr byte r.2
      (w.1, { u with dev := w.2, thr := if w.1 then u.thr ++ [byte] else u.thr })
    else sendLoop byte n status { u with dev := r.2 }

/-- `uart_send_byte`; `true` is `OK`. -/
def uartSendByte (byte : Byte) (u : Uart σ) : Bool × Uart σ :=
  sendLoop d byte uartMaxTries (d.unassigned u.dev) u

/-- `uart_push_transmit`. -/
def uartPushTransmit (byte : Byte) (u : Uart σ) : Uart σ :=
  { u with outFifo := u.outFifo ++ [byte], canSend := false }

/-- `transmitter_empty`. -/
def transmitterEmpty (u : Uart σ) : Bool := u.canSend

/-- `uart_safe_transmit`: what `uart_send_byte` returns is not looked at. -/
def uartSafeTransmit (byte : Byte) (u : Uart σ) : Uart σ :=
  if transmitterEmpty u then (uartSendByte d byte u).2 else uartPushTransmit byte u

/-- `empty_transmit_queue`. -/
def emptyTransmitQueue (u : Uart σ) : Uart σ := { u with outFifo := [] }

/-! ### Receiving -/

/-- The return values of `uart_receive_byte`. -/
inductive RecvResult where
  /-- `OK`: a byte was read. -/
  | ok
  /-- `1`: nothing to read. -/
  | empty
  /-- `2`: the line status carried an error. -/
  | lineError
  deriving DecidableEq, Repr

/-- The polling loop of `uart_receive_byte` with `n` rounds left; the variable
`*byte` keeps its value until a read succeeds. -/
def receiveLoop : ℕ → Byte → σ → RecvResult × Byte × σ
  | 0, byte, s => (.empty, byte, s)
  | n + 1, byte, s =>
    let r := d.uartGetLineStatus s
    match r.1 with
    | none => receiveLoop n byte r.2
    | some status =>
      -- the byte is read before the error bits are looked at
      let b := if status &&& receiveData ≠ 0 then d.readRbr r.2 else (none, r.2)
      let byte := b.1.getD byte
      if status &&& receiveErrors ≠ 0 then (.lineError, byte, b.2)
      else if b.1.isSome then (.ok, byte, b.2)
      else receiveLoop n byte b.2

/-- `uart_receive_byte`. -/
def uartReceiveByte (byte : Byte) (s : σ) : RecvResult × Byte × σ :=
  receiveLoop d uartMaxTries byte s

/-! ### The interrupt handler -/

/-- The loop of the receive case: read bytes until there are none, queueing each
behind an error mark when its status carried an error. -/
def recvCase : ℕ → Byte → Uart σ → Option (Byte × Uart σ)
  | 0, _, _ => none
  | fuel + 1, byte, u =>
    let r := uartReceiveByte d byte u.dev
    let u := { u with dev := r.2.2 }
    match r.1 with
    | .empty => some (r.2.1, u)
    | .ok => recvCase fuel r.2.1 { u with inFifo := u.inFifo ++ [entry r.2.1] }
    | .lineError =>
      recvCase fuel r.2.1 { u with inFifo := u.inFifo ++ [uartErrorCode, entry r.2.1] }

/-- The loop of the transmit case: send from the front of the queue until it is
empty or a byte is refused, popping only what was sent. -/
def drainOut : List Byte → Uart σ → Uart σ
  | [], u => u
  | b :: rest, u =>
    let r := uartSendByte d b u
    if r.1 then drainOut rest { r.2 with outFifo := rest } else r.2

/-- `case IIR_TRNSMT_EMPTY`. -/
def trnsmtEmptyCase (u : Uart σ) : Uart σ :=
  if u.outFifo = [] then { u with canSend := true }
  -- the flag is cleared even when the loop has just emptied the queue
  else { drainOut d u.outFifo u with canSend := false }

/-- `uart_ih`, in at most `fuel` rounds; `byte` is the local variable of that
name.  A cause outside the four cases is only printed. -/
def uartIh : ℕ → Byte → Uart σ → Option (Uart σ)
  | 0, _, _ => none
  | fuel + 1, byte, u =>
    let r := d.uartGetIntId u.dev
    let u := { u with dev := r.2 }
    match r.1 with
    | none => some u
    | some intId =>
      -- the bit is set when no interrupt is pending
      if intId &&& iirInt ≠ 0 then some u
      else if intId &&& intMask = iirStatus then
        -- the status is read into the variable that the receive case reuses
        let s := d.uartGetLineStatus u.dev
        uartIh fuel (s.1.getD byte) { u with dev := s.2 }
      else if intId &&& intMask = iirRecvDataAvail ∨ intId &&& intMask = iirCharTimeout then
        (recvCase d fuel byte u).bind fun r => uartIh fuel r.1 r.2
      else if intId &&& intMask = iirTrnsmtEmpty then
        uartIh fuel byte (trnsmtEmptyCase d u)
      else uartIh fuel byte u

/-! ### What each operation does to the transmit path -/

variable {d}

/-- **A byte given to `uart_send_byte` is either taken by the transmitter or
left alone**: the queues and the flag are not touched either way. -/
theorem sendLoop_cases (byte : Byte) : ∀ (n : ℕ) (status : Byte) (u : Uart σ),
    ∃ s, (sendLoop d byte n status u = (true, { u with dev := s, thr := u.thr ++ [byte] }) ∨
      sendLoop d byte n status u = (false, { u with dev := s })) := by
  intro n
  induction n with
  | zero => intro status u; exact ⟨u.dev, Or.inr rfl⟩
  | succ n ih =>
    intro status u
    unfold sendLoop
    dsimp only
    split
    · refine ⟨(d.writeThr byte (d.uartGetLineStatus u.dev).2).2, ?_⟩
      cases (d.writeThr byte (d.uartGetLineStatus u.dev).2).1
      · exact Or.inr rfl
      · exact Or.inl rfl
    · exact ih _ { u with dev := (d.uartGetLineStatus u.dev).2 }

theorem uartSendByte_cases (byte : Byte) (u : Uart σ) :
    ∃ s, (uartSendByte d byte u = (true, { u with dev := s, thr := u.thr ++ [byte] }) ∨
      uartSendByte d byte u = (false, { u with dev := s })) :=
  sendLoop_cases byte uartMaxTries _ u

/-- The transmit loop moves bytes from the front of the queue to the end of the
transmitter's history, and nothing else. -/
theorem drainOut_spec : ∀ (q : List Byte) (u : Uart σ), u.outFifo = q →
    ∃ s sent rest, q = sent ++ rest ∧
      drainOut d q u = { u with dev := s, outFifo := rest, thr := u.thr ++ sent } := by
  intro q
  induction q with
  | nil => intro u h; exact ⟨u.dev, [], [], rfl, by cases u; simp_all [drainOut]⟩
  | cons b q ih =>
    intro u h
    obtain ⟨s, hs | hs⟩ := uartSendByte_cases (d := d) b u
    · -- the byte is taken, and the loop goes on with the queue behind it
      obtain ⟨s', sent, rest, hq, hd⟩ :=
        ih { u with dev := s, outFifo := q, thr := u.thr ++ [b] } rfl
      refine ⟨s', b :: sent, rest, by rw [hq]; rfl, ?_⟩
      rw [drainOut, hs, if_pos rfl, hd]
      simp
    · -- the byte is refused, and stays at the front
      refine ⟨s, [], b :: q, rfl, ?_⟩
      rw [drainOut, hs, if_neg (by simp), ← h]
      simp

/-- The receive loop does not touch the transmit path. -/
theorem recvCase_transmit : ∀ (fuel : ℕ) (byte : Byte) (u : Uart σ) (r : Byte × Uart σ),
    recvCase d fuel byte u = some r →
      r.2.outFifo = u.outFifo ∧ r.2.canSend = u.canSend ∧ r.2.thr = u.thr := by
  intro fuel
  induction fuel with
  | zero => intro byte u r h; cases h
  | succ fuel ih =>
    intro byte u r h
    unfold recvCase at h
    dsimp only at h
    split at h
    · cases h; exact ⟨rfl, rfl, rfl⟩
    · have := ih _ _ _ h
      exact this
    · have := ih _ _ _ h
      exact this

/-- The interrupt identification reads as a transmit-empty interrupt. -/
def ReadsTrnsmtEmpty (r : Option Byte) : Prop :=
  ∃ intId, r = some intId ∧ intId &&& iirInt = 0 ∧ intId &&& intMask = iirTrnsmtEmpty

/-- **The interrupt handler, once and for all.**  A round reads the cause and
either runs the transmit case or leaves the transmit path alone; what both keep
holds after every call that returns. -/
theorem uartIh_induction {J : Uart σ → Prop}
    (hother : ∀ u : Uart σ, J u → ¬ ReadsTrnsmtEmpty (d.uartGetIntId u.dev).1 →
      J { u with dev := (d.uartGetIntId u.dev).2 })
    (htx : ∀ u : Uart σ, J u → ReadsTrnsmtEmpty (d.uartGetIntId u.dev).1 →
      J (trnsmtEmptyCase d { u with dev := (d.uartGetIntId u.dev).2 }))
    (hstatus : ∀ u : Uart σ, J u → J { u with dev := (d.uartGetLineStatus u.dev).2 })
    (hrecv : ∀ fuel byte (u : Uart σ) r, J u → recvCase d fuel byte u = some r → J r.2) :
    ∀ (fuel : ℕ) (byte : Byte) (u v : Uart σ), J u → uartIh d fuel byte u = some v → J v := by
  intro fuel
  induction fuel with
  | zero => intro byte u v _ h; cases h
  | succ fuel ih =>
    intro byte u v hu h
    unfold uartIh at h
    dsimp only at h
    split at h
    · next hid =>
      -- the identification could not be read
      cases h
      apply hother u hu
      rintro ⟨intId, hsome, -⟩
      rw [hid] at hsome
      cases hsome
    · next intId hid =>
      have hcause : ReadsTrnsmtEmpty (d.uartGetIntId u.dev).1 →
          intId &&& iirInt = 0 ∧ intId &&& intMask = iirTrnsmtEmpty := by
        rintro ⟨j, hj, h⟩
        rw [hid, Option.some.injEq] at hj
        exact hj ▸ h
      split at h
      · next hint =>
        cases h
        exact hother u hu fun hr => hint (hcause hr).1
      split at h
      · next hst =>
        have hu' := hother u hu fun hr => absurd ((hcause hr).2.symm.trans hst) (by decide)
        have := ih _ _ _ (hstatus _ hu') h
        exact this
      split at h
      · next hrc =>
        -- the receive loop runs inside the round
        have hu' := hother u hu fun hr => by
          rw [(hcause hr).2] at hrc
          revert hrc
          decide
        obtain ⟨r, hr, h⟩ := Option.bind_eq_some_iff.mp h
        exact ih _ _ _ (hrecv _ _ _ _ hu' hr) h
      split at h
      · next hint _ _ htr =>
        exact ih _ _ _ (htx u hu ⟨intId, hid, by simpa using hint, htr⟩) h
      · next htr =>
        exact ih _ _ _ (hother u hu fun hr => htr (hcause hr).2) h

/-- The handler for an invariant that does not look at the chip. -/
theorem uartIh_transmit {J : Uart σ → Prop}
    (hdev : ∀ u v : Uart σ, J u → v.outFifo = u.outFifo → v.canSend = u.canSend →
      v.thr = u.thr → J v)
    (htx : ∀ u : Uart σ, J u → J (trnsmtEmptyCase d u))
    {fuel : ℕ} {byte : Byte} {u v : Uart σ} (hu : J u) (h : uartIh d fuel byte u = some v) :
    J v := by
  refine uartIh_induction (fun u hu _ => hdev u _ hu rfl rfl rfl)
    (fun u hu _ => htx _ (hdev u _ hu rfl rfl rfl)) (fun u hu => hdev u _ hu rfl rfl rfl)
    (fun fuel byte u r hu hr => ?_) fuel byte u v hu h
  obtain ⟨ho, hc, ht⟩ := recvCase_transmit fuel byte u r hr
  exact hdev u _ hu ho hc ht

end OperationMinix
