import OperationMinix.Lib.Line
import OperationMinix.Networking.Packet

/-!
# Queued bytes are not stranded

A queued byte leaves only in a transmit-empty interrupt, and an interrupt comes
only when the transmitter finishes a byte.  So whenever bytes are queued, or
`can_send` is clear and further bytes will be queued, a byte has to be on its way
out or an interrupt has to be pending.

What makes it so is that the program never queues on its own: it queues the rest
of a string right after it has tried to send the first byte, and such a try
leaves the transmitter busy whether it succeeds or not.

## Main definitions

* `performCalls` — the recorded calls of the networking code, on the driver.
* `lineMachine` — everything that happens to a driver on the two-bit chip.
* `NotStranded` — queued bytes have an interrupt to wait for.

## Main results

* `never_stranded` — **queued bytes are never stranded.**
-/

namespace OperationMinix

open Runs

/-- A call of the networking code on the driver.  `uart_init_fifo` clears the
queues of the chip, which has none here. -/
def performCall {σ : Type*} (d : Device σ) (u : Uart σ) : UartCall → Uart σ
  | .uartInitFifo => u
  | .emptyTransmitQueue => emptyTransmitQueue u
  | .uartSafeTransmit b => uartSafeTransmit d b u
  | .uartPushTransmit b => uartPushTransmit b u

/-- A list of calls on the driver. -/
def performCalls {σ : Type*} (d : Device σ) (cs : List UartCall) (u : Uart σ) : Uart σ :=
  cs.foldl (performCall d) u

/-- What happens to the driver and its chip. -/
inductive LineInput (K : Type*) where
  /-- `uart_send_data`. -/
  | sendData (ply : PlayerInfo K)
  /-- `uart_send_string`. -/
  | sendString (word : List Byte)
  /-- A transmission of the handshake. -/
  | safeTransmit (byte : Byte)
  | emptyQueue
  /-- The byte in the transmitter is finished. -/
  | complete
  /-- A call of the interrupt handler, with the bound on its rounds and what its
  local variable holds on entry. -/
  | ih (fuel : ℕ) (byte : Byte)

section

variable {K : Type*} [Field K] [LinearOrder K] [FloorRing K]

/-- The driver on the two-bit chip, step by step. -/
def lineMachine : Machine (Uart Line) (LineInput K) where
  step u
    | .sendData ply => some (performCalls lineDevice (uartSendData ply Net.start).calls u)
    | .sendString word => some (performCalls lineDevice (uartSendString word Net.start).calls u)
    | .safeTransmit b => some (uartSafeTransmit lineDevice b u)
    | .emptyQueue => some (emptyTransmitQueue u)
    | .complete => some { u with dev := u.dev.complete }
    | .ih fuel byte => uartIh lineDevice fuel byte u

/-- Whatever is queued, or will be, has an interrupt to wait for. -/
def NotStranded (u : Uart Line) : Prop := u.canSend = false ∨ u.outFifo ≠ [] → u.dev.Live

end

/-! ### Sending -/

theorem not_stranded_of_live {u : Uart Line} (h : u.dev.Live) : NotStranded u := fun _ => h

/-- After a try to send, whatever came of it, the transmitter is at work: it was
before, or it took the byte, or it was busy with another. -/
theorem live_uartSafeTransmit {u : Uart Line} (hu : NotStranded u) (b : Byte) :
    (uartSafeTransmit lineDevice b u).dev.Live := by
  unfold uartSafeTransmit transmitterEmpty
  split
  · exact Or.inl (Line.uartSendByte_busy b u)
  · next hc => exact hu (Or.inl (by simpa using hc))

/-- Queueing does not touch the chip. -/
theorem live_pushAll : ∀ (bs : List Byte) (u : Uart Line), u.dev.Live →
    (performCalls lineDevice (bs.map .uartPushTransmit) u).dev.Live := by
  intro bs
  induction bs with
  | nil => intro u h; exact h
  | cons b bs ih => intro u h; exact ih (uartPushTransmit b u) h

/-- A string is queued behind a try to send its first byte. -/
theorem not_stranded_sendString {u : Uart Line} (hu : NotStranded u) (word : List Byte) :
    NotStranded (performCalls lineDevice (uartSendString word Net.start).calls u) := by
  cases word with
  | nil => exact hu
  | cons b bs =>
    exact not_stranded_of_live (live_pushAll bs _ (live_uartSafeTransmit hu b))

/-! ### The interrupt handler -/

/-- The transmit loop has tried to send at least one byte. -/
theorem drainOut_busy : ∀ (q : List Byte) (u : Uart Line), q ≠ [] ∨ u.dev.busy = true →
    (drainOut lineDevice q u).dev.busy = true := by
  intro q
  induction q with
  | nil =>
    intro u h
    rcases h with h | h
    · exact absurd rfl h
    · exact h
  | cons b q ih =>
    intro u _
    have hbusy := Line.uartSendByte_busy b u
    unfold drainOut
    dsimp only
    split
    · exact ih _ (Or.inr hbusy)
    · exact hbusy

/-- A poll of the receiver is a port access like any other. -/
theorem live_receiveLoop : ∀ (n : ℕ) (byte : Byte) (s : Line), s.Live →
    (receiveLoop lineDevice n byte s).2.2.Live := by
  intro n
  induction n with
  | zero => intro byte s h; exact h
  | succ n ih =>
    intro byte s h
    have h' : (lineDevice.uartGetLineStatus s).2.Live := Line.live_advance h
    unfold receiveLoop
    dsimp only
    split
    · exact ih _ _ h'
    · next status _ =>
      -- the byte is read or not; either way nothing happens to the transmitter
      have hread : (if status &&& receiveData ≠ 0
          then lineDevice.readRbr (lineDevice.uartGetLineStatus s).2
          else (none, (lineDevice.uartGetLineStatus s).2)).2.Live := by
        split
        · exact Line.live_advance h'
        · exact h'
      generalize (if status &&& receiveData ≠ 0
          then lineDevice.readRbr (lineDevice.uartGetLineStatus s).2
          else (none, (lineDevice.uartGetLineStatus s).2)) = r at hread ⊢
      split_ifs
      · exact hread
      · exact hread
      · exact ih _ _ hread

theorem live_recvCase : ∀ (fuel : ℕ) (byte : Byte) (u : Uart Line) (r : Byte × Uart Line),
    u.dev.Live → recvCase lineDevice fuel byte u = some r → r.2.dev.Live := by
  intro fuel
  induction fuel with
  | zero => intro byte u r _ hr; cases hr
  | succ fuel ih =>
    intro byte u r h hr
    have hlive : (uartReceiveByte lineDevice byte u.dev).2.2.Live :=
      live_receiveLoop uartMaxTries byte u.dev h
    unfold recvCase at hr
    dsimp only at hr
    split at hr
    · cases hr
      exact hlive
    · refine ih _ _ r ?_ hr
      exact hlive
    · refine ih _ _ r ?_ hr
      exact hlive

/-- The transmit case runs dry and sets the flag, or leaves the transmitter busy. -/
theorem not_stranded_trnsmtEmptyCase (u : Uart Line) :
    NotStranded (trnsmtEmptyCase lineDevice u) := by
  unfold trnsmtEmptyCase
  split
  · next hq =>
    rintro (h | h)
    · cases h
    · exact absurd hq h
  · next hq => exact not_stranded_of_live (Or.inl (drainOut_busy u.outFifo u (Or.inl hq)))

theorem not_stranded_uartIh {fuel : ℕ} {byte : Byte} {u v : Uart Line} (hu : NotStranded u)
    (h : uartIh lineDevice fuel byte u = some v) : NotStranded v := by
  refine uartIh_induction ?_ ?_ ?_ ?_ fuel byte u v hu h
  · -- another cause, or none: the pending bit stays
    intro u hu hid hq
    have hne : ¬ (u.dev.intId &&& iirInt = 0 ∧ u.dev.intId &&& intMask = iirTrnsmtEmpty) :=
      fun h => hid ⟨_, rfl, h⟩
    have hlive := Line.live_advance (hu hq)
    show (lineDevice.uartGetIntId u.dev).2.Live
    dsimp only [lineDevice]
    rw [if_neg hne]
    exact hlive
  · intro u _ _
    exact not_stranded_trnsmtEmptyCase _
  · intro u hu hq
    exact Line.live_advance (hu hq)
  · intro fuel byte u r hu hr hq
    obtain ⟨ho, hc, -⟩ := recvCase_transmit fuel byte u r hr
    rw [ho, hc] at hq
    exact live_recvCase fuel byte u r (hu hq) hr

/-! ### Every interleaving -/

section

variable {K : Type*} [Field K] [LinearOrder K] [FloorRing K]

/-- **One step strands nothing.** -/
theorem not_stranded_step {u v : Uart Line} {i : LineInput K} (hu : NotStranded u)
    (hv : lineMachine.step u i = some v) : NotStranded v := by
  cases i with
  | sendData ply =>
    cases hv
    exact not_stranded_sendString hu (encodeData (encodePacket ply))
  | sendString word => cases hv; exact not_stranded_sendString hu word
  | safeTransmit b => cases hv; exact not_stranded_of_live (live_uartSafeTransmit hu b)
  | emptyQueue =>
    cases hv
    rintro (h | h)
    · exact hu (Or.inl h)
    · exact absurd rfl h
  | complete =>
    cases hv
    intro hq
    exact Line.live_complete (hu hq)
  | ih fuel byte => exact not_stranded_uartIh hu hv

/-- **Queued bytes are never stranded.**  From the driver as it is set up, on a
transmitter in any state, and in any order of transmissions, queue clears,
completions and calls of the interrupt handler: while `can_send` is clear or a
byte is queued, the transmitter is busy or its interrupt is pending. -/
theorem never_stranded (s : Line) (is : List (LineInput K)) (u : Uart Line)
    (hrun : lineMachine.run (Uart.init s) is = some u) :
    u.canSend = false ∨ u.outFifo ≠ [] → u.dev.busy = true ∨ u.dev.pending = true := by
  have hinit : NotStranded (Uart.init s) := by
    rintro (h | h)
    · cases h
    · exact absurd rfl h
  exact Machine.run_invariant_of_step (fun _ _ _ hu hv => not_stranded_step hu hv) is hinit hrun

end

/-- A string sent to a busy transmitter: its first byte is lost, the others are
queued, and the interrupt of the byte before moves them on. -/
def busyString : List (LineInput ℚ) :=
  [.safeTransmit 0x4a, .sendString uartWinGame, .complete, .ih 4 0]

/-- The string `"WIN"` behind a byte that is still being sent. -/
theorem never_stranded_busyString : ∃ u,
    lineMachine.run (Uart.init ⟨false, false, []⟩) busyString = some u ∧
      u.outFifo = [0x4e] ∧ (u.dev.busy = true ∨ u.dev.pending = true) := by
  have hrun : ∃ u, lineMachine.run (Uart.init ⟨false, false, []⟩) busyString = some u ∧
      u.outFifo = [0x4e] := ⟨_, rfl, by decide⟩
  obtain ⟨u, hu, hq⟩ := hrun
  exact ⟨u, hu, hq, never_stranded _ busyString u hu (Or.inr (by rw [hq]; decide))⟩

end OperationMinix
