import OperationMinix.Lib.Uart

/-!
# A transmitter of two bits

The chip as far as transmission goes: it is busy with a byte or not, and its
transmit-empty interrupt is pending or not.  A write of the holding register
makes it busy, finishing the byte makes it idle and raises the interrupt, and
reading the interrupt identification as transmit-empty withdraws it.  All port
accesses succeed, so `uart_send_byte` fails only while the transmitter is busy.

A byte may be finished at any moment, in the middle of a polling loop too.  The
moments are not chosen by the program: the state carries a script, one entry for
each port access to come, that says whether the byte is finished before that
access and what the bits outside the model read as.
-/

namespace OperationMinix

/-- The state of the transmitter, and what will happen to it. -/
structure Line where
  /-- A byte is being shifted out. -/
  busy : Bool
  /-- The transmit-empty interrupt is raised and has not been read. -/
  pending : Bool
  /-- For each port access to come: whether the byte is finished before it, and
  what the access reads in the bits that are not the transmitter's. -/
  script : List (Bool × Byte)
  deriving DecidableEq, Repr

/-- The byte in the transmitter is finished. -/
def Line.complete (s : Line) : Line :=
  if s.busy then { s with busy := false, pending := true } else s

/-- What happens up to the next port access. -/
def Line.advance (s : Line) : Byte × Line :=
  match s.script with
  | [] => (0, s)
  | (done, v) :: rest =>
    (v, if done then { s with script := rest }.complete else { s with script := rest })

/-- The interrupt identification the program reads: another cause if there is
one, else transmit-empty if it is pending, else none. -/
def Line.intId (s : Line) : Byte :=
  if s.advance.1 ≠ 0 then s.advance.1
  else if s.advance.2.pending then iirTrnsmtEmpty else iirInt

/-- The chip of two bits. -/
def lineDevice : Device Line where
  uartGetLineStatus s :=
    (some (s.advance.1 &&& ~~~transHoldEmpty ||| if s.advance.2.busy then 0 else transHoldEmpty),
      s.advance.2)
  uartGetIntId s :=
    (some s.intId,
      if s.intId &&& iirInt = 0 ∧ s.intId &&& intMask = iirTrnsmtEmpty then
        { s.advance.2 with pending := false }
      else s.advance.2)
  readRbr s := (some s.advance.1, s.advance.2)
  writeThr _ s := (true, { s.advance.2 with busy := true })
  unassigned _ := 0

namespace Line

/-- The transmitter will raise an interrupt, or has raised one. -/
def Live (s : Line) : Prop := s.busy = true ∨ s.pending = true

theorem live_complete {s : Line} (h : s.Live) : s.complete.Live := by
  unfold complete
  split
  · exact Or.inr rfl
  · exact h

theorem live_advance {s : Line} (h : s.Live) : s.advance.2.Live := by
  unfold advance
  split
  · exact h
  · split
    · exact live_complete h
    · exact h

/-- The ready bit reads as set exactly when the transmitter is idle. -/
theorem ready_iff (s : Line) (status : Byte) :
    ((lineDevice.uartGetLineStatus s).1.getD status) &&& transHoldEmpty ≠ 0 ↔
      s.advance.2.busy = false := by
  have hbit : ∀ v : Byte, (v &&& ~~~transHoldEmpty ||| 0) &&& transHoldEmpty = 0 ∧
      (v &&& ~~~transHoldEmpty ||| transHoldEmpty) &&& transHoldEmpty ≠ 0 := by decide
  cases hb : s.advance.2.busy
  · simpa [lineDevice, hb] using (hbit s.advance.1).2
  · simpa [lineDevice, hb] using (hbit s.advance.1).1

/-- **After `uart_send_byte` the transmitter is busy**: with the byte, or, when
the call failed, with the one that made it fail. -/
theorem sendLoop_busy (byte : Byte) : ∀ (n : ℕ) (status : Byte) (u : Uart Line),
    0 < n → (sendLoop lineDevice byte n status u).2.dev.busy = true := by
  intro n
  induction n with
  | zero => intro status u h; omega
  | succ n ih =>
    intro status u _
    unfold sendLoop
    dsimp only
    split
    · rfl
    · next hready =>
      -- not ready means busy, and a poll more can only find it so again or send
      rw [ready_iff, Bool.not_eq_false] at hready
      cases n with
      | zero => exact hready
      | succ n => exact ih _ _ (Nat.succ_pos n)

theorem uartSendByte_busy (byte : Byte) (u : Uart Line) :
    (uartSendByte lineDevice byte u).2.dev.busy = true :=
  sendLoop_busy byte uartMaxTries _ u (by decide)

end Line

end OperationMinix
