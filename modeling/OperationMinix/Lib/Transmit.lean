import OperationMinix.Lib.Line
import OperationMinix.Runs.Machine
import Mathlib.Data.List.Perm.Basic

/-!
# What becomes of a submitted byte

The transmit path is used from three places at once: the program submits bytes
with `uart_safe_transmit` and `uart_push_transmit` and discards queued ones with
`empty_transmit_queue`, and the interrupt handler moves queued bytes to the
transmitter.  `txMachine` interleaves them in every order, over every device,
and keeps two histories beside the driver: the bytes submitted and the bytes
discarded.

Order holds without reservation.  Conservation does not: `uart_safe_transmit`
writes to the port without a queue while `can_send` is set, and when the polls
of `uart_send_byte` run out the byte is gone.  That is the only leak, so the runs
that lose no byte are exactly those whose direct submissions all find the
transmitter ready in time.

## Main definitions

* `TxInput`, `TxHistory`, `txMachine` — the steps of the transmit path.
* `TransmitterTakes` — the transmitter is ready at one of the polls.
* `Conserved` — every submitted byte is written, queued or discarded.

## Main results

* `transmit_order` — what was written and what is queued is a subsequence of
  what was submitted.
* `conserved_iff` — **no byte is lost exactly when every direct submission finds
  the transmitter ready.**
-/

namespace OperationMinix

open Runs

/-- A step of the transmit path. -/
inductive TxInput (σ : Type*) where
  | safeTransmit (byte : Byte)
  | pushTransmit (byte : Byte)
  | emptyQueue
  /-- A call of the interrupt handler, with the bound on its rounds and what its
  local variable holds on entry. -/
  | ih (fuel : ℕ) (byte : Byte)
  /-- The chip changes on its own. -/
  | device (s : σ)

/-- The driver together with the bytes submitted and the queued bytes discarded
so far, oldest first. -/
structure TxHistory (σ : Type*) where
  uart : Uart σ
  submitted : List Byte
  cleared : List Byte

/-- The history before the first step. -/
def TxHistory.init {σ : Type*} (dev : σ) : TxHistory σ :=
  { uart := Uart.init dev, submitted := [], cleared := [] }

variable {σ : Type*} (d : Device σ)

/-- The transmit path, step by step. -/
def txMachine : Machine (TxHistory σ) (TxInput σ) where
  step h
    | .safeTransmit b => some
        { h with uart := uartSafeTransmit d b h.uart, submitted := h.submitted ++ [b] }
    | .pushTransmit b => some
        { h with uart := uartPushTransmit b h.uart, submitted := h.submitted ++ [b] }
    | .emptyQueue => some
        { h with uart := emptyTransmitQueue h.uart, cleared := h.cleared ++ h.uart.outFifo }
    | .ih fuel byte => (uartIh d fuel byte h.uart).map fun u => { h with uart := u }
    | .device s => some { h with uart := { h.uart with dev := s } }

/-! ### Order -/

/-- What the transmit path promises about order: the flag is set only over an
empty queue, and the bytes written and queued are a subsequence of `submitted`. -/
structure InOrder (submitted : List Byte) (u : Uart σ) : Prop where
  canSend : u.canSend = true → u.outFifo = []
  sublist : (u.thr ++ u.outFifo).Sublist submitted

variable {d}

/-- The transmit case writes from the front of the queue, so the bytes written
and queued stay the same list. -/
theorem trnsmtEmptyCase_append (u : Uart σ) :
    (trnsmtEmptyCase d u).thr ++ (trnsmtEmptyCase d u).outFifo = u.thr ++ u.outFifo := by
  unfold trnsmtEmptyCase
  split
  · rfl
  · obtain ⟨s, sent, rest, hq, hd⟩ := drainOut_spec (d := d) u.outFifo u rfl
    rw [hd, hq]
    simp

theorem InOrder.trnsmtEmptyCase {sub : List Byte} {u : Uart σ} (h : InOrder sub u) :
    InOrder sub (trnsmtEmptyCase d u) where
  canSend := by
    intro hc
    unfold OperationMinix.trnsmtEmptyCase at hc ⊢
    split at hc
    · next hq => simp [hq]
    · cases hc
  sublist := by rw [trnsmtEmptyCase_append]; exact h.sublist

theorem InOrder.uartPushTransmit {sub : List Byte} {u : Uart σ} (h : InOrder sub u) (b : Byte) :
    InOrder (sub ++ [b]) (uartPushTransmit b u) where
  canSend := by intro hc; cases hc
  sublist := by
    simpa [OperationMinix.uartPushTransmit] using h.sublist.append (List.Sublist.refl [b])

/-- A direct submission meets an empty queue, so it cannot overtake anything. -/
theorem InOrder.uartSafeTransmit {sub : List Byte} {u : Uart σ} (h : InOrder sub u) (b : Byte) :
    InOrder (sub ++ [b]) (uartSafeTransmit d b u) := by
  unfold OperationMinix.uartSafeTransmit transmitterEmpty
  split
  · next hc =>
    have hq := h.canSend hc
    have hsub : u.thr.Sublist sub := by simpa [hq] using h.sublist
    obtain ⟨s, hs | hs⟩ := uartSendByte_cases (d := d) b u
    · rw [hs]
      exact ⟨fun _ => hq, by simpa [hq] using hsub.append (List.Sublist.refl [b])⟩
    · rw [hs]
      exact ⟨fun _ => hq, by simpa [hq] using hsub.trans (List.sublist_append_left sub [b])⟩
  · exact h.uartPushTransmit b

/-- One step keeps the order. -/
theorem inOrder_step {h k : TxHistory σ} {i : TxInput σ} (hin : InOrder h.submitted h.uart)
    (hk : (txMachine d).step h i = some k) : InOrder k.submitted k.uart := by
  cases i with
  | safeTransmit b => cases hk; exact hin.uartSafeTransmit b
  | pushTransmit b => cases hk; exact hin.uartPushTransmit b
  | emptyQueue =>
    cases hk
    refine ⟨fun _ => rfl, ?_⟩
    simpa [emptyTransmitQueue] using (List.sublist_append_left _ _).trans hin.sublist
  | ih fuel byte =>
    simp only [txMachine, Option.map_eq_some_iff] at hk
    obtain ⟨u, hu, rfl⟩ := hk
    refine uartIh_transmit (J := fun u => InOrder h.submitted u) ?_ ?_ hin hu
    · intro u v hin ho hc ht
      exact ⟨by rw [hc, ho]; exact hin.canSend, by rw [ht, ho]; exact hin.sublist⟩
    · intro u hin
      exact hin.trnsmtEmptyCase
  | device s => cases hk; exact ⟨hin.canSend, hin.sublist⟩

/-- **Bytes are transmitted in the order they were submitted, none of them
twice**, whatever the order of the calls and whatever the chip answers. -/
theorem transmit_order (d : Device σ) (dev : σ) (is : List (TxInput σ)) (h : TxHistory σ)
    (hrun : (txMachine d).run (TxHistory.init dev) is = some h) :
    (h.uart.canSend = true → h.uart.outFifo = []) ∧
      (h.uart.thr ++ h.uart.outFifo).Sublist h.submitted := by
  have hinit : InOrder [] (Uart.init dev) := ⟨fun _ => rfl, List.Sublist.refl []⟩
  have hin : InOrder h.submitted h.uart :=
    Machine.run_invariant_of_step (J := fun h => InOrder h.submitted h.uart)
      (fun _ _ _ hs hk => inOrder_step hs hk) is hinit hrun
  exact ⟨hin.canSend, hin.sublist⟩

/-- Two direct submissions in a row, the second to a transmitter still busy with
the first, and a queued one behind them. -/
def backToBack : List (TxInput Line) := [.safeTransmit 0x4a, .safeTransmit 0x4f, .pushTransmit 0x53]

/-- The second byte is lost; the other two keep their order. -/
theorem transmit_order_backToBack : ∃ h : TxHistory Line,
    (txMachine lineDevice).run (TxHistory.init ⟨false, false, []⟩) backToBack = some h ∧
      h.uart.thr ++ h.uart.outFifo = [0x4a, 0x53] ∧
      (h.uart.thr ++ h.uart.outFifo).Sublist h.submitted :=
  ⟨_, rfl, by decide, (transmit_order lineDevice ⟨false, false, []⟩ backToBack _ rfl).2⟩

/-! ### Conservation -/

variable (d)

/-- The variable `status` of `uart_send_byte` and the chip after `k` polls, from
the chip `s`. -/
def pollStatus (s : σ) : ℕ → Byte × σ
  | 0 => (d.unassigned s, s)
  | k + 1 =>
    let r := d.uartGetLineStatus (pollStatus s k).2
    (r.1.getD (pollStatus s k).1, r.2)

/-- Poll `k`, counting from zero, finds the transmitter ready. -/
def ReadyAt (s : σ) (k : ℕ) : Prop := (pollStatus d s (k + 1)).1 &&& transHoldEmpty ≠ 0

/-- One of the `UART_MAX_TRIES` polls finds the transmitter ready, and the first
that does is followed by a write that succeeds. -/
def TransmitterTakes (byte : Byte) (s : σ) : Prop :=
  ∃ k < uartMaxTries, ReadyAt d s k ∧ (∀ j < k, ¬ ReadyAt d s j) ∧
    (d.writeThr byte (pollStatus d s (k + 1)).2).1 = true

/-- Every submitted byte has been written, is queued, or was discarded by
`empty_transmit_queue`: none is missing and none is there twice. -/
def Conserved (h : TxHistory σ) : Prop :=
  h.submitted.Perm (h.uart.thr ++ h.uart.outFifo ++ h.cleared)

/-- A call of `uart_safe_transmit` that goes to the port is taken by it. -/
def SendTaken (h : TxHistory σ) : TxInput σ → Prop
  | .safeTransmit b => h.uart.canSend = true → TransmitterTakes d b h.uart.dev
  | _ => True

/-- The byte has been written or queued between `u` and `v`. -/
def Kept (byte : Byte) (u v : Uart σ) : Prop :=
  (v.thr = u.thr ++ [byte] ∧ v.outFifo = u.outFifo) ∨
    (v.thr = u.thr ∧ v.outFifo = u.outFifo ++ [byte])

variable {d}

/-- The polling loop succeeds when one of the polls it still makes finds the
transmitter ready and the write that follows succeeds. -/
theorem sendLoop_ok_iff (byte : Byte) (s : σ) : ∀ (n k : ℕ) (u : Uart σ),
    u.dev = (pollStatus d s k).2 →
      ((sendLoop d byte n (pollStatus d s k).1 u).1 = true ↔
        ∃ j, k ≤ j ∧ j < k + n ∧ ReadyAt d s j ∧ (∀ i, k ≤ i → i < j → ¬ ReadyAt d s i) ∧
          (d.writeThr byte (pollStatus d s (j + 1)).2).1 = true) := by
  intro n
  induction n with
  | zero =>
    intro k u _
    constructor
    · intro h; cases h
    · rintro ⟨j, h1, h2, -⟩; omega
  | succ n ih =>
    intro k u hu
    have hpoll : (pollStatus d s (k + 1)).1 =
        (d.uartGetLineStatus u.dev).1.getD (pollStatus d s k).1 := by rw [hu]; rfl
    have hdev : (pollStatus d s (k + 1)).2 = (d.uartGetLineStatus u.dev).2 := by rw [hu]; rfl
    rw [sendLoop]
    by_cases hready : ReadyAt d s k
    · -- this poll is the first that is ready
      rw [if_pos (by rw [← hpoll]; exact hready), ← hdev]
      constructor
      · intro h
        exact ⟨k, Nat.le_refl k, by omega, hready, fun i h1 h2 => by omega, h⟩
      · rintro ⟨j, hkj, -, -, hfirst, hw⟩
        have : j = k := by
          by_contra hne
          exact hfirst k (Nat.le_refl k) (by omega) hready
        rw [← this]
        exact hw
    · -- the first ready poll, if any, is among the later ones
      rw [if_neg (by rw [← hpoll]; exact hready), ← hpoll, ih (k + 1) _ hdev.symm]
      constructor
      · rintro ⟨j, h1, h2, hj, hfirst, hw⟩
        refine ⟨j, by omega, by omega, hj, fun i hi hij => ?_, hw⟩
        rcases Nat.eq_or_lt_of_le hi with rfl | hlt
        · exact hready
        · exact hfirst i hlt hij
      · rintro ⟨j, h1, h2, hj, hfirst, hw⟩
        have : j ≠ k := by rintro rfl; exact hready hj
        exact ⟨j, by omega, by omega, hj, fun i hi hij => hfirst i (by omega) hij, hw⟩

theorem uartSendByte_ok_iff (byte : Byte) (u : Uart σ) :
    (uartSendByte d byte u).1 = true ↔ TransmitterTakes d byte u.dev := by
  have h := sendLoop_ok_iff byte u.dev uartMaxTries 0 u (d := d) rfl
  simpa [TransmitterTakes, uartSendByte, pollStatus] using h

/-- **A call of `uart_safe_transmit` keeps its byte exactly when it queues it or
the transmitter takes it.** -/
theorem kept_uartSafeTransmit_iff (byte : Byte) (u : Uart σ) :
    Kept byte u (uartSafeTransmit d byte u) ↔
      (u.canSend = true → TransmitterTakes d byte u.dev) := by
  unfold uartSafeTransmit transmitterEmpty
  split
  · next hc =>
    rw [← uartSendByte_ok_iff]
    obtain ⟨s, hs | hs⟩ := uartSendByte_cases (d := d) byte u
    · simp [hs, hc, Kept]
    · simp [hs, hc, Kept]
  · next hc => simp [hc, Kept, uartPushTransmit]

/-- **The handler takes a byte out of the queue only by writing it**: the list of
written and queued bytes stays as it is. -/
theorem uartIh_append {fuel : ℕ} {byte : Byte} {u v : Uart σ}
    (h : uartIh d fuel byte u = some v) : v.thr ++ v.outFifo = u.thr ++ u.outFifo := by
  refine uartIh_transmit (J := fun v => v.thr ++ v.outFifo = u.thr ++ u.outFifo) ?_ ?_ rfl h
  · intro v w hv ho _ ht
    rw [ho, ht, hv]
  · intro v hv
    rw [trnsmtEmptyCase_append, hv]

/-- A submission that keeps its byte conserves all of them. -/
theorem Conserved.submit {h : TxHistory σ} {v : Uart σ} {byte : Byte} (hc : Conserved h)
    (hk : Kept byte h.uart v) :
    Conserved { h with uart := v, submitted := h.submitted ++ [byte] } := by
  have hsub : ∀ l : List Byte, h.submitted.Perm l → (h.submitted ++ [byte]).Perm (byte :: l) :=
    fun l hl => (List.perm_append_singleton byte h.submitted).trans (hl.cons byte)
  unfold Conserved at hc ⊢
  refine (hsub _ hc).trans ?_
  rcases hk with ⟨ht, hq⟩ | ⟨ht, hq⟩
  · have hmid : (h.uart.thr ++ byte :: (h.uart.outFifo ++ h.cleared)).Perm _ := List.perm_middle
    simpa [ht, hq] using hmid.symm
  · have hmid : (h.uart.thr ++ h.uart.outFifo ++ byte :: h.cleared).Perm _ := List.perm_middle
    simpa [ht, hq] using hmid.symm

/-- One step whose direct submission is taken conserves the bytes. -/
theorem conserved_step {h k : TxHistory σ} {i : TxInput σ} (hc : Conserved h)
    (hi : SendTaken d h i) (hk : (txMachine d).step h i = some k) : Conserved k := by
  cases i with
  | safeTransmit b => cases hk; exact hc.submit ((kept_uartSafeTransmit_iff b h.uart).mpr hi)
  | pushTransmit b => cases hk; exact hc.submit (Or.inr ⟨rfl, rfl⟩)
  | emptyQueue =>
    cases hk
    unfold Conserved at hc ⊢
    refine hc.trans ?_
    simpa [emptyTransmitQueue] using List.Perm.append_left _ List.perm_append_comm
  | ih fuel byte =>
    simp only [txMachine, Option.map_eq_some_iff] at hk
    obtain ⟨u, hu, rfl⟩ := hk
    unfold Conserved at hc ⊢
    rw [uartIh_append hu]
    exact hc
  | device s => cases hk; exact hc

/-- A direct submission that is not taken loses its byte at once. -/
theorem not_conserved_of_not_taken {h : TxHistory σ} {i : TxInput σ} (hc : Conserved h)
    (hi : ¬ SendTaken d h i) : ∃ k, (txMachine d).step h i = some k ∧ ¬ Conserved k := by
  cases i with
  | safeTransmit b =>
    refine ⟨_, rfl, fun hk => hi fun hcan => ?_⟩
    rw [← uartSendByte_ok_iff]
    -- the byte was counted as submitted, so it has to be somewhere
    have hlen := hk.length_eq
    have hlen' := hc.length_eq
    obtain ⟨s, hs | hs⟩ := uartSendByte_cases (d := d) b h.uart
    · rw [hs]
    · simp [uartSafeTransmit, transmitterEmpty, hcan, hs] at hlen hlen'
      omega
  | pushTransmit b => exact absurd trivial hi
  | emptyQueue => exact absurd trivial hi
  | ih fuel byte => exact absurd trivial hi
  | device s => exact absurd trivial hi

/-- **When no transmission is dropped.**  A call of `uart_safe_transmit` leaves
its byte with the transmitter or in the queue exactly when it does not go to the
port or the transmitter is ready at one of the polls; the interrupt handler takes
a byte out of the queue only by writing it; and over any interleaving the
submitted bytes are all written, queued or discarded by `empty_transmit_queue`
exactly when every direct submission was taken. -/
theorem conserved_iff (d : Device σ) :
    (∀ (byte : Byte) (u : Uart σ), Kept byte u (uartSafeTransmit d byte u) ↔
      (u.canSend = true → TransmitterTakes d byte u.dev)) ∧
    (∀ (fuel : ℕ) (byte : Byte) (u v : Uart σ), uartIh d fuel byte u = some v →
      v.thr ++ v.outFifo = u.thr ++ u.outFifo) ∧
    ∀ (dev : σ) (is : List (TxInput σ)),
      (txMachine d).Always Conserved (TxHistory.init dev) is ↔
        (txMachine d).Along (SendTaken d) (TxHistory.init dev) is := by
  refine ⟨kept_uartSafeTransmit_iff, fun _ _ _ _ h => uartIh_append h, fun dev is => ?_⟩
  exact Machine.always_iff_along (J := Conserved) (fun _ h => h)
    (fun _ _ _ hs hi hk => conserved_step hs hi hk)
    (fun _ _ hs hi => not_conserved_of_not_taken hs hi) is _ (List.Perm.refl [])

/-- Two direct submissions, the second after the transmitter has finished the
first and the handler has been called. -/
def paced : List (TxInput Line) :=
  [.safeTransmit 0x4a, .device ⟨false, true, []⟩, .ih 2 0, .safeTransmit 0x4f]

/-- At that pace both bytes reach the transmitter. -/
theorem conserved_iff_paced :
    (txMachine lineDevice).Always Conserved (TxHistory.init ⟨false, false, []⟩) paced := by
  have htaken : ∀ (b : Byte) (s : Line), s = ⟨false, false, []⟩ →
      TransmitterTakes lineDevice b s := by
    rintro b s rfl
    exact ⟨0, by decide, by unfold ReadyAt; decide, fun j hj => absurd hj (Nat.not_lt_zero j), rfl⟩
  refine ((conserved_iff lineDevice).2.2 _ paced).mpr ⟨fun _ => htaken _ _ rfl, ?_⟩
  exact ⟨trivial, trivial, fun _ => htaken _ _ rfl, trivial⟩

/-- The byte sent while the transmitter is busy with the one before vanishes: it
is neither written nor queued, and nothing was discarded. -/
theorem not_conserved_backToBack :
    ¬ (txMachine lineDevice).Always Conserved (TxHistory.init ⟨false, false, []⟩) backToBack := by
  intro h
  have hlen := (Machine.always_run backToBack _ _ h rfl).length_eq
  revert hlen
  decide

end OperationMinix
