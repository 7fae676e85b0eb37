import OperationMinix.Lib.Uart

/-!
# What the receive branch queues

Here the chip is what it answers: a round of the polling loop reads the line status, and
the receiver buffer if the status says that it holds a byte, and a script has the answers
for every round.  A line whose script is at its end fails every read, so the receive branch
comes to its end on every script.

A status that carries an error ends the poll whether or not a byte was read, and the branch
queues its variable behind the mark in either case.  Where no byte was read, the variable
has one of an earlier round, or of the status interrupt, or none at all.

## Main definitions

* `ReadRound`, `scriptDevice` — the answers of one round, and the chip that gives them.
* `served` — the rounds that the branch asks for.
* `ReadRound.expected` — the entries a round should give.

## Main results

* `recvCase_queued` — what is queued, on every script.
* `receive_faithful_iff` — **the queue gets what was read exactly when** every status with an
  error came with a byte.
-/

namespace OperationMinix

/-! ### Scripts -/

/-- What the chip answers in one round of the polling loop; a read is `none` when it
fails, and the second is only made when the first says so. -/
structure ReadRound where
  status : Option Byte
  data : Option Byte
  deriving DecidableEq, Repr

/-- The byte that is read in a round. -/
def ReadRound.read (r : ReadRound) : Option Byte :=
  r.status.bind fun status => if status &&& receiveData ≠ 0 then r.data else none

/-- The status of the round carries an error. -/
def ReadRound.error (r : ReadRound) : Bool :=
  r.status.any fun status => status &&& receiveErrors ≠ 0

/-- The round gives nothing, and the loop tries again. -/
def ReadRound.idle (r : ReadRound) : Bool := !r.error && r.read.isNone

/-- The chip of a script: what its receiver buffer answers now, and the rounds to come. -/
structure Script where
  data : Option Byte
  rounds : List ReadRound
  deriving DecidableEq, Repr

/-- A chip that answers from a script, and is only there to receive. -/
def scriptDevice : Device Script where
  uartGetLineStatus s :=
    match s.rounds with
    | [] => (none, s)
    | r :: rs => (r.status, { data := r.data, rounds := rs })
  uartGetIntId s := (none, s)
  readRbr s := (s.data, s)
  writeThr _ s := (false, s)
  unassigned _ := 0

/-- The rounds that are asked for with `n` rounds of the poll left: a poll ends with the
round that gives something, and the branch with a poll of which no round does. -/
def served : List ReadRound → ℕ → List ReadRound
  | [], _ => []
  | _ :: _, 0 => []
  | r :: rs, n + 1 => r :: served rs (if r.idle then n else uartMaxTries)

/-! ### One poll -/

@[simp] theorem receiveLoop_nil (n : ℕ) (byte : Byte) (data : Option Byte) :
    receiveLoop scriptDevice n byte { data, rounds := [] } =
      (.empty, byte, { data, rounds := [] }) := by
  induction n with
  | zero => rfl
  | succ n ih => rw [receiveLoop]; exact ih

/-- **One round of the poll.** -/
theorem receiveLoop_cons (n : ℕ) (byte : Byte) (data : Option Byte) (r : ReadRound)
    (rs : List ReadRound) :
    receiveLoop scriptDevice (n + 1) byte { data, rounds := r :: rs } =
      if r.error then (.lineError, r.read.getD byte, { data := r.data, rounds := rs })
      else if r.read.isSome then (.ok, r.read.getD byte, { data := r.data, rounds := rs })
      else receiveLoop scriptDevice n byte { data := r.data, rounds := rs } := by
  obtain ⟨status, answer⟩ := r
  rw [receiveLoop]
  cases status with
  | none => rfl
  | some status =>
    have hstatus : scriptDevice.uartGetLineStatus
        { data, rounds := { status := some status, data := answer } :: rs } =
          (some status, { data := answer, rounds := rs }) := rfl
    have hread : (if status &&& receiveData ≠ 0 then
          scriptDevice.readRbr { data := answer, rounds := rs }
        else (none, { data := answer, rounds := rs })) =
          (ReadRound.read { status := some status, data := answer },
            { data := answer, rounds := rs }) := by
      simp only [ReadRound.read, Option.bind_some]
      split <;> rfl
    have herror : ReadRound.error { status := some status, data := answer } =
        decide (status &&& receiveErrors ≠ 0) := rfl
    simp only [hstatus, hread, herror, decide_eq_true_eq]
    cases ReadRound.read { status := some status, data := answer } <;> simp

/-! ### The branch -/

/-- The entries that the branch queues for a round, with its variable as the rounds before
left it. -/
def ReadRound.entries (byte : Byte) (r : ReadRound) : List Entry :=
  if r.error then [uartErrorCode, entry (r.read.getD byte)]
  else if r.read.isSome then [entry (r.read.getD byte)]
  else []

/-- The entries that the branch queues for a list of rounds. -/
def queued : Byte → List ReadRound → List Entry
  | _, [] => []
  | byte, r :: rs => r.entries byte ++ queued (r.read.getD byte) rs

/-- The receive branch with `n` rounds of a poll left. -/
def recvPoll {σ : Type*} (d : Device σ) (n fuel : ℕ) (byte : Byte) (u : Uart σ) :
    Option (Byte × Uart σ) :=
  let r := receiveLoop d n byte u.dev
  let u := { u with dev := r.2.2 }
  match r.1 with
  | .empty => some (r.2.1, u)
  | .ok => recvCase d fuel r.2.1 { u with inFifo := u.inFifo ++ [entry r.2.1] }
  | .lineError =>
    recvCase d fuel r.2.1 { u with inFifo := u.inFifo ++ [uartErrorCode, entry r.2.1] }

theorem recvCase_succ {σ : Type*} (d : Device σ) (fuel : ℕ) (byte : Byte) (u : Uart σ) :
    recvCase d (fuel + 1) byte u = recvPoll d uartMaxTries fuel byte u := rfl

/-- One round of the branch: it is tried again, or it gives its entries and a new poll begins. -/
theorem recvPoll_cons (n fuel : ℕ) (byte : Byte) (r : ReadRound) (rs : List ReadRound)
    {u : Uart Script} (hu : u.dev.rounds = r :: rs) :
    recvPoll scriptDevice (n + 1) fuel byte u =
      if r.idle then
        recvPoll scriptDevice n fuel byte { u with dev := { data := r.data, rounds := rs } }
      else
        recvCase scriptDevice fuel (r.read.getD byte)
          { u with
            dev := { data := r.data, rounds := rs }
            inFifo := u.inFifo ++ r.entries byte } := by
  obtain ⟨⟨data, rounds⟩, inFifo, outFifo, canSend, thr⟩ := u
  cases hu
  cases herror : r.error with
  | true => simp [recvPoll, receiveLoop_cons, ReadRound.idle, ReadRound.entries, herror]
  | false =>
    cases hread : r.read <;>
      simp [recvPoll, receiveLoop_cons, ReadRound.idle, ReadRound.entries, herror, hread]

theorem entries_of_idle {byte : Byte} {r : ReadRound} (h : r.idle = true) :
    r.entries byte = [] ∧ r.read.getD byte = byte := by
  obtain ⟨herror, hread⟩ : r.error = false ∧ r.read = none := by
    simpa [ReadRound.idle] using h
  simp [ReadRound.entries, herror, hread]

/-- **The rest of a branch**: it comes to its end, and queues what its rounds give. -/
theorem recvPoll_queued : ∀ (rs : List ReadRound) (n fuel : ℕ) (byte : Byte) (u : Uart Script),
    u.dev.rounds = rs → rs.length ≤ fuel →
    ∃ byte' dev', recvPoll scriptDevice n fuel byte u =
        some (byte', { u with dev := dev', inFifo := u.inFifo ++ queued byte (served rs n) }) ∧
      rs = served rs n ++ dev'.rounds := by
  intro rs
  induction rs with
  | nil =>
    intro n fuel byte u hu _
    obtain ⟨⟨data, rounds⟩, inFifo, outFifo, canSend, thr⟩ := u
    cases hu
    refine ⟨byte, { data, rounds := [] }, ?_, rfl⟩
    simp [recvPoll, served, queued]
  | cons r rs ih =>
    intro n fuel byte u hu hfuel
    cases n with
    | zero =>
      -- the poll has no round left
      exact ⟨byte, u.dev, by simp [recvPoll, receiveLoop, served, queued], hu.symm⟩
    | succ n =>
      rw [recvPoll_cons n fuel byte r rs hu, served, queued]
      by_cases hidle : r.idle = true
      · rw [if_pos hidle, if_pos hidle, (entries_of_idle hidle).1, (entries_of_idle hidle).2]
        obtain ⟨byte', dev', hrun, hrest⟩ := ih n fuel byte
          { u with dev := { data := r.data, rounds := rs } } rfl (Nat.le_of_succ_le hfuel)
        exact ⟨byte', dev', hrun, by rw [List.cons_append, ← hrest]⟩
      · rw [if_neg hidle, if_neg hidle]
        obtain ⟨fuel, rfl⟩ := Nat.exists_eq_succ_of_ne_zero
          (Nat.ne_of_gt (Nat.lt_of_lt_of_le (Nat.succ_pos _) hfuel))
        obtain ⟨byte', dev', hrun, hrest⟩ := ih uartMaxTries fuel (r.read.getD byte)
          { u with dev := { data := r.data, rounds := rs }, inFifo := u.inFifo ++ r.entries byte }
          rfl (Nat.le_of_succ_le_succ hfuel)
        refine ⟨byte', dev', ?_, by rw [List.cons_append, ← hrest]⟩
        rw [recvCase_succ, hrun, List.append_assoc]

/-- **What the receive branch queues.**  It comes to its end on every script, and `served` are
the rounds that it has asked for. -/
theorem recvCase_queued (n : ℕ) (byte : Byte) (u : Uart Script) :
    ∃ byte' dev', recvCase scriptDevice (u.dev.rounds.length + n + 1) byte u =
        some (byte', { u with
          dev := dev'
          inFifo := u.inFifo ++ queued byte (served u.dev.rounds uartMaxTries) }) ∧
      u.dev.rounds = served u.dev.rounds uartMaxTries ++ dev'.rounds :=
  recvPoll_queued u.dev.rounds uartMaxTries _ byte u rfl (Nat.le_add_right _ n)

/-! ### What should be queued -/

/-- The entries that a round should give: the byte that is read, behind a mark if the status
carries an error, and nothing if no byte is read. -/
def ReadRound.expected (r : ReadRound) : List Entry :=
  match r.read with
  | none => []
  | some b => if r.error then [uartErrorCode, entry b] else [entry b]

/-- A byte is not the mark. -/
theorem entry_ne_uartErrorCode (b : Byte) : entry b ≠ uartErrorCode := by
  revert b
  decide

/-- **Without the marks, the entries are the bytes that are read**, in order and each once. -/
theorem expected_bytes (rs : List ReadRound) :
    (rs.flatMap ReadRound.expected).filter (· ≠ uartErrorCode) =
      (rs.filterMap ReadRound.read).map entry := by
  induction rs with
  | nil => rfl
  | cons r rs ih =>
    rw [List.flatMap_cons, List.filter_append, ih]
    cases hread : r.read with
    | none => simp [ReadRound.expected, hread]
    | some b =>
      cases herror : r.error <;>
        simp [ReadRound.expected, hread, herror, entry_ne_uartErrorCode]

/-- The status carries an error, and no byte is read with it. -/
def ReadRound.stale (r : ReadRound) : Bool := r.error && r.read.isNone

theorem entries_of_not_stale {byte : Byte} {r : ReadRound} (h : r.stale = false) :
    r.entries byte = r.expected := by
  unfold ReadRound.stale at h
  unfold ReadRound.entries ReadRound.expected
  cases hread : r.read with
  | none => simp_all
  | some b => simp

/-- Every stale round gives two entries too many. -/
theorem length_queued : ∀ (rs : List ReadRound) (byte : Byte),
    (queued byte rs).length =
      (rs.flatMap ReadRound.expected).length + 2 * rs.countP ReadRound.stale := by
  intro rs
  induction rs with
  | nil => intro byte; rfl
  | cons r rs ih =>
    intro byte
    rw [queued, List.flatMap_cons, List.length_append, List.length_append, ih, List.countP_cons]
    cases hstale : r.stale with
    | false =>
      rw [entries_of_not_stale hstale]
      simp only [Bool.false_eq_true, if_false]
      omega
    | true =>
      obtain ⟨herror, hread⟩ : r.error = true ∧ r.read = none := by
        simpa [ReadRound.stale] using hstale
      simp only [ReadRound.entries, ReadRound.expected, herror, hread, if_true, List.length_cons,
        List.length_nil]
      omega

/-- **The entries are the expected ones exactly when no round is stale.** -/
theorem queued_eq_expected_iff (byte : Byte) (rs : List ReadRound) :
    queued byte rs = rs.flatMap ReadRound.expected ↔ ∀ r ∈ rs, r.stale = false := by
  constructor
  · intro heq r hr
    have hlen := length_queued rs byte
    rw [heq] at hlen
    have hcount : rs.countP ReadRound.stale = 0 := by omega
    simpa using List.countP_eq_zero.mp hcount r hr
  · intro h
    induction rs generalizing byte with
    | nil => rfl
    | cons r rs ih =>
      rw [queued, List.flatMap_cons, entries_of_not_stale (h r List.mem_cons_self),
        ih _ fun s hs => h s (List.mem_cons_of_mem r hs)]

/-- The queue of `v` is that of `u` with what the rounds should give. -/
def Faithful {σ : Type*} (u v : Uart σ) (rs : List ReadRound) : Prop :=
  v.inFifo = u.inFifo ++ rs.flatMap ReadRound.expected

/-- **The queue gets what was read exactly when** every status with an error came with a byte
that was read. -/
theorem receive_faithful_iff (n : ℕ) (byte : Byte) (u : Uart Script) :
    ∃ byte' v, recvCase scriptDevice (u.dev.rounds.length + n + 1) byte u = some (byte', v) ∧
      u.dev.rounds = served u.dev.rounds uartMaxTries ++ v.dev.rounds ∧
      (Faithful u v (served u.dev.rounds uartMaxTries) ↔
        ∀ r ∈ served u.dev.rounds uartMaxTries, r.error = true → r.read.isSome = true) := by
  obtain ⟨byte', dev', hrun, hrest⟩ := recvCase_queued n byte u
  refine ⟨byte', _, hrun, hrest, ?_⟩
  have hstale : ∀ r : ReadRound, r.stale = false ↔ (r.error = true → r.read.isSome = true) := by
    intro r
    cases herror : r.error <;> cases hread : r.read <;> simp [ReadRound.stale, herror, hread]
  simp only [Faithful, List.append_cancel_left_eq, queued_eq_expected_iff, hstale]

/-- A line that gives two bytes, the second with a parity error. -/
def noisyLine : Script :=
  { data := none
    rounds :=
      [{ status := some 0x61, data := some 0x41 }, { status := some 0x65, data := some 0x42 }] }

theorem receive_faithful_iff_noisyLine :
    ∃ byte' v, recvCase scriptDevice 3 0 (Uart.init noisyLine) = some (byte', v) ∧
      Faithful (Uart.init noisyLine) v noisyLine.rounds := by
  obtain ⟨byte', v, hrun, -, hiff⟩ := receive_faithful_iff 0 0 (Uart.init noisyLine)
  exact ⟨byte', v, hrun, hiff.mpr (by decide)⟩

/-- A line that reports an overrun, and has no byte. -/
def overrunLine : Script := { data := none, rounds := [{ status := some 0x02, data := none }] }

/-- The variable is queued, although no byte was read into it. -/
theorem overrunLine_not_faithful :
    ∃ byte' v, recvCase scriptDevice 2 0x55 (Uart.init overrunLine) = some (byte', v) ∧
      v.inFifo = [uartErrorCode, entry 0x55] ∧
      ¬ Faithful (Uart.init overrunLine) v (served overrunLine.rounds uartMaxTries) := by
  refine ⟨_, _, rfl, rfl, ?_⟩
  unfold Faithful
  decide

end OperationMinix
