import OperationMinix.Controls.Mouse
import OperationMinix.Runs.Attempt

/-!
# Commands to the mouse

The program sends the mouse a byte by writing `MOUSE_WRITE_CMD` to the command port of the keyboard
controller and the byte to its data port, and reads an answer.  Every access waits for the
controller, a limited number of times, and a command whose bytes are not all acknowledged is sent
again from its first byte, so a command may be sent in parts, and more than once.

The controller and the mouse are not part of the program: what they answer, and which accesses of a
port fail, is up to a `KbcDevice`.  What is shown is about the accesses that the driver makes.

## Main definitions

* `KbcDevice`, `Kbc` — the answers of the controller, and the accesses that were made.
* `writeByteKbc`, `writeArgKbc`, `readByteKbc`, `writeMsCmd` — the driver.
* `enableStream`, `msSetDefault`, `resetCmdByte` — its commands.
* `MsCommand`, `Acknowledged`, `Interrupted` — what commands to the mouse leave at the ports.

## Main results

* `writeMsCmd_adds` — what is sent of a command, acknowledged or not.
* `Sends.then` — commands one after the other.
* `mouse_set_up` — **a command is sent when the one before it is acknowledged**, whatever the
  controller answers.
-/

namespace OperationMinix

open Runs

/-! ### The controller and the driver -/

/-- A write to a port of the keyboard controller. -/
inductive PortWrite where
  /-- To the command port, `KBC_IN_BUF`. -/
  | command (byte : Byte)
  /-- To the data port, `KBC_OUT_BUF`. -/
  | argument (byte : Byte)
  deriving DecidableEq, Repr

/-- What the controller answers; a read is `none` when `util_sys_inb` fails, and a write is `true`
when `sys_outb` is `OK`. -/
structure KbcDevice (σ : Type*) where
  status : σ → Option Byte × σ
  readOutBuf : σ → Option Byte × σ
  write : PortWrite → σ → Bool × σ

/-- An access to a port that was made; reads of the status are not written down. -/
inductive PortAccess where
  | write (w : PortWrite)
  /-- The driver has read a byte from the output buffer. -/
  | answer (byte : Byte)
  deriving DecidableEq, Repr

/-- The controller, and the accesses that were made so far, oldest first. -/
structure Kbc (σ : Type*) where
  dev : σ
  accesses : List PortAccess

/-- `KBC_MAX_TRIES`. -/
def kbcMaxTries : ℕ := 5

/-- `KBC_IN_BUFFER_FULL`. -/
def kbcInBufferFull : Byte := 0x02

/-- `KBC_PARITY_ERR | KBC_TIMEOUT_ERR`. -/
def kbcErrors : Byte := 0xc0

/-- `ACK`. -/
def kbcAck : Byte := 0xfa

/-- `MOUSE_WRITE_CMD`. -/
def mouseWriteCmd : Byte := 0xd4

/-- `KBC_WRITE_CMD`. -/
def kbcWriteCmd : Byte := 0x60

/-- `MOUSE_ENABLE`. -/
def mouseEnable : Byte := 0xa8

/-- `ENABLE_DATA_REPORT`. -/
def enableDataReport : Byte := 0xf4

/-- `DISABLE_DATA_REPORT`. -/
def disableDataReport : Byte := 0xf5

/-- `SET_STREAM_MODE`. -/
def setStreamMode : Byte := 0xea

/-- `SET_DEFAULTS`. -/
def setDefaults : Byte := 0xf6

/-- `SET_SAMPLE_RATE`. -/
def setSampleRate : Byte := 0xf3

/-- `SET_RESOLUTION`. -/
def setResolution : Byte := 0xe8

variable {σ : Type*} (d : KbcDevice σ)

/-- `get_status_kbc`. -/
def getStatusKbc : Attempt (Kbc σ) Byte := fun s =>
  let r := d.status s.dev
  (r.1, { s with dev := r.2 })

/-- A read of the output buffer. -/
def readOutBuf : Attempt (Kbc σ) Byte := fun s =>
  match d.readOutBuf s.dev with
  | (some byte, dev) => (some byte, { dev, accesses := s.accesses ++ [.answer byte] })
  | (none, dev) => (none, { s with dev })

/-- `sys_outb`. -/
def sysOutb (w : PortWrite) : Attempt (Kbc σ) Unit := fun s =>
  let r := d.write w s.dev
  if r.1 then (some (), { dev := r.2, accesses := s.accesses ++ [.write w] })
  else (none, { s with dev := r.2 })

/-- `write_byte_kbc`. -/
def writeByteKbc (byte : Byte) : Attempt (Kbc σ) Unit :=
  .retry (do
    let status ← getStatusKbc d
    Attempt.check (status &&& (kbcErrors ||| kbcInBufferFull) = 0)
    sysOutb d (.command byte)) kbcMaxTries

/-- `write_arg_kbc`, which waits for the output buffer. -/
def writeArgKbc (byte : Byte) : Attempt (Kbc σ) Unit :=
  .retry (do
    let status ← getStatusKbc d
    Attempt.check (status &&& (kbcErrors ||| kbcOutBufferFull) = 0)
    sysOutb d (.argument byte)) kbcMaxTries

/-- `read_byte_kbc`. -/
def readByteKbc : Attempt (Kbc σ) Byte :=
  .retry (do
    let status ← getStatusKbc d
    Attempt.check (status &&& (kbcErrors ||| kbcOutBufferFull) = kbcOutBufferFull)
    readOutBuf d) kbcMaxTries

/-- One byte of a command to the mouse, and its acknowledgement. -/
def writeMsArg (arg : Byte) : Attempt (Kbc σ) Unit := do
  writeByteKbc d mouseWriteCmd
  writeArgKbc d arg
  let answer ← readByteKbc d
  Attempt.check (answer = kbcAck)

/-- `write_ms_cmd`. -/
def writeMsCmd (args : List Byte) : Attempt (Kbc σ) Unit :=
  .retry (.forEach (writeMsArg d) args) kbcMaxTries

/-- `write_kbc_cmd_byte`. -/
def writeKbcCmdByte (byte : Byte) : Attempt (Kbc σ) Unit := do
  writeByteKbc d kbcWriteCmd
  writeArgKbc d byte

/-- `enable_ms`. -/
def enableMs : Attempt (Kbc σ) Unit := writeByteKbc d mouseEnable

/-- `enable_data_reporting`. -/
def enableDataReporting : Attempt (Kbc σ) Unit := writeMsCmd d [enableDataReport]

/-- `disable_data_reporting`. -/
def disableDataReporting : Attempt (Kbc σ) Unit := writeMsCmd d [disableDataReport]

/-- `enable_stream`. -/
def enableStream : Attempt (Kbc σ) Unit := do
  disableDataReporting d
  writeMsCmd d [setStreamMode]
  enableDataReporting d

/-- `ms_set_default`. -/
def msSetDefault : Attempt (Kbc σ) Unit := do
  disableDataReporting d
  writeMsCmd d [setDefaults]

/-- `reset_cmd_byte`; the byte is that of `minix_get_dflt_kbc_cmd_byte`. -/
def resetCmdByte (normal : Byte) : Attempt (Kbc σ) Unit := writeKbcCmdByte d normal

/-- An action whose failure is not looked at. -/
def ignored (x : Attempt (Kbc σ) Unit) : Attempt (Kbc σ) Unit := fun s => (some (), (x s).2)

/-- The part of `init_game` that sets the mouse up. -/
def setUpMouse : Attempt (Kbc σ) Unit := do
  enableStream d
  enableMs d
  -- the results of these two are not looked at
  ignored (writeMsCmd d [setSampleRate, 60])
  ignored (writeMsCmd d [setResolution, 0])

/-- The part of `free_game` that releases it: whether each of the two commands has succeeded. -/
def releaseMouse (normal : Byte) (s : Kbc σ) : (Option Unit × Option Unit) × Kbc σ :=
  let r := msSetDefault d s
  let q := resetCmdByte d normal r.2
  ((r.1, q.1), q.2)

/-! ### What is sent -/

/-- A byte to the mouse, and its acknowledgement. -/
def exchange (b : Byte) : List PortAccess :=
  [.write (.command mouseWriteCmd), .write (.argument b), .answer kbcAck]

/-- A byte that is not acknowledged: something is not written, nothing is read, or the answer is
another one. -/
def Unacknowledged (b : Byte) (w : List PortAccess) : Prop :=
  w <+: [.write (.command mouseWriteCmd), .write (.argument b)] ∨
    ∃ a ≠ kbcAck, w = [.write (.command mouseWriteCmd), .write (.argument b), .answer a]

/-- An attempt to send a command that breaks off: the bytes up to one are acknowledged. -/
def BreaksOff (args : List Byte) (w : List PortAccess) : Prop :=
  ∃ pre c post v, args = pre ++ c :: post ∧ w = pre.flatMap exchange ++ v ∧ Unacknowledged c v

/-- A call of `write_ms_cmd`: the attempts that broke off, and at last the whole command when the
call succeeds. -/
def MsCommand (args : List Byte) (ok : Option Unit) (w : List PortAccess) : Prop :=
  ∃ broken : List (List PortAccess), (∀ v ∈ broken, BreaksOff args v) ∧
    match ok with
    | some _ => broken.length < kbcMaxTries ∧ w = broken.flatten ++ args.flatMap exchange
    | none => broken.length = kbcMaxTries ∧ w = broken.flatten

/-- Nothing is written but one byte for the mouse. -/
def Only (b : Byte) (w : List PortAccess) : Prop :=
  ∀ x, .write x ∈ w → x = .command mouseWriteCmd ∨ x = .argument b

/-- The commands of one byte are acknowledged, each before the next one is sent. -/
def Acknowledged : List Byte → List PortAccess → Prop
  | [], w => w = []
  | b :: bs, w => ∃ u v, w = u ++ (exchange b ++ v) ∧ Only b u ∧ Acknowledged bs v

/-- The first of the commands are acknowledged, and of the others only the next one is sent. -/
def Interrupted (bs : List Byte) (w : List PortAccess) : Prop :=
  ∃ pre c post u v, bs = pre ++ c :: post ∧ w = u ++ v ∧ Acknowledged pre u ∧ Only c v

/-- What comes to the data port is the argument of the command that was written just before. -/
def Addressed (w : List PortAccess) : Prop :=
  ∀ u b v, w = u ++ .write (.argument b) :: v →
    ∃ c ∈ [mouseWriteCmd, kbcWriteCmd], [.write (.command c)] <:+ u

/-- A byte is sent only after another one was acknowledged. -/
def After (c b : Byte) (w : List PortAccess) : Prop :=
  ∀ u v, w = u ++ .write (.argument b) :: v → exchange c <:+: u

/-- The part of `init_game`, when it succeeds and when it does not. -/
def SetUp (ok : Option Unit) (w : List PortAccess) : Prop :=
  match ok with
  | some _ => ∃ u v v' r r', w = u ++ .write (.command mouseEnable) :: (v ++ v') ∧
      Acknowledged [disableDataReport, setStreamMode, enableDataReport] u ∧
      MsCommand [setSampleRate, 60] r v ∧ MsCommand [setResolution, 0] r' v'
  | none => Interrupted [disableDataReport, setStreamMode, enableDataReport] w ∨
      Acknowledged [disableDataReport, setStreamMode, enableDataReport] w

/-- The part of `free_game`, for the results of its two commands. -/
def Released (normal : Byte) (ok : Option Unit × Option Unit) (w : List PortAccess) : Prop :=
  ∃ u v, w = u ++ v ∧
    (match ok.1 with
      | some _ => Acknowledged [disableDataReport, setDefaults] u
      | none => Interrupted [disableDataReport, setDefaults] u) ∧
    match ok.2 with
    | some _ => v = [.write (.command kbcWriteCmd), .write (.argument normal)]
    | none => v <+: [.write (.command kbcWriteCmd)]

/-! ### Arguments and their commands -/

namespace Addressed

variable {u v w : List PortAccess}

theorem nil : Addressed [] := fun u _ _ h =>
  absurd h.symm (List.append_ne_nil_of_right_ne_nil u nofun)

theorem append (hu : Addressed u) (hv : Addressed v) : Addressed (u ++ v) := by
  intro x b y h
  rcases List.append_eq_append_iff.mp h with ⟨z, rfl, hz⟩ | ⟨z, rfl, hz⟩
  · -- the argument is in the second part, and its command with it
    obtain ⟨c, hc, hsuffix⟩ := hv z b y hz
    exact ⟨c, hc, hsuffix.trans (List.suffix_append u z)⟩
  · cases z with
    | nil =>
      obtain ⟨c, hc, hsuffix⟩ := hv [] b y hz.symm
      exact absurd (List.suffix_nil.mp hsuffix) nofun
    | cons a z =>
      cases hz
      exact hu x b z rfl

theorem flatten : ∀ {ws : List (List PortAccess)}, (∀ w ∈ ws, Addressed w) →
    Addressed ws.flatten := by
  intro ws
  induction ws with
  | nil => intro _; exact nil
  | cons w ws ih =>
    intro h
    obtain ⟨hw, hws⟩ := List.forall_mem_cons.mp h
    exact hw.append (ih hws)

/-- A prefix loses no command. -/
theorem prefix_of (h : Addressed w) (hu : u <+: w) : Addressed u := by
  obtain ⟨v, rfl⟩ := hu
  intro x b y hxy
  refine h x b (y ++ v) ?_
  rw [hxy, List.append_assoc]
  rfl

/-- Another access. -/
theorem single {a : PortAccess} (ha : ∀ b, a ≠ .write (.argument b)) : Addressed [a] := by
  intro u b v h
  cases u with
  | nil => exact absurd (List.cons.inj h).1 (ha b)
  | cons x u => exact absurd (List.cons.inj h).2.symm (List.append_ne_nil_of_right_ne_nil u nofun)

/-- A command and its argument. -/
theorem pair {c : Byte} (hc : c ∈ [mouseWriteCmd, kbcWriteCmd]) (b : Byte) :
    Addressed [.write (.command c), .write (.argument b)] := by
  intro u b' v h
  cases u with
  | nil => cases (List.cons.inj h).1
  | cons x u =>
    obtain ⟨rfl, htail⟩ := List.cons.inj h
    cases u with
    | nil => exact ⟨c, hc, List.suffix_refl _⟩
    | cons y u =>
      have hnil : u ++ .write (.argument b') :: v = [] := (List.cons.inj htail).2.symm
      exact absurd hnil (List.append_ne_nil_of_right_ne_nil u nofun)

theorem exchange (b : Byte) : Addressed (OperationMinix.exchange b) :=
  (pair (by decide) b).append (single (a := .answer kbcAck) nofun)

theorem unacknowledged {b : Byte} (h : Unacknowledged b w) : Addressed w := by
  rcases h with h | ⟨a, -, rfl⟩
  · exact (pair (by decide) b).prefix_of h
  · exact (pair (by decide) b).append (single (a := .answer a) nofun)

/-- **What is sent of a command** is addressed. -/
theorem msCommand {args : List Byte} {ok : Option Unit} (h : MsCommand args ok w) :
    Addressed w := by
  have hbytes : ∀ bs : List Byte, Addressed (bs.flatMap OperationMinix.exchange) := by
    intro bs
    refine flatten fun w hw => ?_
    obtain ⟨b, -, rfl⟩ := List.mem_map.mp hw
    exact exchange b
  obtain ⟨broken, hbroken, h⟩ := h
  have hparts : Addressed broken.flatten := flatten fun v hv => by
    obtain ⟨pre, c, post, v, -, rfl, hc⟩ := hbroken v hv
    exact (hbytes pre).append (unacknowledged hc)
  cases ok with
  | none =>
    rw [h.2]
    exact hparts
  | some _ =>
    rw [h.2]
    exact hparts.append (hbytes args)

end Addressed

/-! ### One command -/

section

variable {d}

/-- What the driver does, by the accesses that it makes. -/
theorem getStatusKbc_adds :
    Attempt.Adds Kbc.accesses (getStatusKbc d) (fun _ w => w = []) (· = []) := by
  intro l s hs
  have hsame : s.accesses = l ++ [] := hs.trans (List.append_nil l).symm
  cases hr : (d.status s.dev).1 with
  | none => exact Or.inr ⟨_, Prod.ext hr rfl, [], hsame, rfl⟩
  | some b => exact Or.inl ⟨b, _, Prod.ext hr rfl, [], hsame, rfl⟩

theorem readOutBuf_adds :
    Attempt.Adds Kbc.accesses (readOutBuf d) (fun b w => w = [.answer b]) (· = []) := by
  intro l s hs
  unfold readOutBuf
  rcases d.readOutBuf s.dev with ⟨_ | byte, dev⟩
  · exact Or.inr ⟨_, rfl, [], hs.trans (List.append_nil l).symm, rfl⟩
  · exact Or.inl ⟨byte, _, rfl, _, congrArg (· ++ [.answer byte]) hs, rfl⟩

/-- A write is made or not. -/
theorem sysOutb_adds (x : PortWrite) :
    Attempt.Adds Kbc.accesses (sysOutb d x) (fun _ w => w = [.write x]) (· = []) := by
  intro l s hs
  unfold sysOutb
  dsimp only
  split_ifs
  · exact Or.inl ⟨(), _, rfl, _, congrArg (· ++ [.write x]) hs, rfl⟩
  · exact Or.inr ⟨_, rfl, [], hs.trans (List.append_nil l).symm, rfl⟩

/-- A wait for the controller, and an access. -/
theorem poll_adds {A : Type} {x : Attempt (Kbc σ) A} {Q : A → List PortAccess → Prop}
    (hx : Attempt.Adds Kbc.accesses x Q (· = [])) (ready : Byte → Bool) (n : ℕ) :
    Attempt.Adds Kbc.accesses
      (.retry (do
        let status ← getStatusKbc d
        Attempt.check (ready status)
        x) n) Q (· = []) := by
  refine Attempt.Adds.retry_silent ?_ n
  refine (getStatusKbc_adds.bind fun status =>
    (Attempt.Adds.check Kbc.accesses (ready status)).bind fun _ => hx).imp ?_ ?_
  · rintro a w ⟨-, u, v, rfl, rfl, -, u', v', rfl, ⟨-, rfl⟩, hq⟩
    exact hq
  · rintro w (rfl | ⟨-, u, v, rfl, rfl, ⟨-, rfl⟩ | ⟨-, u', v', rfl, ⟨-, rfl⟩, rfl⟩⟩) <;> rfl

theorem writeByteKbc_adds (byte : Byte) :
    Attempt.Adds Kbc.accesses (writeByteKbc d byte) (fun _ w => w = [.write (.command byte)])
      (· = []) :=
  poll_adds (sysOutb_adds _) _ _

theorem writeArgKbc_adds (byte : Byte) :
    Attempt.Adds Kbc.accesses (writeArgKbc d byte) (fun _ w => w = [.write (.argument byte)])
      (· = []) :=
  poll_adds (sysOutb_adds _) _ _

theorem readByteKbc_adds :
    Attempt.Adds Kbc.accesses (readByteKbc d) (fun b w => w = [.answer b]) (· = []) :=
  poll_adds readOutBuf_adds _ _

/-- One byte to the mouse. -/
theorem writeMsArg_adds (arg : Byte) :
    Attempt.Adds Kbc.accesses (writeMsArg d arg) (fun _ w => w = exchange arg)
      (Unacknowledged arg) := by
  refine ((writeByteKbc_adds mouseWriteCmd).bind fun _ => (writeArgKbc_adds arg).bind fun _ =>
    readByteKbc_adds.bind fun answer =>
      Attempt.Adds.check Kbc.accesses (decide (answer = kbcAck))).imp ?_ ?_
  · rintro _ w ⟨-, u, v, rfl, rfl, -, u', v', rfl, rfl, a, u'', v'', rfl, rfl, hack, rfl⟩
    rw [of_decide_eq_true hack]
    rfl
  · -- nothing is written, the argument is not, no answer comes, or it is not `ACK`
    rintro w (rfl | ⟨-, u, v, rfl, rfl, rfl | ⟨-, u', v', rfl, rfl, rfl |
      ⟨a, u'', v'', rfl, rfl, hack, rfl⟩⟩⟩)
    · exact Or.inl List.nil_prefix
    · exact Or.inl ⟨[.write (.argument arg)], rfl⟩
    · exact Or.inl (List.prefix_refl _)
    · exact Or.inr ⟨a, of_decide_eq_false hack, rfl⟩

/-- **What is sent of a command.**  Parts of it, of which a byte was not acknowledged, and when the
command succeeds all of it at last, each byte acknowledged before the next one. -/
theorem writeMsCmd_adds (args : List Byte) :
    Attempt.Adds Kbc.accesses (writeMsCmd d args) (fun ok => MsCommand args (some ok))
      (MsCommand args none) := by
  refine ((Attempt.Adds.forEach writeMsArg_adds args).retry kbcMaxTries).imp ?_ ?_
  · rintro _ w ⟨broken, hbroken, hlen, u, rfl, rfl⟩
    exact ⟨broken, hbroken, hlen, rfl⟩
  · rintro w ⟨broken, hbroken, hlen, rfl⟩
    exact ⟨broken, hbroken, hlen, rfl⟩

end

/-! ### Commands one after the other -/

theorem Only.append {b : Byte} {u v : List PortAccess} (hu : Only b u) (hv : Only b v) :
    Only b (u ++ v) := fun x hx => (List.mem_append.mp hx).elim (hu x) (hv x)

theorem Only.exchange (b : Byte) : Only b (OperationMinix.exchange b) := by
  intro x hx
  simp only [OperationMinix.exchange, List.mem_cons, PortAccess.write.injEq, reduceCtorEq,
    List.not_mem_nil, or_false] at hx
  exact hx

theorem Only.unacknowledged {b : Byte} {w : List PortAccess} (h : Unacknowledged b w) :
    Only b w := by
  intro x hx
  rcases h with h | ⟨a, -, rfl⟩
  · have hmem := h.subset hx
    simp only [List.mem_cons, PortAccess.write.injEq, List.not_mem_nil, or_false] at hmem
    exact hmem
  · simp only [List.mem_cons, PortAccess.write.injEq, reduceCtorEq, List.not_mem_nil,
      or_false] at hx
    exact hx

/-- A command of one byte. -/
theorem MsCommand.single {b : Byte} {ok : Option Unit} {w : List PortAccess}
    (h : MsCommand [b] ok w) :
    ∃ u, Only b u ∧ w = u ++ if ok = some () then exchange b else [] := by
  obtain ⟨broken, hbroken, h⟩ := h
  have honly : Only b broken.flatten := by
    intro x hx
    obtain ⟨v, hv, hx⟩ := List.mem_flatten.mp hx
    obtain ⟨pre, c, post, v', hsplit, rfl, hc⟩ := hbroken v hv
    -- the byte that is not acknowledged is the only one
    obtain ⟨rfl, rfl, -⟩ : pre = [] ∧ c = b ∧ post = [] := by
      cases pre with
      | nil =>
        obtain ⟨rfl, rfl⟩ := List.cons.inj hsplit
        exact ⟨rfl, rfl, rfl⟩
      | cons a pre =>
        exact absurd (List.cons.inj hsplit).2.symm (List.append_ne_nil_of_right_ne_nil pre nofun)
    exact Only.unacknowledged hc x hx
  refine ⟨broken.flatten, honly, ?_⟩
  cases ok with
  | none => exact h.2.trans (List.append_nil _).symm
  | some _ => exact h.2.trans (congrArg _ (List.append_nil _))

namespace Acknowledged

variable {bs cs : List Byte} {u v : List PortAccess}

theorem append : ∀ {bs : List Byte} {u : List PortAccess}, Acknowledged bs u → Acknowledged cs v →
    Acknowledged (bs ++ cs) (u ++ v) := by
  intro bs
  induction bs with
  | nil =>
    rintro u rfl hv
    exact hv
  | cons b bs ih =>
    rintro u ⟨x, y, rfl, hx, hy⟩ hv
    exact ⟨x, y ++ v, by simp only [List.append_assoc], hx, ih hy hv⟩

theorem split : ∀ {bs : List Byte} {w : List PortAccess}, Acknowledged (bs ++ cs) w →
    ∃ u v, w = u ++ v ∧ Acknowledged bs u ∧ Acknowledged cs v := by
  intro bs
  induction bs with
  | nil => intro w h; exact ⟨[], w, rfl, rfl, h⟩
  | cons b bs ih =>
    rintro w ⟨x, y, rfl, hx, hy⟩
    obtain ⟨u, v, rfl, hu, hv⟩ := ih hy
    exact ⟨x ++ (exchange b ++ u), v, by simp only [List.append_assoc], ⟨x, u, rfl, hx, hu⟩, hv⟩

/-- What comes to the data port is one of the commands. -/
theorem mem : ∀ {bs : List Byte} {u : List PortAccess}, Acknowledged bs u → ∀ {b : Byte},
    .write (.argument b) ∈ u → b ∈ bs := by
  intro bs
  induction bs with
  | nil =>
    rintro u rfl b hb
    cases hb
  | cons a bs ih =>
    rintro u ⟨x, y, rfl, hx, hy⟩ b hb
    have hone : Only a (x ++ exchange a) := hx.append (Only.exchange a)
    rw [← List.append_assoc] at hb
    rcases List.mem_append.mp hb with hb | hb
    · rcases hone _ hb with h | h
      · cases h
      · cases h
        exact List.mem_cons_self
    · exact List.mem_cons_of_mem a (ih hy hb)

/-- The last command is acknowledged. -/
theorem exchange_infix {b : Byte} (h : Acknowledged (bs ++ [b]) u) : exchange b <:+: u := by
  obtain ⟨x, y, rfl, -, z, -, rfl, -, rfl⟩ := h.split
  refine ⟨x ++ z, [], ?_⟩
  simp only [List.append_assoc, List.append_nil]

end Acknowledged

namespace After

variable {bs cs : List Byte} {b c : Byte} {u v w : List PortAccess}

/-- It is not sent. -/
theorem of_not_mem (h : .write (.argument b) ∉ w) : After c b w := by
  rintro u v rfl
  exact absurd (List.mem_append_right u List.mem_cons_self) h

/-- It is sent later. -/
theorem of_append (hu : .write (.argument b) ∉ u) (hc : exchange c <:+: u) (v : List PortAccess) :
    After c b (u ++ v) := by
  intro x y h
  rcases List.append_eq_append_iff.mp h with ⟨z, rfl, -⟩ | ⟨z, rfl, hz⟩
  · exact hc.trans (List.prefix_append u z).isInfix
  · cases z with
    | nil => rwa [List.append_nil] at hc
    | cons a z =>
      cases hz
      exact absurd (List.mem_append_right x List.mem_cons_self) hu

theorem acknowledged (bs : List Byte) (h : Acknowledged (bs ++ c :: cs) w) (hb : b ∉ bs ++ [c])
    (v : List PortAccess) : After c b (w ++ v) := by
  rw [← List.singleton_append, ← List.append_assoc] at h
  obtain ⟨x, y, rfl, hx, -⟩ := h.split
  rw [List.append_assoc]
  exact of_append (fun hmem => hb (hx.mem hmem)) hx.exchange_infix _

theorem interrupted (bs : List Byte) (h : Interrupted (bs ++ c :: cs) w) (hb : b ∉ bs ++ [c]) :
    After c b w := by
  obtain ⟨pre, a, post, u, v, hsplit, rfl, hu, hv⟩ := h
  rcases List.append_eq_append_iff.mp hsplit with ⟨z, rfl, hz⟩ | ⟨z, rfl, hz⟩
  · cases z with
    | nil =>
      -- it broke off while the command that is waited for was sent
      obtain ⟨rfl, -⟩ := List.cons.inj hz
      rw [List.append_nil] at hu
      refine of_not_mem fun hmem => ?_
      rcases List.mem_append.mp hmem with hmem | hmem
      · exact hb (List.mem_append_left _ (hu.mem hmem))
      · rcases hv _ hmem with h | h
        · cases h
        · cases h
          exact hb (List.mem_append_right _ List.mem_cons_self)
    | cons a' z =>
      cases hz
      exact acknowledged _ hu hb v
  · -- it broke off before
    refine of_not_mem fun hmem => ?_
    rcases List.mem_append.mp hmem with hmem | hmem
    · exact hb (List.mem_append_left _ (List.mem_append_left _ (hu.mem hmem)))
    · rcases hv _ hmem with h | h
      · cases h
      · cases h
        cases z with
        | nil =>
          obtain ⟨rfl, -⟩ := List.cons.inj hz
          exact hb (List.mem_append_right _ List.mem_cons_self)
        | cons a' z =>
          cases hz
          exact hb (List.mem_append_left _ (List.mem_append_right _ List.mem_cons_self))

/-- **The mouse is told to report only after it has acknowledged stream mode.** -/
theorem setUp {ok : Option Unit} (h : SetUp ok w) : After setStreamMode enableDataReport w := by
  have hfirst : enableDataReport ∉ [disableDataReport] ++ [setStreamMode] := by decide
  cases ok with
  | none =>
    rcases h with h | h
    · exact interrupted [disableDataReport] h hfirst
    · have hlater := acknowledged [disableDataReport] h hfirst []
      rwa [List.append_nil] at hlater
  | some _ =>
    obtain ⟨u, v, v', r, r', rfl, hu, -, -⟩ := h
    exact acknowledged [disableDataReport] hu hfirst _

end After

/-- The action sends some commands of one byte. -/
def Sends (bs : List Byte) (x : Attempt (Kbc σ) Unit) : Prop :=
  Attempt.Adds Kbc.accesses x (fun _ => Acknowledged bs) (Interrupted bs)

namespace Sends

variable {d} {bs cs : List Byte} {x y : Attempt (Kbc σ) Unit}

theorem single (b : Byte) : Sends [b] (writeMsCmd d [b]) := by
  refine (writeMsCmd_adds [b]).imp (fun _ w h => ?_) fun w h => ?_
  · obtain ⟨u, hu, rfl⟩ := h.single
    exact ⟨u, [], by rw [List.append_nil, if_pos rfl], hu, rfl⟩
  · obtain ⟨u, hu, rfl⟩ := h.single
    refine ⟨[], b, [], [], u, rfl, ?_, rfl, hu⟩
    rw [if_neg nofun, List.append_nil, List.nil_append]

/-- **Commands one after the other**: those of the second action are sent when those of the first
one are acknowledged. -/
theorem «then» (hx : Sends bs x) (hy : Sends cs y) : Sends (bs ++ cs) (x >>= fun _ => y) := by
  refine (hx.bind fun _ => hy).imp ?_ ?_
  · rintro _ w ⟨-, u, v, rfl, hu, hv⟩
    exact hu.append hv
  · rintro w (⟨pre, c, post, u, v, rfl, rfl, hu, hv⟩ | ⟨-, u', w', rfl, hu', hw'⟩)
    · refine ⟨pre, c, post ++ cs, u, v, ?_, rfl, hu, hv⟩
      simp only [List.append_assoc, List.cons_append]
    · obtain ⟨pre, c, post, u, v, rfl, rfl, hu, hv⟩ := hw'
      exact ⟨bs ++ pre, c, post, u' ++ u, v, (List.append_assoc ..).symm,
        (List.append_assoc ..).symm, hu'.append hu, hv⟩

end Sends

/-! ### Setting the mouse up -/

/-- Whatever the action writes to the data port is addressed. -/
def Addresses (x : Attempt (Kbc σ) Unit) : Prop :=
  Attempt.Adds Kbc.accesses x (fun _ => Addressed) Addressed

namespace Addresses

variable {d} {x y : Attempt (Kbc σ) Unit}

theorem «then» (hx : Addresses x) (hy : Addresses y) : Addresses (x >>= fun _ => y) := by
  refine (hx.bind fun _ => hy).imp ?_ ?_
  · rintro _ w ⟨-, u, v, rfl, hu, hv⟩
    exact hu.append hv
  · rintro w (h | ⟨-, u, v, rfl, hu, hv⟩)
    · exact h
    · exact hu.append hv

theorem writeMsCmd (args : List Byte) : Addresses (OperationMinix.writeMsCmd d args) :=
  (writeMsCmd_adds args).imp (fun _ _ => .msCommand) fun _ => .msCommand

theorem enableMs : Addresses (OperationMinix.enableMs d) := by
  refine (writeByteKbc_adds mouseEnable).imp ?_ ?_
  · rintro - w rfl
    exact .single nofun
  · rintro w rfl
    exact .nil

theorem resetCmdByte (normal : Byte) : Addresses (OperationMinix.resetCmdByte d normal) := by
  refine ((writeByteKbc_adds kbcWriteCmd).bind fun _ => writeArgKbc_adds normal).imp ?_ ?_
  · rintro _ w ⟨-, u, v, rfl, rfl, rfl⟩
    exact .pair (by decide) normal
  · rintro w (rfl | ⟨-, u, v, rfl, rfl, rfl⟩)
    · exact .nil
    · exact .single nofun

end Addresses

section

variable {d}

theorem enableStream_sends :
    Sends [disableDataReport, setStreamMode, enableDataReport] (enableStream d) :=
  (Sends.single disableDataReport).then
    ((Sends.single setStreamMode).then (Sends.single enableDataReport))

theorem msSetDefault_sends : Sends [disableDataReport, setDefaults] (msSetDefault d) :=
  (Sends.single disableDataReport).then (Sends.single setDefaults)

/-- An action whose failure is not looked at. -/
theorem ignored_adds {x : Attempt (Kbc σ) Unit} {Q : Option Unit → List PortAccess → Prop}
    (hx : Attempt.Adds Kbc.accesses x (fun a => Q (some a)) (Q none)) (E : List PortAccess → Prop) :
    Attempt.Adds Kbc.accesses (ignored x) (fun _ w => ∃ r, Q r w) E := by
  intro l s hs
  obtain ⟨w, hw, h⟩ := hx.run s
  refine Or.inl ⟨(), _, rfl, w, hs ▸ hw, ?_⟩
  rcases h with ⟨a, -, hq⟩ | ⟨-, he⟩
  · exact ⟨some a, hq⟩
  · exact ⟨none, he⟩

/-- **The part of `init_game`** for the mouse. -/
theorem setUpMouse_adds :
    Attempt.Adds Kbc.accesses (setUpMouse d) (fun ok => SetUp (some ok)) (SetUp none) := by
  refine (enableStream_sends.bind fun _ => (writeByteKbc_adds mouseEnable).bind fun _ =>
    (ignored_adds (writeMsCmd_adds [setSampleRate, 60]) fun _ => False).bind fun _ =>
      ignored_adds (writeMsCmd_adds [setResolution, 0]) fun _ => False).imp ?_ ?_
  · rintro _ w ⟨-, u, v, rfl, hu, -, u', v', rfl, rfl, -, u'', v'', rfl, ⟨r, hr⟩, r', hr'⟩
    exact ⟨u, u'', v'', r, r', rfl, hu, hr, hr'⟩
  · rintro w (h | ⟨-, u, v, rfl, hu, rfl | ⟨-, u', v', rfl, rfl, h | ⟨-, u'', v'', -, -, h⟩⟩⟩)
    · exact Or.inl h
    · right
      rwa [List.append_nil]
    · exact h.elim
    · exact h.elim

theorem msSetDefault_addresses : Addresses (msSetDefault d) :=
  (Addresses.writeMsCmd _).then (Addresses.writeMsCmd _)

theorem setUpMouse_addresses : Addresses (setUpMouse d) := by
  have hignored (args : List Byte) : Addresses (ignored (writeMsCmd d args)) := by
    refine (ignored_adds (Q := fun _ => Addressed) (Addresses.writeMsCmd args) Addressed).imp ?_
      fun _ h => h
    rintro _ w ⟨-, hw⟩
    exact hw
  have hstream : Addresses (enableStream d) :=
    (Addresses.writeMsCmd _).then ((Addresses.writeMsCmd _).then (Addresses.writeMsCmd _))
  exact hstream.then (Addresses.enableMs.then ((hignored _).then (hignored _)))

/-- The normal command byte is written, if its command is. -/
theorem resetCmdByte_adds (normal : Byte) :
    Attempt.Adds Kbc.accesses (resetCmdByte d normal)
      (fun _ w => w = [.write (.command kbcWriteCmd), .write (.argument normal)])
      (· <+: [.write (.command kbcWriteCmd)]) := by
  refine ((writeByteKbc_adds kbcWriteCmd).bind fun _ => writeArgKbc_adds normal).imp ?_ ?_
  · rintro _ w ⟨-, u, v, rfl, rfl, rfl⟩
    rfl
  · rintro w (rfl | ⟨-, u, v, rfl, rfl, rfl⟩)
    · exact List.nil_prefix
    · exact List.prefix_refl _

end

/-- **The part of `free_game`** for the mouse and the controller. -/
theorem releaseMouse_adds (s : Kbc σ) (normal : Byte) :
    ∃ w, (releaseMouse d normal s).2.accesses = s.accesses ++ w ∧ Addressed w ∧
      Released normal (releaseMouse d normal s).1 w := by
  obtain ⟨u, hu, hdefault⟩ := Attempt.Adds.run (msSetDefault_sends (d := d)) s
  obtain ⟨u', hu', haddr⟩ := Attempt.Adds.run (msSetDefault_addresses (d := d)) s
  obtain rfl : u' = u := List.append_cancel_left (hu'.symm.trans hu)
  obtain ⟨v, hv, hreset⟩ := (resetCmdByte_adds (d := d) normal).run (msSetDefault d s).2
  obtain ⟨v', hv', haddr'⟩ := Attempt.Adds.run (Addresses.resetCmdByte (d := d) normal)
    (msSetDefault d s).2
  obtain rfl : v' = v := List.append_cancel_left (hv'.symm.trans hv)
  refine ⟨u' ++ v', ?_, ?_, u', v', rfl, ?_, ?_⟩
  · show (resetCmdByte d normal (msSetDefault d s).2).2.accesses = _
    rw [hv, hu, List.append_assoc]
  · have hfirst : Addressed u' := by rcases haddr with ⟨_, _, h⟩ | ⟨_, h⟩ <;> exact h
    have hsecond : Addressed v' := by rcases haddr' with ⟨_, _, h⟩ | ⟨_, h⟩ <;> exact h
    exact hfirst.append hsecond
  · show match (msSetDefault d s).1 with | some _ => _ | none => _
    rcases hdefault with ⟨_, hr, h⟩ | ⟨hr, h⟩
    · rw [hr]
      exact h
    · rw [hr]
      exact h
  · show match (resetCmdByte d normal (msSetDefault d s).2).1 with | some _ => _ | none => _
    rcases hreset with ⟨_, hr, h⟩ | ⟨hr, h⟩
    · rw [hr]
      exact h
    · rw [hr]
      exact h

/-- **A command is sent when the one before it is acknowledged.**  Whatever the controller answers
and whichever accesses of its ports fail: all that the driver writes to the data port is the
argument of a command that it has written just before.  A command to the mouse of any length is
sent completely at last when it succeeds, each byte acknowledged before the next one, after less
than `KBC_MAX_TRIES` attempts that broke off at a byte; when it fails, it broke off
`KBC_MAX_TRIES` times.  When the part of `init_game` for the mouse succeeds, the reports are
stopped, stream mode is set and the reports are started, each acknowledged before the next, and
then the mouse is enabled; when it fails, some of the three have been acknowledged, and of the
others only the next one was sent; so the mouse is told to report only after it has acknowledged
stream mode.  The part of `free_game` stops the reports and sets the defaults in the same way, and
writes the normal command byte. -/
theorem mouse_set_up (s : Kbc σ) (normal : Byte) (args : List Byte) :
    (∃ w, (writeMsCmd d args s).2.accesses = s.accesses ++ w ∧ Addressed w ∧
      MsCommand args (writeMsCmd d args s).1 w) ∧
    (∃ w, (setUpMouse d s).2.accesses = s.accesses ++ w ∧ Addressed w ∧
      SetUp (setUpMouse d s).1 w ∧ After setStreamMode enableDataReport w) ∧
    ∃ w, (releaseMouse d normal s).2.accesses = s.accesses ++ w ∧ Addressed w ∧
      Released normal (releaseMouse d normal s).1 w := by
  refine ⟨?_, ?_, releaseMouse_adds d s normal⟩
  · obtain ⟨w, hw, h⟩ := (writeMsCmd_adds (d := d) args).run s
    have hcmd : MsCommand args (writeMsCmd d args s).1 w := by
      rcases h with ⟨_, hr, h⟩ | ⟨hr, h⟩ <;> exact hr ▸ h
    exact ⟨w, hw, .msCommand hcmd, hcmd⟩
  · obtain ⟨w, hw, h⟩ := (setUpMouse_adds (d := d)).run s
    obtain ⟨w', hw', haddr⟩ := Attempt.Adds.run (setUpMouse_addresses (d := d)) s
    obtain rfl : w' = w := List.append_cancel_left (hw'.symm.trans hw)
    have hset : SetUp (setUpMouse d s).1 w' := by
      rcases h with ⟨_, hr, h⟩ | ⟨hr, h⟩ <;> exact hr ▸ h
    refine ⟨w', hw', ?_, hset, .setUp hset⟩
    rcases haddr with ⟨_, _, h⟩ | ⟨_, h⟩ <;> exact h

/-- A controller that acknowledges what it gets, but for the first bytes, which it wants again; it
says whether there is an answer to be read. -/
def willing : KbcDevice (ℕ × Bool) where
  status s := (some (if s.2 then kbcOutBufferFull else 0), s)
  readOutBuf s := (some (if s.1 = 0 then kbcAck else 0xfe), s.1 - 1, false)
  write w s := (true, s.1, match w with
    | .command _ => false
    | .argument _ => true)

/-- With such a controller the set-up succeeds, and so do the commands of the end; with one that
wants the first command again five times it is broken off. -/
theorem mouse_set_up_willing :
    (∃ w, (setUpMouse willing ⟨(1, false), []⟩).2.accesses = [] ++ w ∧ Addressed w ∧
      SetUp (some ()) w) ∧
    (∃ w, (setUpMouse willing ⟨(5, false), []⟩).2.accesses = [] ++ w ∧ SetUp none w) ∧
    ∃ w, (releaseMouse willing 0x47 ⟨(0, false), []⟩).2.accesses = [] ++ w ∧
      Released 0x47 (some (), some ()) w := by
  have hsuccess : (setUpMouse willing ⟨(1, false), []⟩).1 = some () := by decide +kernel
  have hfailure : (setUpMouse willing ⟨(5, false), []⟩).1 = none := by decide +kernel
  have hrelease : (releaseMouse willing 0x47 ⟨(0, false), []⟩).1 = (some (), some ()) := by
    decide +kernel
  have hset := (mouse_set_up willing ⟨(1, false), []⟩ 0x47 []).2.1
  have hbroken := (mouse_set_up willing ⟨(5, false), []⟩ 0x47 []).2.1
  have hrel := (mouse_set_up willing ⟨(0, false), []⟩ 0x47 []).2.2
  rw [hsuccess] at hset
  rw [hfailure] at hbroken
  rw [hrelease] at hrel
  obtain ⟨w, hw, haddr, hset, -⟩ := hset
  obtain ⟨w', hw', -, hbroken, -⟩ := hbroken
  obtain ⟨w'', hw'', -, hrel⟩ := hrel
  exact ⟨⟨w, hw, haddr, hset⟩, ⟨w', hw', hbroken⟩, w'', hw'', hrel⟩

end OperationMinix
