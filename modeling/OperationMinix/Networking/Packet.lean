import OperationMinix.Networking.Sync
import OperationMinix.Player.World
import OperationMinix.Runs.Framer

/-!
# Game packets

While a game is on, each peer sends its controls once a tick, in a frame of three
bytes: a header that names the gun, the displacement of the mouse, and eight
flags.  The end of a game is announced in frames of the same size, `"WIN"` and
`"LOS"`.  `uart_receive_data` takes what has arrived, cuts it into frames, and
drives the replica of the other player with each.

The receiver is generic in what a packet does, so that the same model serves for
the replica and for a peer whose replica does not matter.

## Main definitions

* `NetworkPacket`, `encodePacket`, `decodePacket`, `encodeData`, `decodeData`.
* `uartSendData`, `uartSendString`, `uartReceiveData`.
* `framer` — how the receiver cuts the stream.

## Main results

* `decodeData_encodeData` — the round trip of a packet.
* `receiveEntries_spec` — **the receiver handles the frames the framer cuts**, up to
  the first one that announces a result.
-/

namespace OperationMinix

open Runs

/-! ### Packets -/

/-- `network_packet_t`. -/
structure NetworkPacket where
  mouseByte : Byte
  mouseMsb : Bool
  wDown : Bool
  aDown : Bool
  sDown : Bool
  dDown : Bool
  ctrlDown : Bool
  shiftDown : Bool
  shootDown : Bool
  gunDown : ℕ
  deriving DecidableEq, Repr

/-- `DATA_BYTES`. -/
def dataBytes : ℕ := 3

/-- `DATA_CONFIRM_PACKET`. -/
def dataConfirmPacket : Byte := 0xa8

/-- `DATA_CONFIRM_MASK`. -/
def dataConfirmMask : Byte := 0xf8

/-- `DATA_GUN_BITS`. -/
def dataGunBits : Byte := 0x07

/-- `UART_WIN_GAME`, without its NUL. -/
def uartWinGame : List Byte := [0x57, 0x49, 0x4e]

/-- `UART_LOSE_GAME`, without its NUL. -/
def uartLoseGame : List Byte := [0x4c, 0x4f, 0x53]

/-- `UART_PACKET_TRIES`. -/
def uartPacketTries : ℕ := 8 * 60

/-- A flag of the third byte. -/
def dataFlag (down : Bool) (bit : Byte) : Byte := if down then bit else 0

/-- `encode_data`. -/
def encodeData (pkt : NetworkPacket) : List Byte :=
  [ dataConfirmPacket ||| BitVec.ofNat 8 (1 <<< (pkt.gunDown - 1)),
    pkt.mouseByte,
    dataFlag pkt.shootDown 0x01 ||| dataFlag pkt.ctrlDown 0x02 ||| dataFlag pkt.shiftDown 0x04 |||
      dataFlag pkt.dDown 0x08 ||| dataFlag pkt.sDown 0x10 ||| dataFlag pkt.aDown 0x20 |||
      dataFlag pkt.wDown 0x40 ||| dataFlag pkt.mouseMsb 0x80 ]

/-- The gun named by a header. -/
def decodeGun (header : Byte) : ℕ :=
  let g := header &&& dataGunBits
  if g &&& 0x01 ≠ 0 then 1 else if g &&& 0x02 ≠ 0 then 2 else if g &&& 0x04 ≠ 0 then 3 else 0

/-- `decode_data`. -/
def decodeData (data : List Byte) : NetworkPacket :=
  let flags := data.getD 2 0
  { shootDown := flags &&& 0x01 ≠ 0
    ctrlDown := flags &&& 0x02 ≠ 0
    shiftDown := flags &&& 0x04 ≠ 0
    dDown := flags &&& 0x08 ≠ 0
    sDown := flags &&& 0x10 ≠ 0
    aDown := flags &&& 0x20 ≠ 0
    wDown := flags &&& 0x40 ≠ 0
    mouseMsb := flags &&& 0x80 = 0x80
    mouseByte := data.getD 1 0
    gunDown := decodeGun (data.getD 0 0) }

section

variable {K : Type*} [Field K] [LinearOrder K] [FloorRing K]

/-- `encode_packet`. -/
def encodePacket (ply : PlayerInfo K) : NetworkPacket :=
  let k := ply.movm.kbdState
  let desl := clampDesl ply.movm.mouseDesl * 128
  { wDown := k.xPos
    aDown := k.yNeg
    sDown := k.xNeg
    dDown := k.yPos
    shiftDown := k.sprint
    ctrlDown := k.crouch
    gunDown := (ply.gunIndex + 1) % 256
    shootDown := ply.movm.lb
    mouseByte := BitVec.ofInt 8 (truncate (absDouble desl))
    mouseMsb := ¬ desl ≥ 0 }

/-- `decode_packet`: of the number keys, the first three are released. -/
def decodePacket (pkt : NetworkPacket) (ply : PlayerInfo K) : PlayerInfo K :=
  let nums := ((ply.movm.kbdState.numsPress.set 0 false).set 1 false).set 2 false
  let desl : K := (pkt.mouseByte.toNat : K) / 128
  { ply with movm := { ply.movm with
      kbdState := { ply.movm.kbdState with
        xPos := pkt.wDown
        xNeg := pkt.sDown
        yPos := pkt.dDown
        yNeg := pkt.aDown
        sprint := pkt.shiftDown
        crouch := pkt.ctrlDown
        -- a header that names no gun presses key `0`, which nothing looks at
        numsPress := nums.set pkt.gunDown true }
      mouseDesl := if pkt.mouseMsb then -desl else desl
      lb := pkt.shootDown } }

end

/-- The flags of the third byte are independent of each other. -/
theorem dataFlags_bits : ∀ a b c d e f g h : Bool,
    let flags := dataFlag a 0x01 ||| dataFlag b 0x02 ||| dataFlag c 0x04 ||| dataFlag d 0x08 |||
      dataFlag e 0x10 ||| dataFlag f 0x20 ||| dataFlag g 0x40 ||| dataFlag h 0x80
    (decide (flags &&& 0x01 ≠ 0) = a ∧ decide (flags &&& 0x02 ≠ 0) = b ∧
      decide (flags &&& 0x04 ≠ 0) = c ∧ decide (flags &&& 0x08 ≠ 0) = d) ∧
    (decide (flags &&& 0x10 ≠ 0) = e ∧ decide (flags &&& 0x20 ≠ 0) = f ∧
      decide (flags &&& 0x40 ≠ 0) = g ∧ decide (flags &&& 0x80 = 0x80) = h) := by
  decide +kernel

/-- The header names the gun it was built from. -/
theorem decodeGun_header {g : ℕ} (h1 : 1 ≤ g) (h3 : g ≤ 3) :
    decodeGun (dataConfirmPacket ||| BitVec.ofNat 8 (1 <<< (g - 1))) = g := by
  obtain rfl | rfl | rfl : g = 1 ∨ g = 2 ∨ g = 3 := by omega
  · decide
  · decide
  · decide

/-- **The round trip of a packet** with one of the three guns. -/
theorem decodeData_encodeData {pkt : NetworkPacket} (h1 : 1 ≤ pkt.gunDown) (h3 : pkt.gunDown ≤ 3) :
    decodeData (encodeData pkt) = pkt := by
  obtain ⟨⟨hshoot, hctrl, hshift, hd⟩, hs, ha, hw, hmsb⟩ :=
    dataFlags_bits pkt.shootDown pkt.ctrlDown pkt.shiftDown pkt.dDown pkt.sDown pkt.aDown pkt.wDown
      pkt.mouseMsb
  unfold decodeData encodeData
  simp only [List.getD_cons_zero, List.getD_cons_succ]
  rw [hshoot, hctrl, hshift, hd, hs, ha, hw, hmsb, decodeGun_header h1 h3]

/-! ### Sending -/

/-- `uart_send_string`, and the end of `uart_send_data`: the first byte is sent,
or queued behind what is queued already, and the others are queued. -/
def uartSendString (word : List Byte) (n : Net) : Net :=
  match word with
  | [] => n
  | b :: bs =>
    { n with calls := n.calls ++ .uartSafeTransmit b :: bs.map .uartPushTransmit }

/-- `uart_send_data`. -/
def uartSendData {K : Type*} [Field K] [LinearOrder K] [FloorRing K] (ply : PlayerInfo K)
    (n : Net) : Net :=
  uartSendString (encodeData (encodePacket ply)) n

/-! ### Receiving -/

/-- The return values of `uart_receive_data`. -/
inductive ReceiveResult where
  /-- `OK`. -/
  | ok
  /-- `WIN_GAME_ERR`. -/
  | winGameErr
  /-- `LOSE_GAME_ERR`. -/
  | loseGameErr
  deriving DecidableEq, Repr

/-- An entry that can start a frame: a header, or the first letter of a result. -/
def startsFrame (e : Entry) : Bool :=
  e &&& entry dataConfirmMask = entry dataConfirmPacket ∨ e = entry 0x57 ∨ e = entry 0x4c

/-- The result a frame announces, if it is not a packet. -/
def frameResult (bytes : List Byte) : Option ReceiveResult :=
  if bytes = uartWinGame then some .winGameErr
  else if bytes = uartLoseGame then some .loseGameErr
  else none

variable {R : Type*} (handle : NetworkPacket → R → R)

/-- The loop of `uart_receive_data` on the entries of the receive queue.  What a
packet does to the replica, and to everything else, is `handle`. -/
def receiveEntries : List Entry → Net → R → ReceiveResult × Net × R
  | [], n, r => (.ok, { n with inFifo := [] }, r)
  | e :: es, n, r =>
    -- between frames, what cannot start one is dropped
    if n.packetIdx = 0 ∧ startsFrame e = false then receiveEntries es n r
    else
      let bytes := n.bytes.setIfInBounds n.packetIdx (e.setWidth 8)
      if n.packetIdx + 1 = dataBytes then
        let n := { n with bytes := bytes, packetIdx := 0, packetTries := 0 }
        -- a result returns at once and leaves the rest of the queue
        match frameResult bytes.toList with
        | some res => (res, { n with inFifo := es }, r)
        | none => receiveEntries es n (handle (decodeData bytes.toList) r)
      else receiveEntries es { n with bytes := bytes, packetIdx := n.packetIdx + 1 } r

/-- `uart_receive_data`. -/
def uartReceiveData (n : Net) (r : R) : ReceiveResult × Net × R :=
  match receiveEntries handle n.inFifo { n with packetTries := n.packetTries + 1 } r with
  | (.ok, n, r) =>
    (.ok, if n.packetTries > uartPacketTries then { n with state := .disconnected } else n, r)
  | res => res

/-- The queue holds an entry that completes a frame, with `k` entries of a frame
read before. -/
def completesFrame : ℕ → List Entry → Bool
  | _, [] => false
  | k, e :: es =>
    if k = 0 ∧ startsFrame e = false then completesFrame k es
    else if k + 1 = dataBytes then true
    else completesFrame (k + 1) es

/-- The next call of `uart_receive_data` gives the other peer up: too many calls
have gone by without a frame. -/
def TimesOut (n : Net) : Prop :=
  n.packetTries + 1 > uartPacketTries ∧ completesFrame n.packetIdx n.inFifo = false

instance (n : Net) : Decidable (TimesOut n) := inferInstanceAs (Decidable (_ ∧ _))

/-- The loop touches the counter only when it completes a frame, and then clears
it. -/
theorem receiveEntries_tries : ∀ (es : List Entry) (n : Net) (r : R),
    (receiveEntries handle es n r).2.1.state = n.state ∧
      (receiveEntries handle es n r).2.1.packetTries =
        if completesFrame n.packetIdx es then 0 else n.packetTries := by
  intro es
  induction es with
  | nil => intro n r; exact ⟨rfl, rfl⟩
  | cons e es ih =>
    intro n r
    unfold receiveEntries completesFrame
    by_cases hskip : n.packetIdx = 0 ∧ startsFrame e = false
    · rw [if_pos hskip, if_pos hskip]
      exact ih n r
    · rw [if_neg hskip, if_neg hskip]
      dsimp only
      by_cases hlast : n.packetIdx + 1 = dataBytes
      · rw [if_pos hlast, if_pos hlast, if_pos rfl]
        split
        · exact ⟨rfl, rfl⟩
        · refine ⟨(ih _ _).1, ?_⟩
          rw [(ih _ _).2]
          exact ite_self 0
      · rw [if_neg hlast, if_neg hlast]
        exact ih { n with bytes := _, packetIdx := n.packetIdx + 1 } r

/-- A result is announced by a frame. -/
theorem receiveEntries_result : ∀ (es : List Entry) (n : Net) (r : R),
    (receiveEntries handle es n r).1 ≠ .ok → completesFrame n.packetIdx es = true := by
  intro es
  induction es with
  | nil => intro n r h; exact absurd rfl h
  | cons e es ih =>
    intro n r h
    unfold receiveEntries at h
    unfold completesFrame
    by_cases hskip : n.packetIdx = 0 ∧ startsFrame e = false
    · rw [if_pos hskip] at h ⊢
      exact ih n r h
    · rw [if_neg hskip] at h ⊢
      dsimp only at h
      by_cases hlast : n.packetIdx + 1 = dataBytes
      · rw [if_pos hlast]
      · rw [if_neg hlast] at h ⊢
        exact ih _ r h

/-- **When the other peer is given up.** -/
theorem uartReceiveData_state (n : Net) (r : R) :
    (uartReceiveData handle n r).2.1.state = if TimesOut n then .disconnected else n.state := by
  obtain ⟨hst, htr⟩ := receiveEntries_tries handle n.inFifo
    { n with packetTries := n.packetTries + 1 } r
  have hres := receiveEntries_result handle n.inFifo { n with packetTries := n.packetTries + 1 } r
  unfold uartReceiveData
  generalize receiveEntries handle n.inFifo { n with packetTries := n.packetTries + 1 } r = out at *
  obtain ⟨res, m, r'⟩ := out
  dsimp only at hst htr hres
  by_cases hc : completesFrame n.packetIdx n.inFifo = true
  · -- the counter has just been cleared
    have hno : ¬ TimesOut n := fun h => by rw [h.2] at hc; cases hc
    rw [if_pos hc] at htr
    rw [if_neg hno]
    cases res <;> simp [htr, hst, uartPacketTries]
  · rw [if_neg hc] at htr
    obtain rfl : res = .ok := by
      by_contra h
      exact hc (hres h)
    by_cases htries : n.packetTries + 1 > uartPacketTries
    · rw [if_pos ⟨htries, by simpa using hc⟩]
      simp [htr, htries]
    · rw [if_neg fun h => htries h.1]
      simp [htr, htries, hst]

/-- A call that finds nothing counts towards the timeout. -/
theorem uartReceiveData_nil {n : Net}
    (hin : n.inFifo = []) (r : R) :
    uartReceiveData handle n r = (.ok,
      if n.packetTries + 1 > uartPacketTries then
        { n with packetTries := n.packetTries + 1, state := .disconnected }
      else { n with packetTries := n.packetTries + 1 }, r) := by
  obtain ⟨state, idx, player, tries, packetIdx, packetTries, bytes, inFifo, calls⟩ := n
  obtain rfl : inFifo = [] := hin
  rfl

/-- What every packet keeps about the replica, a call keeps. -/
theorem uartReceiveData_replica {P : R → Prop} (hP : ∀ pkt r, P r → P (handle pkt r)) (n : Net)
    {r : R} (hr : P r) : P (uartReceiveData handle n r).2.2 := by
  have hloop : ∀ (es : List Entry) (n : Net) (r : R), P r →
      P (receiveEntries handle es n r).2.2 := by
    intro es
    induction es with
    | nil => intro n r hr; exact hr
    | cons e es ih =>
      intro n r hr
      unfold receiveEntries
      dsimp only
      split
      · exact ih n r hr
      · split
        · split
          · exact hr
          · exact ih _ _ (hP _ r hr)
        · exact ih _ r hr
  have hrep := hloop n.inFifo { n with packetTries := n.packetTries + 1 } r hr
  unfold uartReceiveData
  generalize receiveEntries handle n.inFifo { n with packetTries := n.packetTries + 1 } r = out at *
  obtain ⟨res, m, r'⟩ := out
  cases res <;> exact hrep

/-! ### The receiver cuts frames -/

/-- The framer of `uart_receive_data`. -/
def framer : Framer Entry := { size := dataBytes, starts := startsFrame }

/-- The bytes of a frame. -/
def frameBytes (f : List Entry) : List Byte := f.map fun e => e.setWidth 8

/-- What a list of frames that are all packets does. -/
def handleAll (fs : List (List Entry)) (r : R) : R :=
  fs.foldl (fun r f => handle (decodeData (frameBytes f)) r) r

/-- The unfinished frame in the static buffer of `uart_receive_data`. -/
structure Unfinished (n : Net) (part : List Entry) : Prop where
  idx : n.packetIdx = part.length
  lt : part.length < dataBytes
  bytes : n.bytes.toList.take part.length = frameBytes part

variable {handle}

/-- Only the buffer and its index matter. -/
theorem Unfinished.congr {n m : Net} {part : List Entry} (h : Unfinished n part)
    (hidx : m.packetIdx = n.packetIdx) (hbytes : m.bytes = n.bytes) : Unfinished m part :=
  ⟨hidx.trans h.idx, h.lt, by rw [hbytes]; exact h.bytes⟩

theorem Unfinished.set {n : Net} {part : List Entry} (h : Unfinished n part) (e : Entry) :
    (n.bytes.setIfInBounds n.packetIdx (e.setWidth 8)).toList.take (part.length + 1) =
      frameBytes (part ++ [e]) := by
  have hlt : part.length < n.bytes.toList.length := by rw [Vector.length_toList]; exact h.lt
  rw [h.idx, Vector.toList_setIfInBounds, List.take_add_one, List.take_set_of_le (Nat.le_refl _),
    h.bytes, List.getElem?_set_self hlt]
  simp [frameBytes]

variable (handle)

/-- The frames cut from `taken` have been handled: all of them when the result is
`OK`, and all but the last one, which announces the result, otherwise. -/
def Handled (part taken : List Entry) (r : R) (res : ReceiveResult) (r' : R) : Prop :=
  ∃ fs, (∀ f ∈ fs, frameResult (frameBytes f) = none) ∧ r' = handleAll handle fs r ∧
    (res = .ok ∧ (framer.feed part taken).2 = fs ∨
      ∃ f, frameResult (frameBytes f) = some res ∧ (framer.feed part taken).2 = fs ++ [f])

/-- What the receiver has done with the entries `es`, from the unfinished frame
`part`: it has taken entries from the front, and queued is what is left. -/
structure Received (n : Net) (part es : List Entry) (r : R) (out : ReceiveResult × Net × R) :
    Prop where
  taken : ∃ taken, es = taken ++ out.2.1.inFifo ∧ Unfinished out.2.1 (framer.feed part taken).1 ∧
    Handled handle part taken r out.1 out.2.2
  ok : out.1 = .ok → out.2.1.inFifo = []
  calls : out.2.1.calls = n.calls

variable {handle}

section

variable {n m : Net} {part part' es f : List Entry} {e : Entry} {r : R}
  {out : ReceiveResult × Net × R}

/-- An entry that completes no frame, and then the others. -/
theorem Received.cons_none (hpush : framer.push part e = (part', none))
    (hcs : m.calls = n.calls) (h : Received handle m part' es r out) :
    Received handle n part (e :: es) r out := by
  obtain ⟨⟨taken, hes, hun, fs, hfs, hr, hcut⟩, hok, hcs'⟩ := h
  refine ⟨⟨e :: taken, by rw [List.cons_append, ← hes], ?_, fs, hfs, hr, ?_⟩, hok,
    hcs'.trans hcs⟩
  · rw [Framer.feed_cons, hpush]
    exact hun
  · rw [Framer.feed_cons, hpush]
    exact hcut

/-- An entry that completes a packet, and then the others. -/
theorem Received.cons_packet (hpush : framer.push part e = ([], some f))
    (hf : frameResult (frameBytes f) = none) (hcs : m.calls = n.calls)
    (h : Received handle m [] es (handle (decodeData (frameBytes f)) r) out) :
    Received handle n part (e :: es) r out := by
  obtain ⟨⟨taken, hes, hun, fs, hfs, hr, hcut⟩, hok, hcs'⟩ := h
  refine ⟨⟨e :: taken, by rw [List.cons_append, ← hes], ?_, f :: fs, ?_, hr, ?_⟩, hok,
    hcs'.trans hcs⟩
  · rw [Framer.feed_cons, hpush]
    exact hun
  · intro g hg
    rcases List.mem_cons.mp hg with rfl | hg
    · exact hf
    · exact hfs g hg
  · rw [Framer.feed_cons, hpush]
    rcases hcut with ⟨hok, hcut⟩ | ⟨g, hg, hcut⟩
    · exact Or.inl ⟨hok, by rw [hcut]; rfl⟩
    · exact Or.inr ⟨g, hg, by rw [hcut]; rfl⟩

end

variable (handle)

/-- **The receiver handles the frames the framer cuts.**  It takes entries from
the queue until the queue is empty or a frame announces a result, and drives the
replica with the frames before. -/
theorem receiveEntries_spec : ∀ (es : List Entry) (n : Net) (part : List Entry) (r : R),
    Unfinished n part → Received handle n part es r (receiveEntries handle es n r) := by
  intro es
  induction es with
  | nil =>
    intro n part r h
    exact ⟨⟨[], rfl, h.congr rfl rfl, [], by simp, rfl, Or.inl ⟨rfl, rfl⟩⟩,
      fun _ => rfl, rfl⟩
  | cons e es ih =>
    intro n part r h
    have hnil : n.packetIdx = 0 ↔ part = [] := by rw [h.idx, List.length_eq_zero_iff]
    unfold receiveEntries
    by_cases hskip : n.packetIdx = 0 ∧ startsFrame e = false
    · -- an entry between frames that cannot start one
      rw [if_pos hskip]
      obtain rfl := hnil.mp hskip.1
      exact (ih n [] r h).cons_none (if_pos ⟨rfl, hskip.2⟩) rfl
    · rw [if_neg hskip]
      have hstarts : part = [] → framer.starts e = true := by
        intro hp
        show startsFrame e = true
        have := mt (And.intro (hnil.mpr hp)) hskip
        simpa using this
      by_cases hlast : n.packetIdx + 1 = dataBytes
      · -- the entry completes a frame
        rw [h.idx] at hlast
        have hpush := Framer.push_finished hstarts hlast
        have hbytes : (n.bytes.setIfInBounds n.packetIdx (e.setWidth 8)).toList =
            frameBytes (part ++ [e]) := by
          rw [← h.set e, hlast, List.take_of_length_le (by rw [Vector.length_toList]; rfl)]
        have hun : ∀ m : Net, m.packetIdx = 0 → Unfinished m [] :=
          fun m h0 => ⟨h0, by decide, rfl⟩
        dsimp only
        rw [if_pos (by rw [h.idx]; exact hlast), hbytes]
        cases hres : frameResult (frameBytes (part ++ [e])) with
        | some res =>
          refine ⟨⟨[e], rfl, ?_, [], by simp, rfl, Or.inr ⟨part ++ [e], hres, ?_⟩⟩, ?_, rfl⟩
          · rw [Framer.feed_cons, hpush]
            exact hun _ rfl
          · rw [Framer.feed_cons, hpush]
            rfl
          · intro hok
            cases hok
            revert hres
            unfold frameResult
            split_ifs <;> simp
        | none =>
          refine Received.cons_packet hpush hres ?_ (ih _ [] _ (hun _ rfl))
          rfl
      · -- the frame goes on
        have hne : part.length + 1 ≠ framer.size := by rw [← h.idx]; exact hlast
        dsimp only
        rw [if_neg hlast]
        refine Received.cons_none (Framer.push_unfinished hstarts hne) ?_
          (ih _ (part ++ [e]) r ⟨?_, ?_, ?_⟩)
        · rfl
        · simp [h.idx]
        · have := h.lt
          simp only [List.length_append, List.length_singleton]
          exact Nat.lt_of_le_of_ne this hne
        · rw [List.length_append, List.length_singleton]
          exact h.set e

theorem uartReceiveData_spec {n : Net} {part : List Entry} (h : Unfinished n part) (r : R) :
    Received handle n part n.inFifo r (uartReceiveData handle n r) := by
  have hspec := receiveEntries_spec handle n.inFifo
    { n with packetTries := n.packetTries + 1 } part r (h.congr rfl rfl)
  unfold uartReceiveData
  generalize receiveEntries handle n.inFifo { n with packetTries := n.packetTries + 1 } r = out at *
  obtain ⟨res, m, r'⟩ := out
  cases res with
  | winGameErr => exact ⟨hspec.taken, hspec.ok, hspec.calls⟩
  | loseGameErr => exact ⟨hspec.taken, hspec.ok, hspec.calls⟩
  | ok =>
    obtain ⟨⟨taken, hes, hun, hh⟩, hok, hcs⟩ := hspec
    dsimp only
    split
    · exact ⟨⟨taken, hes, hun.congr rfl rfl, hh⟩, hok, hcs⟩
    · exact ⟨⟨taken, hes, hun, hh⟩, hok, hcs⟩

end OperationMinix
