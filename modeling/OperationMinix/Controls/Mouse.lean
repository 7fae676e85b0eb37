import OperationMinix.Game.Manager
import OperationMinix.Lib.Blit
import OperationMinix.Runs.Faults

/-!
# The mouse

Every interrupt of the mouse reads one byte from the keyboard controller, and the third
byte of a packet completes it.  The bytes of the unfinished packet and their number are
static variables: they outlive the interrupt, and a read that fails is all that clears
them before the packet is complete.

## Main definitions

* `MouseIrq`, `mouseIh` — what the controller answers, and what is made of it.
* `parsePacket`, `moveCursor` — a packet, and the cursor it moves.
* `Mouse`, `handleMouseEvt`, `mouseRun` — the static variables, one interrupt, and all of them.
* `referenceFramer` — the packets that are in a sequence of reads.

## Main results

* `int9ToInt16_toInt` — the displacement of a packet is a number of nine bits.
* `moveCursor_mem` — the cursor stays on the screen.
* `handleMouseEvt_game` — what the game sees of the mouse is its packets.
* `mouse_framing` — **the packets parsed are the packets of the reference framer.**
-/

namespace OperationMinix

open Runs

/-! ### The controller -/

/-- `KBC_OUT_BUFFER_FULL`. -/
def kbcOutBufferFull : Byte := 0x01

/-- `KBC_AUX`: the byte in the buffer is the mouse's. -/
def kbcAux : Byte := 0x20

/-- `KBC_PARITY_ERR | KBC_TIMEOUT_ERR | KBC_AUX`. -/
def mouseMask : Byte := 0xe0

/-- What the controller answers in one interrupt; a read is `none` when it fails. -/
structure MouseIrq where
  status : Option Byte
  /-- What the variable `sb` holds that nothing has been assigned to. -/
  unassigned : Byte
  data : Option Byte
  deriving DecidableEq, Repr

/-- The status `mouse_ih` looks at. -/
def MouseIrq.sb (irq : MouseIrq) : Byte := irq.status.getD irq.unassigned

/-! ### Packets -/

/-- `MOUSE_FIRST_BIT`. -/
def mouseFirstBit : Byte := 0x08

/-- `struct packet`. -/
structure MousePacket where
  bytes : Vector Byte 3
  rb : Bool
  mb : Bool
  lb : Bool
  deltaX : BitVec 16
  deltaY : BitVec 16
  xOv : Bool
  yOv : Bool
  deriving DecidableEq, Repr

/-- `int9_to_int16`. -/
def int9ToInt16 (lsb : Byte) (negative : Bool) : BitVec 16 :=
  let result := lsb.setWidth 16
  if negative then result ||| 0xff00 else result

/-- `parse_packet`. -/
def parsePacket (bytes : Vector Byte 3) : MousePacket :=
  let firstByte := bytes[0]
  { bytes
    lb := firstByte &&& 0x01 ≠ 0
    rb := firstByte &&& 0x02 ≠ 0
    mb := firstByte &&& 0x04 ≠ 0
    xOv := firstByte &&& 0x40 ≠ 0
    yOv := firstByte &&& 0x80 ≠ 0
    deltaX := int9ToInt16 bytes[1] (firstByte &&& 0x10 ≠ 0)
    deltaY := int9ToInt16 bytes[2] (firstByte &&& 0x20 ≠ 0) }

/-- **A displacement is the number of nine bits whose highest is the sign.** -/
theorem int9ToInt16_toInt (lsb : Byte) (negative : Bool) :
    (int9ToInt16 lsb negative).toInt = lsb.toNat - if negative then 256 else 0 := by
  revert lsb negative
  decide +kernel

section Model

variable {K : Type*} [Field K] [LinearOrder K]

/-- `settings.mouse_sensitivity`. -/
def mouseSensitivity : K := 2 / 1000

/-- The cursor after a packet: an axis along which it would leave the screen is not moved. -/
def moveCursor (v : VideoMode) (pkt : MousePacket) (pos : Vec K) : Vec K :=
  let xDelta : K := (pkt.deltaX.toInt : K)
  let yDelta : K := (pkt.deltaY.toInt : K)
  if pkt.xOv = false ∧ pkt.yOv = false then
    { x := if pos.x + xDelta ≥ 0 ∧ pos.x + xDelta ≤ v.hRes then pos.x + xDelta else pos.x
      y := if pos.y - yDelta ≥ 0 ∧ pos.y - yDelta ≤ v.vRes then pos.y - yDelta else pos.y }
  else pos

/-- The cursor is on the screen. -/
def OnScreen (v : VideoMode) (pos : Vec K) : Prop :=
  (0 ≤ pos.x ∧ pos.x ≤ v.hRes) ∧ 0 ≤ pos.y ∧ pos.y ≤ v.vRes

/-- **A packet does not move the cursor off the screen.** -/
theorem moveCursor_mem (v : VideoMode) (pkt : MousePacket) {pos : Vec K} (h : OnScreen v pos) :
    OnScreen v (moveCursor v pkt pos) := by
  obtain ⟨hx, hy⟩ := h
  unfold moveCursor
  split
  · refine ⟨?_, ?_⟩
    · dsimp only
      split
      · assumption
      · exact hx
    · dsimp only
      split
      · assumption
      · exact hy
  · exact ⟨hx, hy⟩

/-! ### The handler -/

/-- The static variables of the mouse, and the history of the bytes that `parse_packet` was
given. -/
structure Mouse where
  validMouseByte : Bool
  lastMouseByte : Byte
  msData : Vector Byte 3
  msIdx : ℕ
  currPkt : MousePacket
  /-- The arguments of `parse_packet` so far, oldest first. -/
  parsed : List (Vector Byte 3)
  deriving DecidableEq, Repr

/-- The static variables before the first interrupt. -/
def Mouse.init : Mouse :=
  { validMouseByte := false, lastMouseByte := 0, msData := .replicate 3 0, msIdx := 0
    currPkt := parsePacket (.replicate 3 0), parsed := [] }

/-- `mouse_ih`. -/
def mouseIh (irq : MouseIrq) (m : Mouse) : Mouse :=
  let m := { m with validMouseByte := false }
  if irq.sb &&& kbcOutBufferFull ≠ 0 then
    -- a byte that is not the mouse's, or that came with an error, is read all the same
    let m := { m with lastMouseByte := irq.data.getD m.lastMouseByte }
    if irq.data.isSome ∧ irq.sb &&& mouseMask = kbcAux then { m with validMouseByte := true }
    else m
  else m

/-- `handle_mouse_evt`; it is `none` when it indexes `ms_data` outside. -/
def handleMouseEvt (v : VideoMode) (irq : MouseIrq) (m : Mouse) (g : Game K) :
    Option (Mouse × Game K) :=
  let m := mouseIh irq m
  if m.validMouseByte = false then some ({ m with msIdx := 0 }, g)
  else if m.msIdx = 0 ∧ m.lastMouseByte &&& mouseFirstBit = 0 then some (m, g)
  else if h : m.msIdx < 3 then
    let m :=
      { m with msData := m.msData.set m.msIdx m.lastMouseByte h, msIdx := (m.msIdx + 1) % 2 ^ 8 }
    if m.msIdx = 3 then
      let pkt := parsePacket m.msData
      let g := mouseParseData (moveCursor v pkt g.world.player.movm.mousePos) pkt.lb
        ((pkt.deltaX.toInt : K) * mouseSensitivity) g
      some ({ m with currPkt := pkt, parsed := m.parsed ++ [m.msData], msIdx := 0 }, g)
    else some (m, g)
  else none

/-- A sequence of interrupts, each with the game it finds. -/
def mouseRun (v : VideoMode) : List (MouseIrq × Game K) → Mouse → Option Mouse
  | [], m => some m
  | (irq, g) :: evts, m => (handleMouseEvt v irq m g).bind fun r => mouseRun v evts r.1

/-- **All that the game sees of the mouse is its packets**: an interrupt leaves the game as it
is, or it is the step of the game that a packet makes. -/
theorem handleMouseEvt_game [FloorRing K] (c : Setting K) {v : VideoMode} {irq : MouseIrq}
    {m m' : Mouse} {g g' : Game K} (hst : g.state ≠ .exit)
    (h : handleMouseEvt v irq m g = some (m', g')) :
    g' = g ∨ (gameMachine c).step g (.mouse
      (moveCursor v m'.currPkt g.world.player.movm.mousePos) m'.currPkt.lb
      ((m'.currPkt.deltaX.toInt : K) * mouseSensitivity)) = some g' := by
  unfold handleMouseEvt at h
  dsimp only at h
  split at h
  · cases h
    exact Or.inl rfl
  split at h
  · cases h
    exact Or.inl rfl
  split at h
  · split at h
    · -- the packet is complete
      cases h
      exact Or.inr (if_neg hst)
    · cases h
      exact Or.inl rfl
  · cases h

/-! ### What an interrupt yields -/

/-- The byte that an interrupt yields; `none` is an invalid read. -/
def MouseIrq.yields (irq : MouseIrq) : Option Byte :=
  if irq.sb &&& kbcOutBufferFull ≠ 0 ∧ irq.sb &&& mouseMask = kbcAux then irq.data else none

/-- `mouse_ih` leaves what the interrupt yields in its two variables, and writes no other. -/
theorem mouseIh_spec (irq : MouseIrq) (m : Mouse) :
    ∃ last, mouseIh irq m =
        { m with validMouseByte := irq.yields.isSome, lastMouseByte := last } ∧
      ∀ b, irq.yields = some b → last = b := by
  unfold mouseIh
  dsimp only
  by_cases hfull : irq.sb &&& kbcOutBufferFull ≠ 0
  · rw [if_pos hfull]
    by_cases hmask : irq.sb &&& mouseMask = kbcAux
    · have hy : irq.yields = irq.data := if_pos ⟨hfull, hmask⟩
      refine ⟨irq.data.getD m.lastMouseByte, ?_, fun b hb => by rw [← hy, hb]; rfl⟩
      rw [hy]
      cases irq.data <;> simp [hmask]
    · have hy : irq.yields = none := if_neg fun h => hmask h.2
      rw [if_neg fun h => hmask h.2, hy]
      exact ⟨_, rfl, fun b hb => by cases hb⟩
  · have hy : irq.yields = none := if_neg fun h => hfull h.1
    rw [if_neg hfull, hy]
    exact ⟨_, rfl, fun b hb => by cases hb⟩

/-! ### The reference framer -/

/-- The packets that are in a sequence of reads, from left to right: a read that fails
drops the packet that has begun, a byte without bit 3 does not begin one, and three bytes
in a row are one. -/
def referenceFramer : List (Option Byte) → List (Vector Byte 3)
  | [] => []
  | none :: rest => referenceFramer rest
  | some a :: rest =>
    if a &&& mouseFirstBit = 0 then referenceFramer rest
    else
      match rest with
      | some b :: some c :: rest => #v[a, b, c] :: referenceFramer rest
      | some _ :: none :: rest => referenceFramer rest
      | none :: rest => referenceFramer rest
      | [some _] => []
      | [] => []

/-- The framer of the mouse: three bytes to a packet, the first with bit 3. -/
def mouseFramer : Framer Byte := { size := 3, starts := fun b => b &&& mouseFirstBit ≠ 0 }

/-- Every sequence of reads is cut into pieces whose packets are those of the reference, and a
packet that has begun at most is left over. -/
theorem referenceFramer_pieces (reads : List (Option Byte)) :
    ∃ (ps : List (Framer.Piece Byte)) (tail : List Byte),
      (∀ p ∈ ps, mouseFramer.Proper p) ∧ (tail = [] ∨ mouseFramer.Begun tail) ∧
      reads = ps.flatMap Framer.Piece.reads ++ tail.map some ∧
      ps.filterMap Framer.Piece.frame? = (referenceFramer reads).map Vector.toList := by
  have hstarts : ∀ {a : Byte} (bs : List Byte), ¬ a &&& mouseFirstBit = 0 →
      ∃ b ∈ (a :: bs).head?, mouseFramer.starts b = true := fun bs h =>
    ⟨_, rfl, decide_eq_true h⟩
  fun_induction referenceFramer reads with
  | case1 => exact ⟨[], [], by simp, Or.inl rfl, rfl, rfl⟩
  | case2 rest ih =>
    obtain ⟨ps, tail, hps, ht, rfl, hf⟩ := ih
    exact ⟨.fault :: ps, tail, List.forall_mem_cons.mpr ⟨trivial, hps⟩, ht, rfl, hf⟩
  | case3 a rest ha ih =>
    obtain ⟨ps, tail, hps, ht, rfl, hf⟩ := ih
    refine ⟨.skipped a :: ps, tail, List.forall_mem_cons.mpr ⟨?_, hps⟩, ht, rfl, hf⟩
    simpa [Framer.Proper, mouseFramer] using ha
  | case4 a ha b c rest ih =>
    obtain ⟨ps, tail, hps, ht, rfl, hf⟩ := ih
    refine ⟨.frame [a, b, c] :: ps, tail, List.forall_mem_cons.mpr ⟨?_, hps⟩, ht, rfl, ?_⟩
    · exact ⟨rfl, hstarts [b, c] ha⟩
    · simpa [Framer.Piece.frame?] using hf
  | case5 a ha b rest ih =>
    obtain ⟨ps, tail, hps, ht, rfl, hf⟩ := ih
    exact ⟨.broken [a, b] :: ps, tail,
      List.forall_mem_cons.mpr ⟨⟨Nat.lt_succ_self 2, hstarts [b] ha⟩, hps⟩, ht, rfl, hf⟩
  | case6 a ha rest ih =>
    obtain ⟨ps, tail, hps, ht, rfl, hf⟩ := ih
    exact ⟨.broken [a] :: ps, tail,
      List.forall_mem_cons.mpr ⟨⟨Nat.one_lt_succ_succ 1, hstarts [] ha⟩, hps⟩, ht, rfl, hf⟩
  | case7 a ha b =>
    exact ⟨[], [a, b], by simp, Or.inr ⟨Nat.lt_succ_self 2, hstarts [b] ha⟩, rfl, rfl⟩
  | case8 a ha => exact ⟨[], [a], by simp, Or.inr ⟨Nat.one_lt_succ_succ 1, hstarts [] ha⟩, rfl, rfl⟩

/-! ### The handler is the framer -/

/-- The static variables hold the bytes `part` of an unfinished packet. -/
structure Mouse.Holds (m : Mouse) (part : List Byte) : Prop where
  idx : m.msIdx = part.length
  lt : part.length < 3
  data : m.msData.toList.take part.length = part

theorem Mouse.holds_nil {m : Mouse} (h : m.msIdx = 0) : m.Holds [] := ⟨h, by decide, rfl⟩

/-- The index does not wrap. -/
theorem Mouse.Holds.next {m : Mouse} {part : List Byte} (h : m.Holds part) :
    (m.msIdx + 1) % 2 ^ 8 = part.length + 1 := by
  have hlt := h.lt
  rw [h.idx, Nat.mod_eq_of_lt (by omega)]

/-- A byte that is stored stands behind those before it. -/
theorem Mouse.Holds.store {m : Mouse} {part : List Byte} (h : m.Holds part) (b : Byte)
    (hlt : m.msIdx < 3) :
    (m.msData.set m.msIdx b hlt).toList.take (part.length + 1) = part ++ [b] := by
  have hlen : part.length < m.msData.toList.length := by simpa using h.lt
  have hset : (m.msData.set m.msIdx b hlt).toList = m.msData.toList.set part.length b := by
    rw [Vector.toList_set, h.idx]
  rw [hset, List.take_add_one, List.take_set, h.data, List.getElem?_set_self hlen,
    List.set_eq_of_length_le (le_refl _)]
  rfl

/-- **One interrupt is one read of the framer**, and the packet it completes is parsed. -/
theorem handleMouseEvt_read (v : VideoMode) (irq : MouseIrq) {m : Mouse} (g : Game K)
    {part : List Byte} (h : m.Holds part) :
    ∃ m' g', handleMouseEvt v irq m g = some (m', g') ∧
      m'.Holds (mouseFramer.read part irq.yields).1 ∧
      m'.parsed.map Vector.toList =
        m.parsed.map Vector.toList ++ (mouseFramer.read part irq.yields).2.toList := by
  obtain ⟨last, hih, hlast⟩ := mouseIh_spec irq m
  unfold handleMouseEvt
  rw [hih]
  dsimp only
  cases hy : irq.yields with
  | none =>
    rw [if_pos (by rfl)]
    exact ⟨_, g, rfl, Mouse.holds_nil rfl, by simp⟩
  | some b =>
    rw [if_neg (by simp), hlast b hy, Framer.read_some]
    split
    · next hskip =>
      -- between two packets, and the byte does not begin one
      obtain rfl : part = [] := List.length_eq_zero_iff.mp (h.idx ▸ hskip.1)
      rw [Framer.push_skipped (by simp [mouseFramer, hskip.2])]
      exact ⟨_, g, rfl, Mouse.holds_nil hskip.1, by simp⟩
    · next hskip =>
      have hlt : m.msIdx < 3 := h.idx ▸ h.lt
      have hstore := h.store b hlt
      have hb : part = [] → mouseFramer.starts b = true := by
        rintro rfl
        simpa [mouseFramer] using fun hbit => hskip ⟨h.idx, hbit⟩
      have hnext := h.next
      rw [dif_pos hlt]
      split
      · next hfull =>
        -- the third byte of a packet
        rw [hnext] at hfull
        rw [Framer.push_finished hb hfull]
        refine ⟨_, _, rfl, Mouse.holds_nil rfl, ?_⟩
        rw [hfull, List.take_of_length_le (by simp)] at hstore
        simp [hstore]
      · next hfull =>
        rw [hnext] at hfull
        rw [Framer.push_unfinished hb hfull]
        refine ⟨_, g, rfl, ⟨?_, ?_, ?_⟩, by simp⟩
        · simpa using hnext
        · have := h.lt
          simp only [List.length_append, List.length_singleton]
          omega
        · simpa using hstore

/-- **A run of the handler is a run of the framer.** -/
theorem mouseRun_readAll (v : VideoMode) : ∀ (evts : List (MouseIrq × Game K)) {m : Mouse}
    {part : List Byte}, m.Holds part →
    ∃ m', mouseRun v evts m = some m' ∧
      m'.Holds (mouseFramer.readAll part (evts.map (·.1.yields))).1 ∧
      m'.parsed.map Vector.toList =
        m.parsed.map Vector.toList ++ (mouseFramer.readAll part (evts.map (·.1.yields))).2 := by
  intro evts
  induction evts with
  | nil => intro m part h; exact ⟨m, rfl, h, by simp⟩
  | cons e evts ih =>
    intro m part h
    obtain ⟨irq, g⟩ := e
    obtain ⟨m₁, g₁, hevt, hpart, hparsed⟩ := handleMouseEvt_read v irq g h
    obtain ⟨m', hrun, hpart', hparsed'⟩ := ih hpart
    refine ⟨m', by rw [mouseRun, hevt]; exact hrun, hpart', ?_⟩
    rw [hparsed', hparsed]
    simp

/-- **The packets parsed are the packets of the reference framer.**  Whatever the controller
answers, and whatever the rest of the program does in between, the handler stays inside of
`ms_data`, it parses the packets of the reference and no others, and these lie one behind
the other in what was read. -/
theorem mouse_framing (v : VideoMode) (evts : List (MouseIrq × Game K)) :
    ∃ m, mouseRun v evts Mouse.init = some m ∧ m.msIdx < 3 ∧
      m.parsed = referenceFramer (evts.map (·.1.yields)) ∧
      ∃ places : List ℕ, places.Pairwise (fun p q => p + 3 ≤ q) ∧
        List.Forall₂ (fun p bytes =>
            ((evts.map (·.1.yields)).drop p).take 3 = bytes.toList.map some)
          places m.parsed := by
  obtain ⟨m, hrun, hpart, hparsed⟩ :=
    mouseRun_readAll v evts (Mouse.holds_nil (m := Mouse.init) rfl)
  obtain ⟨ps, tail, hps, ht, hreads, hframes⟩ := referenceFramer_pieces (evts.map (·.1.yields))
  have hall : mouseFramer.readAll [] (evts.map (·.1.yields)) =
      (tail, ps.filterMap Framer.Piece.frame?) := by
    rw [hreads, Framer.readAll_append, Framer.readAll_pieces ps hps, Framer.readAll_map_some]
    rcases ht with rfl | ht
    · simp [Framer.feed]
    · rw [Framer.feed_begun ht, List.append_nil]
  rw [hall] at hparsed hpart
  have hlists : m.parsed.map Vector.toList = ps.filterMap Framer.Piece.frame? := hparsed
  have heq : m.parsed = referenceFramer (evts.map (·.1.yields)) :=
    List.map_injective_iff.mpr (fun _ _ => Vector.toList_inj.mp) (hlists.trans hframes)
  obtain ⟨places, hapart, hon⟩ := Framer.exists_places hps (tail.map some)
  rw [← hreads, ← hlists, List.forall₂_map_right_iff] at hon
  exact ⟨m, hrun, hpart.idx ▸ hpart.lt, heq, places, hapart, hon⟩

end Model

end OperationMinix
