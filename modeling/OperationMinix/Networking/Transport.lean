import OperationMinix.Networking.Packet

/-!
# From the sender's controls to the replica

The bytes that one peer sends with `uart_send_data` arrive at the other in
order, in pieces cut anywhere, between calls of `uart_receive_data`.  Each frame
decodes to the sender's controls, and the tick of the replica that follows takes
the gun the sender has in hand.

Between calls the rest of the game goes on: the clock runs and the local player
moves, shoots and picks things up.  None of it touches the controls of the
replica.  What carries the argument from packet to packet is that the replica's
number keys are all released between packets (`Idle`), although a packet
releases only the first three of the ten.

## Main definitions

* `Receiver`, `receiverMachine` — the receiving peer, with the history of what
  arrived and what was decoded.
* `Drives` — what a packet does to the replica.

## Main results

* `packet_transport` — **the replica follows the sender, packet by packet.**
-/

namespace OperationMinix

open Runs

set_option linter.unusedSectionVars false

/-- The replica right after a packet was decoded, and after the tick that
follows. -/
structure Snapshot (K : Type*) where
  decoded : PlayerInfo K
  driven : PlayerInfo K

/-- The receiving peer. -/
structure Receiver (K : Type*) where
  net : Net
  world : World K
  /-- The bytes that have arrived, oldest first. -/
  arrived : List Byte
  /-- The packets decoded so far, oldest first. -/
  log : List (Snapshot K)
  /-- The results reported so far, oldest first. -/
  results : List ReceiveResult

/-- What happens to the receiver. -/
inductive ReceiverInput (K : Type*) where
  | arrive (b : Byte)
  /-- A call of `uart_receive_data`. -/
  | receive
  /-- The rest of a tick: the clock stands at `timeCounter`, and the local player
  makes its tick with the controls `movm`. -/
  | localTick (timeCounter : ℕ) (movm : Controls K)

section Model

variable {K : Type*} [Field K] [LinearOrder K] [FloorRing K] (e : Env K) (ref : PlayerRef)

/-- What `uart_receive_data` does with a packet: it decodes it into the replica
and lets the replica make a tick. -/
def drive (pkt : NetworkPacket) (r : World K × List (Snapshot K)) : World K × List (Snapshot K) :=
  let w := r.1.modify ref (decodePacket pkt)
  let v := playerIntIh e ref w
  (v, r.2 ++ [{ decoded := w.get ref, driven := v.get ref }])

/-- The receiver, step by step. -/
def receiverMachine : Machine (Receiver K) (ReceiverInput K) where
  step r
    | .arrive b => some
        { r with
          net := { r.net with inFifo := r.net.inFifo ++ [entry b] }
          arrived := r.arrived ++ [b] }
    | .receive =>
        let out := uartReceiveData (drive e ref) r.net (r.world, r.log)
        some { r with
          net := out.2.1
          world := out.2.2.1
          log := out.2.2.2
          results := if out.1 = .ok then r.results else r.results ++ [out.1] }
    | .localTick t m =>
        let w := { r.world with timeCounter := t, player := { r.world.player with movm := m } }
        some { r with world := playerIntIh e .player w }

/-- The bytes that arrive among a list of inputs. -/
def arrivals (is : List (ReceiverInput K)) : List Byte :=
  is.filterMap fun
    | .arrive b => some b
    | _ => none

/-- The bytes `uart_send_data` puts on the line for a player. -/
def sentBytes (ply : PlayerInfo K) : List Byte := wireBytes (uartSendData ply Net.start).calls

/-- The replica between two packets: no gun key is down. -/
structure Idle (p : PlayerInfo K) : Prop where
  type : p.type = .networkPlayer
  keys : p.movm.kbdState.numsPress.length = 10
  released : ∀ i, 1 ≤ i → i ≤ 3 → p.movm.kbdState.numsPress.getD i false = false

/-- What a packet does to the replica: the controls right after it was decoded,
and the gun after the tick that follows. -/
structure Drives (pkt : NetworkPacket) (s : Snapshot K) : Prop where
  xPos : s.decoded.movm.kbdState.xPos = pkt.wDown
  xNeg : s.decoded.movm.kbdState.xNeg = pkt.sDown
  yPos : s.decoded.movm.kbdState.yPos = pkt.dDown
  yNeg : s.decoded.movm.kbdState.yNeg = pkt.aDown
  sprint : s.decoded.movm.kbdState.sprint = pkt.shiftDown
  crouch : s.decoded.movm.kbdState.crouch = pkt.ctrlDown
  lb : s.decoded.movm.lb = pkt.shootDown
  gun : 1 ≤ pkt.gunDown → s.driven.gunIndex + 1 = pkt.gunDown

variable {e ref}

/-! ### One packet -/

omit [Field K] [LinearOrder K] [FloorRing K] in
theorem SameControls.idle {p q : PlayerInfo K} (h : SameControls p q) (hp : Idle p) : Idle q :=
  ⟨h.type.trans hp.type, by rw [h.kbdState]; exact hp.keys, by rw [h.kbdState]; exact hp.released⟩

/-- The key of the gun is down after a packet, and no other key of a gun. -/
theorem decodePacket_keys {p : PlayerInfo K} (hp : Idle p) (pkt : NetworkPacket) {i : ℕ}
    (h1 : 1 ≤ i) (h3 : i ≤ 3) :
    (decodePacket pkt p).movm.kbdState.numsPress.getD i false = decide (i = pkt.gunDown) := by
  have hlen : i < p.movm.kbdState.numsPress.length := by rw [hp.keys]; omega
  have hrel := hp.released i h1 h3
  rw [List.getD_eq_getElem?_getD] at hrel ⊢
  simp only [decodePacket, List.getElem?_set, List.length_set]
  by_cases hg : pkt.gunDown = i
  · simp [hg, hlen]
  · rw [if_neg hg, decide_eq_false (fun h => hg h.symm)]
    split_ifs <;> simp_all

/-- A number key that is taken is released, and its gun is in hand. -/
theorem takeNumberKey_spec (i : ℕ) (q : PlayerInfo K) :
    (takeNumberKey i q).gunIndex = i - 1 ∧ (takeNumberKey i q).type = q.type ∧
      (takeNumberKey i q).movm.kbdState.numsPress = q.movm.kbdState.numsPress.set i false := by
  unfold takeNumberKey switchGun
  dsimp only
  split
  · exact ⟨rfl, rfl, rfl⟩
  · next h => exact ⟨not_not.mp h, rfl, rfl⟩

/-- The number keys of a player with at most the key `g` down among the guns'. -/
theorem numberKeys_spec {q : PlayerInfo K} {g : ℕ} (hg : g ≤ 3)
    (hkeys : ∀ i, 1 ≤ i → i ≤ 3 →
      q.movm.kbdState.numsPress.getD i false = decide (i = g)) :
    numberKeys q = if g = 0 then q else takeNumberKey g q := by
  have h1 := hkeys 1 (by omega) (by omega)
  have h2 := hkeys 2 (by omega) (by omega)
  have h3 := hkeys 3 (by omega) (by omega)
  unfold numberKeys
  simp only [List.find?, h1, h2, h3]
  obtain rfl | rfl | rfl | rfl : g = 0 ∨ g = 1 ∨ g = 2 ∨ g = 3 := by omega
  all_goals rfl

/-- **The tick after a packet takes the gun the packet names**, and releases its
key again. -/
theorem numberKeys_decodePacket {p : PlayerInfo K} (hp : Idle p) (pkt : NetworkPacket)
    (hg : pkt.gunDown ≤ 3) {q : PlayerInfo K} (hq : SameControls (decodePacket pkt p) q) :
    Idle (numberKeys q) ∧ (1 ≤ pkt.gunDown → (numberKeys q).gunIndex + 1 = pkt.gunDown) := by
  have hkeys : ∀ i, 1 ≤ i → i ≤ 3 →
      q.movm.kbdState.numsPress.getD i false = decide (i = pkt.gunDown) := by
    intro i h1 h3
    rw [hq.kbdState]
    exact decodePacket_keys hp pkt h1 h3
  have htype : q.type = .networkPlayer := hq.type.trans hp.type
  have hlen : q.movm.kbdState.numsPress.length = 10 := by
    rw [hq.kbdState]
    simp [decodePacket, hp.keys]
  rw [numberKeys_spec hg hkeys]
  split
  · next h0 =>
    refine ⟨⟨htype, hlen, fun i h1 h3 => ?_⟩, fun h => by omega⟩
    rw [hkeys i h1 h3, h0]
    exact decide_eq_false (by omega)
  · obtain ⟨hgun, htype', hnums⟩ := takeNumberKey_spec pkt.gunDown q
    refine ⟨⟨htype'.trans htype, by rw [hnums, List.length_set, hlen], fun i h1 h3 => ?_⟩,
      fun h => by omega⟩
    have hi := hkeys i h1 h3
    rw [hnums, List.getD_eq_getElem?_getD, List.getElem?_set]
    split_ifs with heq
    · rfl
    · rfl
    · rw [← List.getD_eq_getElem?_getD, hi]
      exact decide_eq_false (fun h => heq h.symm)

/-- The replica is there and has no gun key down. -/
def Ready (ref : PlayerRef) (w : World K) : Prop := w.Valid ref ∧ Idle (w.get ref)

theorem Ready.of_sameControls {w v : World K} (h : w.SameControls v) (hw : Ready ref w) :
    Ready ref v :=
  ⟨h.valid hw.1, (h.players ref).idle hw.2⟩

/-- **One packet drives the replica** and leaves it ready for the next one. -/
theorem drive_spec {w : World K} (hw : Ready ref w) {pkt : NetworkPacket} (hg : pkt.gunDown ≤ 3)
    (log : List (Snapshot K)) :
    ∃ s, (drive e ref pkt (w, log)).2 = log ++ [s] ∧ Drives pkt s ∧
      Ready ref (drive e ref pkt (w, log)).1 := by
  obtain ⟨hvalid, hidle⟩ := hw
  have hget : (w.modify ref (decodePacket pkt)).get ref = decodePacket pkt (w.get ref) :=
    World.get_modify_self hvalid _
  have hvalid1 := World.valid_modify hvalid (decodePacket pkt)
  -- the tick of the replica, seen from its controls
  have htick := sameControls_playerIntIh e ref (w.modify ref (decodePacket pkt))
  have hsteer := htick.players ref
  rw [World.get_modify_self hvalid1, hget] at hsteer
  have hbot : (decodePacket pkt (w.get ref)).type ≠ .bot := by
    show (w.get ref).type ≠ .bot
    rw [hidle.type]
    decide
  have hcontrols := (sameControls_steer e.libm _ hbot).trans hsteer
  obtain ⟨hidle', hgun⟩ := numberKeys_decodePacket hidle pkt hg
    ((SameControls.turn e.libm _).trans (SameControls.move e.libm _ _))
  refine ⟨_, rfl, ?_, htick.valid (World.valid_modify hvalid1 _), hcontrols.idle hidle'⟩
  refine ⟨?_, ?_, ?_, ?_, ?_, ?_, ?_, fun h => ?_⟩
  · rw [hget]; rfl
  · rw [hget]; rfl
  · rw [hget]; rfl
  · rw [hget]; rfl
  · rw [hget]; rfl
  · rw [hget]; rfl
  · rw [hget]; rfl
  · rw [← hgun h, hcontrols.gunIndex]

theorem decodeData_gunDown (data : List Byte) : (decodeData data).gunDown ≤ 3 := by
  unfold decodeData decodeGun
  dsimp only
  split_ifs <;> omega

/-! ### Whole runs -/

/-- The packets among the frames cut from a stream. -/
def packets (fs : List (List Entry)) : List NetworkPacket :=
  (fs.filter fun f => frameResult (frameBytes f) = none).map fun f => decodeData (frameBytes f)

/-- The results among the frames cut from a stream. -/
def announced (fs : List (List Entry)) : List ReceiveResult :=
  fs.filterMap fun f => frameResult (frameBytes f)

@[simp] theorem packets_append (fs gs : List (List Entry)) :
    packets (fs ++ gs) = packets fs ++ packets gs := by
  simp [packets]

@[simp] theorem announced_append (fs gs : List (List Entry)) :
    announced (fs ++ gs) = announced fs ++ announced gs :=
  List.filterMap_append

section

variable {fs : List (List Entry)} (h : ∀ f ∈ fs, frameResult (frameBytes f) = none)

include h

theorem packets_of_none : packets fs = fs.map fun f => decodeData (frameBytes f) := by
  rw [packets, List.filter_eq_self.mpr]
  intro f hf
  exact decide_eq_true (h f hf)

theorem announced_of_none : announced fs = [] := List.filterMap_eq_nil_iff.mpr h

end

/-- The frames handled by one call, packets and results apart. -/
theorem Handled.packets_announced {R : Type*} {handle : NetworkPacket → R → R}
    {part taken : List Entry} {r r' : R} {res : ReceiveResult}
    (h : Handled handle part taken r res r') :
    ∃ fs, r' = handleAll handle fs r ∧
      packets (framer.feed part taken).2 = (fs.map fun f => decodeData (frameBytes f)) ∧
      announced (framer.feed part taken).2 = if res = .ok then [] else [res] := by
  obtain ⟨fs, hfs, hr, ⟨rfl, hcut⟩ | ⟨f, hf, hcut⟩⟩ := h
  · exact ⟨fs, hr, by rw [hcut, packets_of_none hfs], by rw [hcut, announced_of_none hfs]; rfl⟩
  · have hres : res ≠ .ok := by
      rintro rfl
      revert hf
      unfold frameResult
      split_ifs <;> simp
    refine ⟨fs, hr, ?_, ?_⟩
    · rw [hcut, packets_append, packets_of_none hfs]
      simp [packets, hf]
    · rw [hcut, announced_append, announced_of_none hfs, if_neg hres]
      simp [announced, hf]

/-- **A call goes on cutting where the one before stopped.**  The entries `taken`
have been read before it, of all those that have arrived. -/
theorem uartReceiveData_continues {R : Type*} (handle : NetworkPacket → R → R) {n : Net}
    {arrived taken : List Entry} (harr : arrived = taken ++ n.inFifo)
    (hun : Unfinished n (framer.feed [] taken).1) (r : R) {out : ReceiveResult × Net × R}
    (hout : uartReceiveData handle n r = out) :
    ∃ taken' fs, arrived = taken' ++ out.2.1.inFifo ∧
      Unfinished out.2.1 (framer.feed [] taken').1 ∧ out.2.2 = handleAll handle fs r ∧
      packets (framer.feed [] taken').2 =
        packets (framer.feed [] taken).2 ++ fs.map (fun f => decodeData (frameBytes f)) ∧
      announced (framer.feed [] taken').2 =
        announced (framer.feed [] taken).2 ++ (if out.1 = .ok then [] else [out.1]) ∧
      (out.1 = .ok → out.2.1.inFifo = []) := by
  obtain ⟨⟨more, hin, hun', hhandled⟩, hok, -⟩ := uartReceiveData_spec handle hun r
  rw [hout] at hin hun' hhandled hok
  obtain ⟨fs, hr, hpackets, hannounced⟩ := hhandled.packets_announced
  refine ⟨taken ++ more, fs, ?_, ?_, hr, ?_, ?_, hok⟩
  · rw [harr, hin, List.append_assoc]
  · rw [Framer.feed_append]
    exact hun'
  · rw [Framer.feed_append, packets_append, hpackets]
  · rw [Framer.feed_append, announced_append, hannounced]

/-- A list of packets drives the replica one by one. -/
theorem handleAll_drive : ∀ (fs : List (List Entry)) (w : World K) (log : List (Snapshot K)),
    Ready ref w → ∃ ss, (handleAll (drive e ref) fs (w, log)).2 = log ++ ss ∧
      List.Forall₂ Drives (fs.map fun f => decodeData (frameBytes f)) ss ∧
      Ready ref (handleAll (drive e ref) fs (w, log)).1 := by
  intro fs
  induction fs with
  | nil => intro w log hw; exact ⟨[], by simp [handleAll], List.Forall₂.nil, hw⟩
  | cons f fs ih =>
    intro w log hw
    obtain ⟨s, hs, hdrives, hready⟩ :=
      drive_spec (e := e) hw (decodeData_gunDown (frameBytes f)) log
    obtain ⟨ss, hss, hall, hready'⟩ := ih _ (log ++ [s]) hready
    have hcons : handleAll (drive e ref) (f :: fs) (w, log) =
        handleAll (drive e ref) fs ((drive e ref (decodeData (frameBytes f)) (w, log)).1,
          log ++ [s]) := by
      rw [← hs]
      rfl
    rw [hcons]
    exact ⟨s :: ss, by rw [hss]; simp, List.Forall₂.cons hdrives hall, hready'⟩

/-- What the receiver has made of the bytes that arrived: the frames cut from
those it has taken, packets and results apart, and in order. -/
structure Follows (ref : PlayerRef) (r : Receiver K) : Prop where
  taken : ∃ taken, r.arrived.map entry = taken ++ r.net.inFifo ∧
    Unfinished r.net (framer.feed [] taken).1 ∧
    List.Forall₂ Drives (packets (framer.feed [] taken).2) r.log ∧
    r.results = announced (framer.feed [] taken).2
  ready : Ready ref r.world

/-- A call of `uart_receive_data` goes on cutting where the one before stopped. -/
theorem Follows.receive {r u : Receiver K} (h : Follows ref r)
    (hu : (receiverMachine e ref).step r .receive = some u) :
    Follows ref u ∧ (u.results = [] → u.net.inFifo = []) := by
  obtain ⟨⟨taken, harr, hun, hlog, hres⟩, hready⟩ := h
  cases hu
  obtain ⟨taken', fs, harr', hun', hout, hpackets, hannounced, hok⟩ :=
    uartReceiveData_continues (drive e ref) harr hun (r.world, r.log) rfl
  obtain ⟨ss, hss, hdrives, hready'⟩ := handleAll_drive (e := e) fs r.world r.log hready
  refine ⟨⟨⟨taken', harr', hun', ?_, ?_⟩, ?_⟩, fun h => hok ?_⟩
  · rw [hpackets, hout, hss]
    exact List.rel_append hlog hdrives
  · rw [hannounced, ← hres]
    dsimp only
    split_ifs <;> simp
  · rw [hout]
    exact hready'
  · by_contra hne
    simp [hne] at h

/-- **One step of the receiver.** -/
theorem Follows.step {r u : Receiver K} {i : ReceiverInput K} {k : ℕ} (h : Follows (.enemy k) r)
    (hu : (receiverMachine e (.enemy k)).step r i = some u) : Follows (.enemy k) u := by
  cases i with
  | arrive b =>
    obtain ⟨⟨taken, harr, hun, hlog, hres⟩, hready⟩ := h
    cases hu
    refine ⟨⟨taken, ?_, hun.congr rfl rfl, hlog, hres⟩, hready⟩
    simp [harr]
  | receive => exact (h.receive hu).1
  | localTick t m =>
    cases hu
    refine ⟨h.taken, ?_⟩
    -- the tick of the local player changes the controls of no enemy
    set w : World K :=
      { r.world with timeCounter := t, player := { r.world.player with movm := m } } with hw
    have htick := sameControls_playerIntIh e .player w
    have hready : Ready (.enemy k) (w.modify .player (steer e.libm w.map)) := h.ready
    exact hready.of_sameControls htick

/-- The receiver takes every input, and remembers the bytes that arrive. -/
theorem run_arrived (e : Env K) (ref : PlayerRef) :
    ∀ (is : List (ReceiverInput K)) (r : Receiver K),
    ∃ u, (receiverMachine e ref).run r is = some u ∧ u.arrived = r.arrived ++ arrivals is := by
  intro is
  induction is with
  | nil => intro r; exact ⟨r, rfl, by simp [arrivals]⟩
  | cons i is ih =>
    intro r
    obtain ⟨v, hv, harr⟩ : ∃ v, (receiverMachine e ref).step r i = some v ∧
        v.arrived = r.arrived ++ arrivals [i] := by
      cases i with
      | arrive b => exact ⟨_, rfl, rfl⟩
      | receive => exact ⟨_, rfl, (List.append_nil _).symm⟩
      | localTick t m => exact ⟨_, rfl, (List.append_nil _).symm⟩
    obtain ⟨u, hu, harr'⟩ := ih v
    refine ⟨u, Machine.run_cons_eq_some.mpr ⟨v, hv, hu⟩, ?_⟩
    have hcons : arrivals (i :: is) = arrivals [i] ++ arrivals is := by
      rw [arrivals, arrivals, arrivals, ← List.filterMap_append]
      rfl
    rw [harr', harr, hcons, List.append_assoc]

/-! ### The bytes of a sender -/

theorem sentBytes_eq (p : PlayerInfo K) : sentBytes p = encodeData (encodePacket p) := rfl

theorem frameBytes_map_entry (bs : List Byte) : frameBytes (bs.map entry) = bs := by
  have h : ∀ b : Byte, (entry b).setWidth 8 = b := fun b => by simp [entry]
  rw [frameBytes, List.map_map]
  exact List.map_id'' h bs

/-- The header of a packet with one of the three guns starts a frame, and is the
first letter of no result. -/
theorem header_facts {g : ℕ} (h1 : 1 ≤ g) (h3 : g ≤ 3) :
    startsFrame (entry (dataConfirmPacket ||| BitVec.ofNat 8 (1 <<< (g - 1)))) = true ∧
      dataConfirmPacket ||| BitVec.ofNat 8 (1 <<< (g - 1)) ≠ 0x57 ∧
      dataConfirmPacket ||| BitVec.ofNat 8 (1 <<< (g - 1)) ≠ 0x4c := by
  obtain rfl | rfl | rfl : g = 1 ∨ g = 2 ∨ g = 3 := by omega
  · decide
  · decide
  · decide

section

variable {p : PlayerInfo K} (hp : p.gunIndex ∈ [0, 1, 2])

include hp

theorem encodePacket_gunDown : (encodePacket p).gunDown = p.gunIndex + 1 := by
  simp only [List.mem_cons, List.not_mem_nil, or_false] at hp
  show (p.gunIndex + 1) % 256 = p.gunIndex + 1
  omega

theorem encodePacket_gunDown_le :
    1 ≤ (encodePacket p).gunDown ∧ (encodePacket p).gunDown ≤ 3 := by
  rw [encodePacket_gunDown hp]
  simp only [List.mem_cons, List.not_mem_nil, or_false] at hp
  omega

/-- What `uart_send_data` sends for a player is a frame. -/
theorem frame_sentBytes : framer.Frame ((sentBytes p).map entry) := by
  obtain ⟨h1, h3⟩ := encodePacket_gunDown_le hp
  exact ⟨rfl, _, rfl, (header_facts h1 h3).1⟩

/-- It is a packet, and announces no result. -/
theorem frameResult_sentBytes : frameResult (frameBytes ((sentBytes p).map entry)) = none := by
  obtain ⟨h1, h3⟩ := encodePacket_gunDown_le hp
  obtain ⟨-, hw, hl⟩ := header_facts h1 h3
  rw [frameBytes_map_entry, sentBytes_eq]
  unfold frameResult encodeData uartWinGame uartLoseGame
  rw [if_neg fun h => hw (List.cons.inj h).1, if_neg fun h => hl (List.cons.inj h).1]

theorem decodeData_sentBytes :
    decodeData (frameBytes ((sentBytes p).map entry)) = encodePacket p := by
  obtain ⟨h1, h3⟩ := encodePacket_gunDown_le hp
  rw [frameBytes_map_entry, sentBytes_eq, decodeData_encodeData h1 h3]

end

/-- The replica has the controls of the sender `p` right after the packet, and
its gun after the tick that follows. -/
structure Mirrors (p : PlayerInfo K) (s : Snapshot K) : Prop where
  xPos : s.decoded.movm.kbdState.xPos = p.movm.kbdState.xPos
  xNeg : s.decoded.movm.kbdState.xNeg = p.movm.kbdState.xNeg
  yPos : s.decoded.movm.kbdState.yPos = p.movm.kbdState.yPos
  yNeg : s.decoded.movm.kbdState.yNeg = p.movm.kbdState.yNeg
  sprint : s.decoded.movm.kbdState.sprint = p.movm.kbdState.sprint
  crouch : s.decoded.movm.kbdState.crouch = p.movm.kbdState.crouch
  lb : s.decoded.movm.lb = p.movm.lb
  gunIndex : s.driven.gunIndex = p.gunIndex

theorem Drives.mirrors {p : PlayerInfo K} (hp : p.gunIndex ∈ [0, 1, 2]) {s : Snapshot K}
    (h : Drives (encodePacket p) s) : Mirrors p s := by
  refine ⟨h.xPos, h.xNeg, h.yPos, h.yNeg, h.sprint, h.crouch, h.lb, ?_⟩
  have hgun := h.gun (encodePacket_gunDown_le hp).1
  rw [encodePacket_gunDown hp] at hgun
  exact Nat.succ.inj hgun

/-- The stream of a list of senders: the frames the framer cuts, the packets in
them, and no result. -/
theorem feed_sentBytes {ps : List (PlayerInfo K)} (hps : ∀ p ∈ ps, p.gunIndex ∈ [0, 1, 2]) :
    framer.feed [] ((ps.map sentBytes).flatten.map entry) =
        ([], ps.map fun p => (sentBytes p).map entry) ∧
      packets (ps.map fun p => (sentBytes p).map entry) = ps.map encodePacket ∧
      announced (ps.map fun p => (sentBytes p).map entry) = [] := by
  have hnone : ∀ f ∈ ps.map fun p => (sentBytes p).map entry,
      frameResult (frameBytes f) = none := by
    intro f hf
    obtain ⟨p, hp, rfl⟩ := List.mem_map.mp hf
    exact frameResult_sentBytes (hps p hp)
  refine ⟨?_, ?_, announced_of_none hnone⟩
  · rw [List.map_flatten, List.map_map]
    apply Framer.feed_flatten
    intro f hf
    obtain ⟨p, hp, rfl⟩ := List.mem_map.mp hf
    exact frame_sentBytes (hps p hp)
  · rw [packets_of_none hnone, List.map_map]
    exact List.map_congr_left fun p hp => decodeData_sentBytes (hps p hp)

omit [LinearOrder K] [FloorRing K] in
/-- A new network player has no key down. -/
theorem ready_initPlayer (l : Libm K) (fov : ℤ) {a : PlayerSetup K} (ha : a.type = .networkPlayer)
    (w : World K) : Ready (.enemy w.enemies.length) (initPlayer l fov a w) := by
  unfold initPlayer
  rw [if_neg (by simp [ha])]
  have hget : World.get { w with enemies := w.enemies ++ [newPlayer l fov a] }
      (.enemy w.enemies.length) = newPlayer l fov a := by
    simp [World.get, List.getD]
  refine ⟨by simp [World.Valid], ?_⟩
  rw [hget]
  refine ⟨ha, rfl, fun i h1 h3 => ?_⟩
  obtain rfl | rfl | rfl : i = 1 ∨ i = 2 ∨ i = 3 := by omega
  all_goals rfl

/-- **End-to-end packet transport.**  The bytes of any list of senders, each with
one of the three guns in hand, arrive in order between calls of
`uart_receive_data` at a peer whose replica is new and whose buffer is empty.
After the last call every packet has been decoded, once and in order, no result
has been reported, and each packet has given the replica the controls and the
gun of its sender. -/
theorem packet_transport (e : Env K) (fov : ℤ) (a : PlayerSetup K) (ha : a.type = .networkPlayer)
    (w : World K) (n : Net) (hidx : n.packetIdx = 0) (hfifo : n.inFifo = [])
    (ps : List (PlayerInfo K)) (hps : ∀ p ∈ ps, p.gunIndex ∈ [0, 1, 2])
    (is : List (ReceiverInput K)) (harr : arrivals is = (ps.map sentBytes).flatten) :
    ∃ r, (receiverMachine e (.enemy w.enemies.length)).run
        { net := n, world := initPlayer e.libm fov a w, arrived := [], log := [], results := [] }
        (is ++ [.receive]) = some r ∧
      r.results = [] ∧ List.Forall₂ Mirrors ps r.log := by
  have hstart : Follows (.enemy w.enemies.length)
      { net := n, world := initPlayer e.libm fov a w, arrived := [], log := [], results := [] } :=
    ⟨⟨[], by simp [hfifo], ⟨hidx, by decide, rfl⟩, List.Forall₂.nil, rfl⟩,
      ready_initPlayer e.libm fov ha w⟩
  obtain ⟨u, hu, hu'⟩ := run_arrived e (.enemy w.enemies.length) is
    { net := n, world := initPlayer e.libm fov a w, arrived := [], log := [], results := [] }
  have hfollows := Machine.run_invariant_of_step (fun _ _ _ h hk => Follows.step h hk) is hstart hu
  obtain ⟨r, hr⟩ : ∃ r, (receiverMachine e (.enemy w.enemies.length)).step u .receive = some r :=
    ⟨_, rfl⟩
  have hrun : (receiverMachine e (.enemy w.enemies.length)).run
      { net := n, world := initPlayer e.libm fov a w, arrived := [], log := [], results := [] }
      (is ++ [.receive]) = some r :=
    Machine.run_append_eq_some.mpr ⟨u, hu, Machine.run_cons_eq_some.mpr ⟨r, hr, rfl⟩⟩
  have harr : r.arrived = (ps.map sentBytes).flatten := by
    have hsame : r.arrived = u.arrived := by cases hr; rfl
    rw [hsame, hu', List.nil_append, harr]
  obtain ⟨⟨⟨taken, htaken, hun, hlog, hres⟩, -⟩, hempty⟩ := hfollows.receive hr
  obtain ⟨hfeed, hpackets, hannounced⟩ := feed_sentBytes hps
  -- no frame of the stream announces a result, so none was reported on the way
  have hcut : (framer.feed [] taken).2 <+: ps.map fun p => (sentBytes p).map entry := by
    rw [← harr, htaken, Framer.feed_append, Prod.mk.injEq] at hfeed
    exact ⟨_, hfeed.2⟩
  have hnone : r.results = [] := by
    obtain ⟨rest, hrest⟩ := hcut
    rw [← hrest, announced_append] at hannounced
    rw [hres, (List.append_eq_nil_iff.mp hannounced).1]
  -- hence the last call has read everything
  rw [hempty hnone, List.append_nil] at htaken
  rw [← htaken, harr, hfeed, hpackets] at hlog
  refine ⟨r, hrun, hnone, ?_⟩
  have hboth := (List.forall₂_and_left ps r.log).mpr ⟨hps, List.forall₂_map_left_iff.mp hlog⟩
  exact hboth.imp fun p s h => h.2.mirrors h.1

end Model

/-! ### A stream of two packets -/

/-- A sender that walks and shoots with the gun `gunIndex`. -/
def walker (gunIndex : ℕ) : PlayerInfo ℚ :=
  let kbd := { (Controls.zero : Controls ℚ).kbdState with xPos := true, sprint := true }
  { PlayerInfo.zero with
    gunIndex := gunIndex, movm := { Controls.zero with lb := true, kbdState := kbd } }

/-- Two packets in three pieces, with a tick of the game in between. -/
def twoPackets : List (ReceiverInput ℚ) :=
  [.arrive 0xaa, .receive, .arrive 0x00, .arrive 0x45, .arrive 0xac, .receive,
    .localTick 1 Controls.zero, .arrive 0x00, .arrive 0x45]

/-- Two packets of a sender that changes its gun. -/
theorem packet_transport_twoPackets : ∃ r, (receiverMachine openField (.enemy 0)).run
      { net := Net.start, world := initPlayer openField.libm 66 replicaSetup emptyWorld
        arrived := [], log := [], results := [] } (twoPackets ++ [.receive]) = some r ∧
    r.results = [] ∧ List.Forall₂ Mirrors [walker 1, walker 2] r.log := by
  have hsent : ([walker 1, walker 2].map sentBytes).flatten =
      [0xaa, 0x00, 0x45, 0xac, 0x00, 0x45] := by decide +kernel
  refine packet_transport openField 66 replicaSetup rfl emptyWorld Net.start rfl rfl
    [walker 1, walker 2] ?_ twoPackets ?_
  · simp [walker]
  · rw [hsent]
    rfl

end OperationMinix
