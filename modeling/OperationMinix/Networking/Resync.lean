import OperationMinix.Networking.Intake

/-!
# Finding back into step

A byte of the stream is lost, and the receiver of `uart_receive_data` takes a header
for the end of the frame before it.  The test for headers is all that brings it back
into step: an entry that cannot start a frame is skipped between frames.

Where the receiver stands at the end of a packet is said by a number, how many
entries it takes for the start of a frame (`overhang`).  Out of step, the header of
the next packet ends that frame or is its second entry, and what follows is the
mouse byte or the flags alone.  So the next overhang depends on whether one of these
looks like the start of a frame, and on nothing else.

## Main definitions

* `overhang`, `Realigns` — the overhang from packet to packet, and none after two.
* `lossyBytes` — a stream of packets, one of which has lost a byte.

## Main results

* `intake_packets` — a stream without results is decoded frame by frame.
* `resynchronises_iff` — after a lost byte, **the packets are decoded as they are sent
  from the third one on exactly when there is no overhang** before it.
-/

namespace OperationMinix

open Runs

/-! ### Streams without results -/

/-- The entries that arrive among a list of inputs. -/
def arrivedEntries (is : List IntakeInput) : List Entry :=
  is.filterMap fun
    | .arrive b => some (entry b)
    | .lineError => some uartErrorCode
    | .receive => none

/-- As long as no result is announced, the packets are those of the frames the framer
cuts from the entries that have been read. -/
def Decodes (s : Intake) : Prop :=
  announced (framer.feed [] s.arrived).2 = [] → ∃ taken, s.arrived = taken ++ s.net.inFifo ∧
    Unfinished s.net (framer.feed [] taken).1 ∧ s.packets = packets (framer.feed [] taken).2

theorem handleAll_keepPacket (fs : List (List Entry)) (ps : List NetworkPacket) :
    handleAll keepPacket fs ps = ps ++ fs.map fun f => decodeData (frameBytes f) := by
  induction fs generalizing ps with
  | nil => simp [handleAll]
  | cons f fs ih =>
    show handleAll keepPacket fs (keepPacket (decodeData (frameBytes f)) ps) = _
    rw [ih]
    simp [keepPacket]

/-- A call without a result reads the whole queue. -/
theorem Decodes.receive {s : Intake} (h : Decodes s) :
    Decodes s.receive ∧
      (announced (framer.feed [] s.arrived).2 = [] → s.receive.net.inFifo = []) := by
  have hcall : announced (framer.feed [] s.arrived).2 = [] → ∃ taken,
      s.arrived = taken ++ s.receive.net.inFifo ∧
      Unfinished s.receive.net (framer.feed [] taken).1 ∧
      s.receive.packets = packets (framer.feed [] taken).2 ∧ s.receive.net.inFifo = [] := by
    intro hann
    obtain ⟨taken, harr, hun, hps⟩ := h hann
    obtain ⟨taken', fs, harr', hun', hout, hpackets, hannounced, hok⟩ :=
      uartReceiveData_continues keepPacket harr hun s.packets rfl
    have hres : (uartReceiveData keepPacket s.net s.packets).1 = .ok := by
      by_contra hne
      rw [if_neg hne] at hannounced
      rw [harr', Framer.feed_append, announced_append, hannounced] at hann
      simp at hann
    refine ⟨taken', harr', hun', ?_, hok hres⟩
    rw [hpackets, ← hps, ← handleAll_keepPacket, ← hout]
    rfl
  constructor
  · intro hann
    obtain ⟨taken, harr, hun, hps, -⟩ := hcall hann
    exact ⟨taken, harr, hun, hps⟩
  · intro hann
    obtain ⟨-, -, -, -, hempty⟩ := hcall hann
    exact hempty

theorem Decodes.enqueue {s : Intake} (h : Decodes s) (e : Entry) : Decodes (s.enqueue e) := by
  intro hann
  have hann' : announced (framer.feed [] s.arrived).2 = [] := by
    change announced (framer.feed [] (s.arrived ++ [e])).2 = [] at hann
    rw [Framer.feed_append, announced_append] at hann
    exact (List.append_eq_nil_iff.mp hann).1
  obtain ⟨taken, harr, hun, hps⟩ := h hann'
  refine ⟨taken, ?_, hun.congr rfl rfl, hps⟩
  simp [Intake.enqueue, harr]

/-- The receiving end takes every input. -/
theorem run_intake : ∀ (is : List IntakeInput) (s : Intake), Decodes s →
    ∃ t, intakeMachine.run s is = some t ∧ t.arrived = s.arrived ++ arrivedEntries is ∧
      Decodes t := by
  intro is
  induction is with
  | nil => intro s h; exact ⟨s, rfl, by simp [arrivedEntries], h⟩
  | cons i is ih =>
    intro s h
    obtain ⟨u, hu, harr, hdec⟩ : ∃ u, intakeMachine.step s i = some u ∧
        u.arrived = s.arrived ++ arrivedEntries [i] ∧ Decodes u := by
      cases i with
      | arrive b => exact ⟨_, rfl, rfl, h.enqueue _⟩
      | lineError => exact ⟨_, rfl, rfl, h.enqueue _⟩
      | receive => exact ⟨_, rfl, (List.append_nil _).symm, h.receive.1⟩
    obtain ⟨t, ht, harr', hdec'⟩ := ih u hdec
    refine ⟨t, Machine.run_cons_eq_some.mpr ⟨u, hu, ht⟩, ?_, hdec'⟩
    have hcons : arrivedEntries (i :: is) = arrivedEntries [i] ++ arrivedEntries is := by
      rw [arrivedEntries, arrivedEntries, arrivedEntries, ← List.filterMap_append]
      rfl
    rw [harr', harr, hcons, List.append_assoc]

/-- **A stream without results, in any pieces, is decoded frame by frame.** -/
theorem intake_packets {n : Net} (hidx : n.packetIdx = 0) (hfifo : n.inFifo = [])
    {is : List IntakeInput} {es : List Entry} (hes : arrivedEntries is = es)
    (hann : announced (framer.feed [] es).2 = []) :
    ∃ r, intakeMachine.run (Intake.start n []) (is ++ [.receive]) = some r ∧
      r.packets = packets (framer.feed [] es).2 := by
  have hstart : Decodes (Intake.start n []) := by
    intro _
    exact ⟨[], rfl, ⟨hidx, by decide, rfl⟩, rfl⟩
  obtain ⟨t, ht, harr, hdec⟩ := run_intake is _ hstart
  rw [show (Intake.start n []).arrived = [] from hfifo, List.nil_append, hes] at harr
  obtain ⟨hdec', hempty⟩ := hdec.receive
  obtain ⟨taken, htaken, -, hps⟩ := hdec' (by show announced (framer.feed [] t.arrived).2 = []
                                              rw [harr]; exact hann)
  rw [hempty (by rw [harr]; exact hann), List.append_nil] at htaken
  refine ⟨t.receive, Machine.run_append_eq_some.mpr ⟨t, ht, rfl⟩, ?_⟩
  rw [hps, ← htaken]
  show packets (framer.feed [] t.arrived).2 = _
  rw [harr]

/-! ### Packets out of step -/

section Resync

variable {K : Type*} [Field K] [LinearOrder K] [FloorRing K]

/-- The entry of the mouse byte of a packet. -/
def mouseEntry (p : PlayerInfo K) : Entry := entry ((sentBytes p).getD 1 0)

/-- The entry of the flags of a packet. -/
def flagsEntry (p : PlayerInfo K) : Entry := entry ((sentBytes p).getD 2 0)

/-- How many entries at the end of a packet the receiver takes for the start of a
frame, if `k` entries before the packet are an unfinished frame: the packet first
completes that one. -/
def overhang (k : ℕ) (p : PlayerInfo K) : ℕ :=
  match k with
  | 0 => 0
  | 1 => if startsFrame (flagsEntry p) then 1 else 0
  | _ => if startsFrame (mouseEntry p) then 2 else if startsFrame (flagsEntry p) then 1 else 0

/-- How many entries are an unfinished frame at the end of a packet that has lost its
byte number `k`.  Without its header it is read as if the header had completed a
frame before. -/
def overhangOfLoss (k : ℕ) (p : PlayerInfo K) : ℕ := if k = 0 then overhang 2 p else 2

/-- The receiver is in step again two packets after the one that lost a byte. -/
def Realigns (k : ℕ) (p q₁ q₂ : PlayerInfo K) : Prop :=
  overhang (overhang (overhangOfLoss k p) q₁) q₂ = 0

instance (k : ℕ) (p q₁ q₂ : PlayerInfo K) : Decidable (Realigns k p q₁ q₂) :=
  inferInstanceAs (Decidable (_ = _))

/-- Two entries from the start of a frame. -/
theorem feed_pair (m f : Entry) : framer.feed [] [m, f] =
    (if startsFrame m then [m, f] else if startsFrame f then [f] else [], []) := by
  by_cases hm : startsFrame m <;> by_cases hf : startsFrame f <;>
    simp [Framer.feed, Framer.push, framer, dataBytes, hm, hf]

/-- A packet behind two entries of an unfinished frame. -/
theorem feed_two (a b h m f : Entry) : framer.feed [a, b] [h, m, f] =
    (if startsFrame m then [m, f] else if startsFrame f then [f] else [], [[a, b, h]]) := by
  rw [Framer.feed_cons, show framer.push [a, b] h = ([], some [a, b, h]) from rfl]
  rw [feed_pair]
  rfl

/-- A packet behind one entry of an unfinished frame. -/
theorem feed_one (a h m f : Entry) : framer.feed [a] [h, m, f] =
    (if startsFrame f then [f] else [], [[a, h, m]]) := by
  by_cases hf : startsFrame f <;> simp [Framer.feed, Framer.push, framer, dataBytes, hf]

/-- A header starts a frame, and no result has one among its letters. -/
theorem header_not_letter {g : ℕ} (h1 : 1 ≤ g) (h3 : g ≤ 3) :
    startsFrame (entry (dataConfirmPacket ||| BitVec.ofNat 8 (1 <<< (g - 1)))) = true ∧
      dataConfirmPacket ||| BitVec.ofNat 8 (1 <<< (g - 1)) ∉ uartWinGame ++ uartLoseGame := by
  obtain rfl | rfl | rfl : g = 1 ∨ g = 2 ∨ g = 3 := by omega
  · decide
  · decide
  · decide

/-- A frame with a header in it is no result. -/
theorem frameResult_of_header {h : Byte} (hh : h ∉ uartWinGame ++ uartLoseGame)
    {f : List Entry} (hf : entry h ∈ f) : frameResult (frameBytes f) = none := by
  have hmem : h ∈ frameBytes f := List.mem_map.mpr ⟨entry h, hf, by simp [entry]⟩
  unfold frameResult
  rw [if_neg fun he => hh (by rw [← he]; exact List.mem_append_left _ hmem),
    if_neg fun he => hh (by rw [← he]; exact List.mem_append_right _ hmem)]

/-- The entries of a packet. -/
theorem sentBytes_entries {p : PlayerInfo K} (hp : p.gunIndex ∈ [0, 1, 2]) :
    ∃ h : Byte, (sentBytes p).map entry = [entry h, mouseEntry p, flagsEntry p] ∧
      startsFrame (entry h) = true ∧ h ∉ uartWinGame ++ uartLoseGame := by
  obtain ⟨h1, h3⟩ := encodePacket_gunDown_le hp
  exact ⟨_, rfl, header_not_letter h1 h3⟩

/-- **A packet leaves its overhang**, and completes no result. -/
theorem feed_packet {p : PlayerInfo K} (hp : p.gunIndex ∈ [0, 1, 2]) {part : List Entry}
    (hpart : part.length < dataBytes) :
    (framer.feed part ((sentBytes p).map entry)).1.length = overhang part.length p ∧
      announced (framer.feed part ((sentBytes p).map entry)).2 = [] := by
  obtain ⟨h, hsent, hstarts, hletter⟩ := sentBytes_entries hp
  rw [hsent]
  match part, hpart with
  | [], _ =>
    have hframe : framer.Frame [entry h, mouseEntry p, flagsEntry p] := ⟨rfl, _, rfl, hstarts⟩
    have hres := frameResult_of_header hletter
      (f := [entry h, mouseEntry p, flagsEntry p]) (by simp)
    rw [Framer.feed_frame hframe]
    exact ⟨rfl, by simp [announced, hres]⟩
  | [a], _ =>
    have hres := frameResult_of_header hletter (f := [a, entry h, mouseEntry p]) (by simp)
    rw [feed_one]
    refine ⟨?_, by simp [announced, hres]⟩
    simp only [overhang, List.length_cons, List.length_nil]
    split <;> rfl
  | [a, b], _ =>
    have hres := frameResult_of_header hletter (f := [a, b, entry h]) (by simp)
    rw [feed_two]
    refine ⟨?_, by simp [announced, hres]⟩
    simp only [overhang, List.length_cons, List.length_nil]
    split
    · rfl
    · split <;> rfl

/-- A packet that has lost a byte, from the start of a frame. -/
theorem feed_damaged {p : PlayerInfo K} (hp : p.gunIndex ∈ [0, 1, 2]) {k : ℕ}
    (hk : k < dataBytes) :
    (framer.feed [] (((sentBytes p).eraseIdx k).map entry)).1.length = overhangOfLoss k p ∧
      announced (framer.feed [] (((sentBytes p).eraseIdx k).map entry)).2 = [] := by
  obtain ⟨h, hsent, hstarts, -⟩ := sentBytes_entries hp
  have herase : ((sentBytes p).eraseIdx k).map entry =
      [entry h, mouseEntry p, flagsEntry p].eraseIdx k := by rw [← hsent, List.eraseIdx_map]
  rw [herase]
  obtain rfl | rfl | rfl : k = 0 ∨ k = 1 ∨ k = 2 := by
    simp only [dataBytes] at hk
    omega
  · show (framer.feed [] [mouseEntry p, flagsEntry p]).1.length = overhang 2 p ∧
      announced (framer.feed [] [mouseEntry p, flagsEntry p]).2 = []
    rw [feed_pair]
    refine ⟨?_, rfl⟩
    simp only [overhang]
    split
    · rfl
    · split <;> rfl
  · show (framer.feed [] [entry h, flagsEntry p]).1.length = 2 ∧
      announced (framer.feed [] [entry h, flagsEntry p]).2 = []
    rw [feed_pair, if_pos hstarts]
    exact ⟨rfl, rfl⟩
  · show (framer.feed [] [entry h, mouseEntry p]).1.length = 2 ∧
      announced (framer.feed [] [entry h, mouseEntry p]).2 = []
    rw [feed_pair, if_pos hstarts]
    exact ⟨rfl, rfl⟩

theorem overhang_lt (k : ℕ) (p : PlayerInfo K) : overhang k p < dataBytes := by
  unfold overhang dataBytes
  split
  · omega
  · split <;> omega
  · split
    · omega
    · split <;> omega

/-- Out of step, a packet that does not shoot is decoded as another one. -/
theorem packets_out_of_step {q : PlayerInfo K} (hq : q.gunIndex = 0) (hlb : q.movm.lb = false)
    {part : List Entry} (hpart : part.length < dataBytes) (hne : part ≠ []) :
    packets (framer.feed part ((sentBytes q).map entry)).2 ≠ [encodePacket q] := by
  have hmem : q.gunIndex ∈ [0, 1, 2] := by simp [hq]
  have hsent : (sentBytes q).map entry = [entry 0xa9, mouseEntry q, flagsEntry q] := by
    have hgun := encodePacket_gunDown hmem
    rw [hq] at hgun
    show [entry (dataConfirmPacket ||| BitVec.ofNat 8 (1 <<< ((encodePacket q).gunDown - 1))),
      mouseEntry q, flagsEntry q] = _
    rw [hgun]
    rfl
  have hshoot : (encodePacket q).shootDown = false := hlb
  have hletter : (0xa9 : Byte) ∉ uartWinGame ++ uartLoseGame := by decide
  rw [hsent]
  intro h
  match part, hpart, hne with
  | [a], _, _ =>
    have hres := frameResult_of_header hletter (f := [a, entry 0xa9, mouseEntry q]) (by simp)
    rw [feed_one, packets_of_none (by simpa using hres), List.map_singleton,
      List.singleton_inj] at h
    -- the header is taken for the mouse byte, so the mouse byte would shoot
    have hmouse : (encodePacket q).mouseByte = 0xa9 := by rw [← h]; rfl
    rw [← h] at hshoot
    have hflags : (mouseEntry q).setWidth 8 = (0xa9 : Byte) := by
      show (entry (encodePacket q).mouseByte).setWidth 8 = (0xa9 : Byte)
      rw [hmouse]
      rfl
    simp [decodeData, frameBytes, hflags] at hshoot
  | [a, b], _, _ =>
    have hres := frameResult_of_header hletter (f := [a, b, entry 0xa9]) (by simp)
    rw [feed_two, packets_of_none (by simpa using hres), List.map_singleton,
      List.singleton_inj] at h
    -- the header is taken for the flags, with the one of the trigger set
    rw [← h] at hshoot
    simp [decodeData, frameBytes, entry] at hshoot

/-- The bytes on the line when the packet `p` loses its byte number `k`. -/
def lossyBytes (before : List (PlayerInfo K)) (p : PlayerInfo K) (k : ℕ)
    (after : List (PlayerInfo K)) : List Byte :=
  (before.map sentBytes).flatten ++ (sentBytes p).eraseIdx k ++ (after.map sentBytes).flatten

/-- The unfinished frame at the end of the second packet after the loss. -/
theorem feed_lossyBytes {before : List (PlayerInfo K)} {p q₁ q₂ : PlayerInfo K} {k : ℕ}
    (hk : k < dataBytes) (hguns : ∀ q ∈ before ++ [p, q₁, q₂], q.gunIndex ∈ [0, 1, 2]) :
    (framer.feed [] ((lossyBytes before p k [q₁, q₂]).map entry)).1.length =
        overhang (overhang (overhangOfLoss k p) q₁) q₂ ∧
      announced (framer.feed [] ((lossyBytes before p k [q₁, q₂]).map entry)).2 = [] := by
  obtain ⟨hfeed, -, hann⟩ := feed_sentBytes fun q hq => hguns q (List.mem_append_left _ hq)
  have hlt : overhangOfLoss k p < dataBytes := by
    unfold overhangOfLoss
    split
    · exact overhang_lt 2 p
    · decide
  obtain ⟨hlen, hann0⟩ := feed_damaged (hguns p (by simp)) hk
  obtain ⟨hlen1, hann1⟩ := feed_packet (hguns q₁ (by simp)) (hlen ▸ hlt)
  obtain ⟨hlen2, hann2⟩ := feed_packet (hguns q₂ (by simp)) (hlen1 ▸ overhang_lt _ q₁)
  have hbytes : (lossyBytes before p k [q₁, q₂]).map entry =
      (before.map sentBytes).flatten.map entry ++ (((sentBytes p).eraseIdx k).map entry ++
        ((sentBytes q₁).map entry ++ (sentBytes q₂).map entry)) := by
    simp [lossyBytes]
  rw [hbytes, Framer.feed_append, hfeed, Framer.feed_append, Framer.feed_append]
  refine ⟨by rw [hlen2, hlen1, hlen], ?_⟩
  simp [hann, hann0, hann1, hann2]

/-- **When the receiver finds back into step.**  One byte of the packet `p` is lost,
whatever was sent before it.  Whatever is sent after the two packets `q₁` and
`q₂` that follow, and in whatever pieces all this arrives, exactly the packets
sent are decoded from there on if and only if `p`, `q₁` and `q₂` realign the
receiver. -/
theorem resynchronises_iff (before : List (PlayerInfo K)) (p q₁ q₂ : PlayerInfo K) (k : ℕ)
    (hk : k < dataBytes) (hguns : ∀ q ∈ before ++ [p, q₁, q₂], q.gunIndex ∈ [0, 1, 2]) (n : Net)
    (hidx : n.packetIdx = 0) (hfifo : n.inFifo = []) :
    (∃ early, ∀ later : List (PlayerInfo K), (∀ q ∈ later, q.gunIndex ∈ [0, 1, 2]) →
        ∀ is, arrivedEntries is = (lossyBytes before p k (q₁ :: q₂ :: later)).map entry →
        ∃ r, intakeMachine.run (Intake.start n []) (is ++ [.receive]) = some r ∧
          r.packets = early ++ later.map encodePacket) ↔
      Realigns k p q₁ q₂ := by
  obtain ⟨hlen, hann⟩ := feed_lossyBytes hk hguns
  set head := (lossyBytes before p k [q₁, q₂]).map entry with hhead
  have hsplit : ∀ later : List (PlayerInfo K),
      (lossyBytes before p k (q₁ :: q₂ :: later)).map entry =
        head ++ (later.map sentBytes).flatten.map entry := by
    intro later
    simp [hhead, lossyBytes]
  constructor
  · rintro ⟨early, hearly⟩
    by_contra hout
    have hne : (framer.feed [] head).1 ≠ [] := by
      intro h
      rw [h] at hlen
      exact hout hlen.symm
    have hlt : (framer.feed [] head).1.length < dataBytes := hlen ▸ overhang_lt _ q₂
    -- nothing more is sent, or one packet of a player who stands still
    have hstill : (PlayerInfo.zero : PlayerInfo K).gunIndex ∈ [0, 1, 2] := by
      simp [PlayerInfo.zero]
    have hone : ([(PlayerInfo.zero : PlayerInfo K)].map sentBytes).flatten.map entry =
        (sentBytes (PlayerInfo.zero : PlayerInfo K)).map entry := by simp
    have hpackets : ∀ later : List (PlayerInfo K), (∀ q ∈ later, q.gunIndex ∈ [0, 1, 2]) →
        announced (framer.feed [] (head ++ (later.map sentBytes).flatten.map entry)).2 = [] →
        packets (framer.feed [] (head ++ (later.map sentBytes).flatten.map entry)).2 =
          early ++ later.map encodePacket := by
      intro later hlater hnone
      obtain ⟨is, his⟩ : ∃ is, arrivedEntries is =
          (lossyBytes before p k (q₁ :: q₂ :: later)).map entry :=
        ⟨(lossyBytes before p k (q₁ :: q₂ :: later)).map .arrive, by
          simp [arrivedEntries, List.filterMap_map]⟩
      obtain ⟨r, hr, hps⟩ := hearly later hlater is his
      obtain ⟨r', hr', hps'⟩ := intake_packets hidx hfifo (his.trans (hsplit later)) hnone
      rw [hr, Option.some.injEq] at hr'
      rw [← hps, hr', hps']
    obtain ⟨-, hann'⟩ := feed_packet hstill hlt
    have hempty := hpackets [] (by simp) (by simpa using hann)
    have hmore := hpackets [PlayerInfo.zero] (by simpa using hstill) (by
      rw [hone, Framer.feed_append, announced_append, hann, hann']
      rfl)
    simp only [List.map_nil, List.flatten_nil, List.append_nil] at hempty
    rw [hone, Framer.feed_append, packets_append, hempty, List.append_cancel_left_eq] at hmore
    exact packets_out_of_step (q := (PlayerInfo.zero : PlayerInfo K)) rfl rfl hlt hne hmore
  · intro hre
    have hnil : (framer.feed [] head).1 = [] := List.length_eq_zero_iff.mp (hlen.trans hre)
    refine ⟨packets (framer.feed [] head).2, fun later hlater is his => ?_⟩
    obtain ⟨hfeed, hps, hnone⟩ := feed_sentBytes hlater
    obtain ⟨r, hr, hrps⟩ := intake_packets hidx hfifo (his.trans (hsplit later)) (by
      rw [Framer.feed_append, announced_append, hann, hnil, hfeed, hnone]
      rfl)
    refine ⟨r, hr, ?_⟩
    rw [hrps, Framer.feed_append, packets_append, hnil, hfeed, hps]

/-- A player who turns the mouse far: its mouse byte looks like a header. -/
def spinner : PlayerInfo ℚ :=
  { PlayerInfo.zero with movm := { Controls.zero with mouseDesl := 21 / 16 } }

/-- A byte that is lost before two packets of a player who only walks. -/
theorem resynchronises_walker : ∃ early, ∀ later : List (PlayerInfo ℚ),
    (∀ q ∈ later, q.gunIndex ∈ [0, 1, 2]) →
    ∀ is, arrivedEntries is =
        (lossyBytes [walker 1] spinner 1 (walker 1 :: walker 2 :: later)).map entry →
      ∃ r, intakeMachine.run (Intake.start Net.start []) (is ++ [.receive]) = some r ∧
        r.packets = early ++ later.map encodePacket :=
  (resynchronises_iff [walker 1] spinner (walker 1) (walker 2) 1 (by decide)
    (by simp [walker, spinner, PlayerInfo.zero]) Net.start rfl rfl).mpr (by decide +kernel)

/-- The packets of a player who keeps turning after a mouse byte is lost. -/
def lossySpin : List IntakeInput :=
  (lossyBytes [] spinner 1 (List.replicate 6 spinner)).map .arrive ++ [.receive]

/-- None of them is decoded as it was sent. -/
theorem lossySpin_lost : ∃ r, intakeMachine.run (Intake.start Net.start []) lossySpin = some r ∧
    r.packets.length = 6 ∧ encodePacket spinner ∉ r.packets :=
  ⟨_, rfl, by decide +kernel, by decide +kernel⟩

end Resync

end OperationMinix
