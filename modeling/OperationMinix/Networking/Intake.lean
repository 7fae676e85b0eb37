import OperationMinix.Networking.Transport

/-!
# What the receiver makes of a damaged stream

The interrupt handler hands line errors to the receive queue as entries of their
own.  The handshake looks at every entry it reads; the loop of `uart_receive_data`
looks only at the first entry of a frame, and never at a frame as a whole.

A frame that is complete is compared with `"WIN"` and `"LOS"`, and if it is
neither it is decoded.  The model of the loop keeps the bytes of the unfinished
frame alone.  To speak of frames that are long past, the machine below keeps a
`Trail` beside the loop, and `trackEntries_spec` says that the two agree.

## Main definitions

* `Trail`, `trackEntries` — the entries behind the bytes of the loop.
* `Intake`, `intakeMachine` — arrivals and calls of `uart_receive_data`, in any order.

## Main results

* `markerFree_iff` — an error mark stays out of the frames exactly on the runs that
  read none inside a frame.
* `headersOnly_iff` — only headers start decoded frames exactly on the runs in which
  what starts like a result is one.
-/

namespace OperationMinix

open Runs

/-! ### The entries behind the bytes -/

/-- The entries whose bytes the loop has stored and used. -/
structure Trail where
  /-- Behind the static `bytes`, up to `packet_idx`. -/
  slots : List Entry
  /-- The frames compared with `"WIN"` and `"LOS"`, oldest first. -/
  compared : List (List Entry)
  /-- The frames passed to `decode_data`, oldest first. -/
  decoded : List (List Entry)
  deriving DecidableEq, Repr

/-- The loop of `uart_receive_data`, as far as the trail goes. -/
def trackEntries : List Entry → Trail → Trail
  | [], t => t
  | e :: es, t =>
    match framer.push t.slots e with
    | (part, none) => trackEntries es { t with slots := part }
    | (part, some f) =>
      -- the loop returns at a result
      if frameResult (frameBytes f) = none then
        trackEntries es
          { slots := part, compared := t.compared ++ [f], decoded := t.decoded ++ [f] }
      else { t with slots := part, compared := t.compared ++ [f] }

/-- What a packet does here: it is remembered. -/
def keepPacket (pkt : NetworkPacket) (ps : List NetworkPacket) : List NetworkPacket := ps ++ [pkt]

/-- The receiving end: `uart_receive_data` with its queue, and what it has done. -/
structure Intake where
  net : Net
  /-- The packets decoded so far, oldest first. -/
  packets : List NetworkPacket
  trail : Trail
  /-- The entries that have arrived, oldest first. -/
  arrived : List Entry
  deriving DecidableEq, Repr

/-- What happens at the receiving end. -/
inductive IntakeInput where
  | arrive (b : Byte)
  /-- `uart_ih` reports a line error. -/
  | lineError
  /-- A call of `uart_receive_data`. -/
  | receive
  deriving DecidableEq, Repr

/-- An entry is pushed on the receive queue. -/
def Intake.enqueue (s : Intake) (e : Entry) : Intake :=
  { s with net := { s.net with inFifo := s.net.inFifo ++ [e] }, arrived := s.arrived ++ [e] }

/-- A call of `uart_receive_data`. -/
def Intake.receive (s : Intake) : Intake :=
  { s with
    net := (uartReceiveData keepPacket s.net s.packets).2.1
    packets := (uartReceiveData keepPacket s.net s.packets).2.2
    trail := trackEntries s.net.inFifo s.trail }

/-- The receiving end, step by step. -/
def intakeMachine : Machine Intake IntakeInput where
  step s
    | .arrive b => some (s.enqueue (entry b))
    | .lineError => some (s.enqueue uartErrorCode)
    | .receive => some s.receive

/-- The receiving end with the entries `slots` in the unfinished frame. -/
def Intake.start (n : Net) (slots : List Entry) : Intake :=
  { net := n, packets := [], trail := { slots := slots, compared := [], decoded := [] }
    arrived := n.inFifo }

/-! ### The trail follows the loop -/

section

variable {t : Trail} {e : Entry} {es part f : List Entry}

theorem trackEntries_none (h : framer.push t.slots e = (part, none)) :
    trackEntries (e :: es) t = trackEntries es { t with slots := part } := by
  rw [trackEntries, h]

theorem trackEntries_packet (h : framer.push t.slots e = (part, some f))
    (hf : frameResult (frameBytes f) = none) :
    trackEntries (e :: es) t = trackEntries es
      { slots := part, compared := t.compared ++ [f], decoded := t.decoded ++ [f] } := by
  rw [trackEntries, h]
  exact if_pos hf

theorem trackEntries_result (h : framer.push t.slots e = (part, some f))
    (hf : frameResult (frameBytes f) ≠ none) :
    trackEntries (e :: es) t = { t with slots := part, compared := t.compared ++ [f] } := by
  rw [trackEntries, h]
  exact if_neg hf

end

/-- The three things an entry can do to an unfinished frame. -/
theorem framer_push_cases (part : List Entry) (e : Entry) :
    part = [] ∧ startsFrame e = false ∧ framer.push part e = ([], none) ∨
    (part = [] → startsFrame e = true) ∧
      (part.length + 1 = dataBytes ∧ framer.push part e = ([], some (part ++ [e])) ∨
        part.length + 1 ≠ dataBytes ∧ framer.push part e = (part ++ [e], none)) := by
  by_cases hskip : part = [] ∧ startsFrame e = false
  · exact Or.inl ⟨hskip.1, hskip.2, if_pos hskip⟩
  · have hstarts : part = [] → startsFrame e = true := by
      intro hp
      simpa using mt (And.intro hp) hskip
    apply Or.inr
    refine ⟨hstarts, ?_⟩
    by_cases hlast : part.length + 1 = dataBytes
    · exact Or.inl ⟨hlast, Framer.push_finished hstarts hlast⟩
    · exact Or.inr ⟨hlast, Framer.push_unfinished hstarts hlast⟩

/-- The trail and the loop agree: on the unfinished frame, and on the packets. -/
structure Agrees (n : Net) (ps : List NetworkPacket) (t : Trail) : Prop where
  unfinished : Unfinished n t.slots
  packets : ps = t.decoded.map fun f => decodeData (frameBytes f)

/-- **The trail follows the loop of `uart_receive_data`.** -/
theorem trackEntries_spec : ∀ (es : List Entry) (n : Net) (ps : List NetworkPacket) (t : Trail),
    Agrees n ps t →
    Agrees (receiveEntries keepPacket es n ps).2.1 (receiveEntries keepPacket es n ps).2.2
      (trackEntries es t) := by
  intro es
  induction es with
  | nil => intro n ps t h; exact ⟨h.unfinished.congr rfl rfl, h.packets⟩
  | cons e es ih =>
    intro n ps t ⟨hun, hps⟩
    have hnil : n.packetIdx = 0 ↔ t.slots = [] := by rw [hun.idx, List.length_eq_zero_iff]
    unfold receiveEntries
    rcases framer_push_cases t.slots e with ⟨hp, hs, hpush⟩ | ⟨hs, ⟨hlast, hpush⟩ | ⟨hlast, hpush⟩⟩
    · rw [if_pos ⟨hnil.mpr hp, hs⟩, trackEntries_none hpush]
      refine ih n ps _ ⟨?_, hps⟩
      rw [hp] at hun
      exact hun
    · have hbytes : (n.bytes.setIfInBounds n.packetIdx (e.setWidth 8)).toList =
          frameBytes (t.slots ++ [e]) := by
        rw [← hun.set e, hlast, List.take_of_length_le (by rw [Vector.length_toList]; rfl)]
      have hnone : ∀ m : Net, m.packetIdx = 0 → Unfinished m [] :=
        fun m h0 => ⟨h0, by decide, rfl⟩
      rw [if_neg fun h => by simp [hs (hnil.mp h.1)] at h]
      dsimp only
      rw [if_pos (by rw [hun.idx]; exact hlast), hbytes]
      cases hres : frameResult (frameBytes (t.slots ++ [e])) with
      | some res =>
        rw [trackEntries_result hpush (by simp [hres])]
        exact ⟨hnone _ rfl, hps⟩
      | none =>
        rw [trackEntries_packet hpush hres]
        refine ih _ _ _ ⟨hnone _ rfl, ?_⟩
        simp [keepPacket, hps]
    · rw [if_neg fun h => by simp [hs (hnil.mp h.1)] at h, trackEntries_none hpush]
      dsimp only
      rw [if_neg (by rw [hun.idx]; exact hlast)]
      refine ih _ _ _ ⟨⟨?_, ?_, ?_⟩, hps⟩
      · simp [hun.idx]
      · have := hun.lt
        simp only [List.length_append, List.length_singleton]
        omega
      · rw [List.length_append, List.length_singleton]
        exact hun.set e

/-- A call of `uart_receive_data` and its trail. -/
theorem Agrees.receive {s : Intake} (h : Agrees s.net s.packets s.trail) :
    Agrees s.receive.net s.receive.packets s.receive.trail := by
  have hloop := trackEntries_spec s.net.inFifo { s.net with packetTries := s.net.packetTries + 1 }
    s.packets s.trail ⟨h.unfinished.congr rfl rfl, h.packets⟩
  unfold Intake.receive uartReceiveData
  generalize receiveEntries keepPacket s.net.inFifo
    { s.net with packetTries := s.net.packetTries + 1 } s.packets = out at *
  obtain ⟨res, m, ps⟩ := out
  cases res with
  | winGameErr => exact hloop
  | loseGameErr => exact hloop
  | ok =>
    dsimp only
    split
    · exact ⟨hloop.unfinished.congr rfl rfl, hloop.packets⟩
    · exact hloop

/-- The trail and the receiving end agree after every step. -/
theorem Agrees.step {s t : Intake} {i : IntakeInput} (h : Agrees s.net s.packets s.trail)
    (ht : intakeMachine.step s i = some t) : Agrees t.net t.packets t.trail := by
  cases i with
  | arrive b =>
    cases ht
    exact ⟨h.unfinished.congr rfl rfl, h.packets⟩
  | lineError =>
    cases ht
    exact ⟨h.unfinished.congr rfl rfl, h.packets⟩
  | receive =>
    cases ht
    exact h.receive

/-! ### Error marks -/

/-- No error mark is among the bytes of the loop, past or present. -/
structure MarkerFree (t : Trail) : Prop where
  slots : uartErrorCode ∉ t.slots
  compared : ∀ f ∈ t.compared, uartErrorCode ∉ f
  decoded : ∀ f ∈ t.decoded, uartErrorCode ∉ f

/-- No error mark stands in the entries `es` where a frame has been started, up to
the first result. -/
def MarkersOutside (part es : List Entry) : Prop :=
  ∀ xs ys, es = xs ++ uartErrorCode :: ys → announced (framer.feed part xs).2 = [] →
    (framer.feed part xs).1 = []

/-- The call reads no error mark inside a frame. -/
def ReadsNoMarkerInside (s : Intake) (i : IntakeInput) : Prop :=
  i = .receive → MarkersOutside s.trail.slots s.net.inFifo

/-- What stands behind an entry that announces nothing. -/
theorem markersOutside_cons {part part' : List Entry} {e : Entry} {o : Option (List Entry)}
    (hpush : framer.push part e = (part', o)) (ho : announced o.toList = []) (es : List Entry) :
    MarkersOutside part (e :: es) ↔
      (e = uartErrorCode → part = []) ∧ MarkersOutside part' es := by
  constructor
  · intro h
    constructor
    · intro he
      exact h [] es (by rw [he]; rfl) rfl
    · intro xs ys hes hann
      have := h (e :: xs) ys (by rw [hes]; rfl)
      rw [Framer.feed_cons, hpush, announced_append, ho] at this
      exact this hann
  · rintro ⟨he, h⟩ xs ys hes hann
    cases xs with
    | nil => exact he (List.cons.inj hes).1
    | cons x xs =>
      obtain ⟨rfl, rfl⟩ := List.cons.inj hes
      rw [Framer.feed_cons, hpush, announced_append, ho] at hann
      rw [Framer.feed_cons, hpush]
      exact h xs ys rfl hann

/-- What stands behind a result does not count. -/
theorem markersOutside_result {part part' f : List Entry} {e : Entry}
    (hpush : framer.push part e = (part', some f)) (hf : frameResult (frameBytes f) ≠ none)
    (es : List Entry) : MarkersOutside part (e :: es) ↔ (e = uartErrorCode → part = []) := by
  constructor
  · intro h he
    exact h [] es (by rw [he]; rfl) rfl
  · intro he xs ys hes hann
    cases xs with
    | nil => exact he (List.cons.inj hes).1
    | cons x xs =>
      obtain ⟨rfl, hes⟩ := List.cons.inj hes
      rw [Framer.feed_cons, hpush, announced_append] at hann
      have := (List.append_eq_nil_iff.mp hann).1
      simp [announced, hf] at this

/-- An error mark cannot start a frame. -/
theorem startsFrame_uartErrorCode : startsFrame uartErrorCode = false := by decide

/-- A mark that has been stored stays in the trail. -/
theorem trackEntries_marked : ∀ (es : List Entry) (t : Trail), ¬ MarkerFree t →
    ¬ MarkerFree (trackEntries es t) := by
  intro es
  induction es with
  | nil => intro t h; exact h
  | cons e es ih =>
    intro t h
    rcases framer_push_cases t.slots e with ⟨hp, -, hpush⟩ | ⟨-, ⟨-, hpush⟩ | ⟨-, hpush⟩⟩
    · rw [trackEntries_none hpush]
      apply ih
      intro h'
      exact h ⟨by simp [hp], h'.compared, h'.decoded⟩
    · by_cases hres : frameResult (frameBytes (t.slots ++ [e])) = none
      · rw [trackEntries_packet hpush hres]
        apply ih
        intro h'
        refine h ⟨fun hm => ?_, fun f hf => ?_, fun f hf => ?_⟩
        · exact h'.compared (t.slots ++ [e]) (by simp) (List.mem_append_left _ hm)
        · exact h'.compared f (List.mem_append_left _ hf)
        · exact h'.decoded f (List.mem_append_left _ hf)
      · rw [trackEntries_result hpush hres]
        intro h'
        refine h ⟨fun hm => ?_, fun f hf => ?_, h'.decoded⟩
        · exact h'.compared (t.slots ++ [e]) (by simp) (List.mem_append_left _ hm)
        · exact h'.compared f (List.mem_append_left _ hf)
    · rw [trackEntries_none hpush]
      apply ih
      intro h'
      exact h ⟨fun hm => h'.slots (List.mem_append_left _ hm), h'.compared, h'.decoded⟩

/-- A mark that is read inside a frame is stored. -/
theorem trackEntries_stores {t : Trail} {e : Entry}
    (hpush : t.slots.length + 1 = dataBytes ∧ framer.push t.slots e = ([], some (t.slots ++ [e])) ∨
      t.slots.length + 1 ≠ dataBytes ∧ framer.push t.slots e = (t.slots ++ [e], none))
    (hmark : uartErrorCode ∈ t.slots ++ [e]) (es : List Entry) :
    ¬ MarkerFree (trackEntries (e :: es) t) := by
  rcases hpush with ⟨-, hpush⟩ | ⟨-, hpush⟩
  · by_cases hres : frameResult (frameBytes (t.slots ++ [e])) = none
    · rw [trackEntries_packet hpush hres]
      exact trackEntries_marked es _ fun h => h.compared _ (by simp) hmark
    · rw [trackEntries_result hpush hres]
      exact fun h => h.compared _ (by simp) hmark
  · rw [trackEntries_none hpush]
    exact trackEntries_marked es _ fun h => h.slots hmark

/-- **One call keeps the marks out exactly when it reads none inside a frame.** -/
theorem trackEntries_markerFree : ∀ (es : List Entry) (t : Trail), MarkerFree t →
    (MarkerFree (trackEntries es t) ↔ MarkersOutside t.slots es) := by
  intro es
  induction es with
  | nil =>
    intro t h
    refine iff_of_true h ?_
    intro xs ys hes
    simp at hes
  | cons e es ih =>
    intro t h
    rcases framer_push_cases t.slots e with ⟨hp, -, hpush⟩ | ⟨hs, hpush⟩
    · -- an entry between frames is not stored
      rw [trackEntries_none hpush, markersOutside_cons hpush rfl]
      rw [ih { t with slots := [] } ⟨by simp, h.compared, h.decoded⟩]
      simp [hp]
    · have hin : e = uartErrorCode → t.slots ≠ [] := by
        intro he hp
        have := hs hp
        rw [he, startsFrame_uartErrorCode] at this
        cases this
      by_cases he : e = uartErrorCode
      · refine iff_of_false (trackEntries_stores hpush (by simp [he]) es) fun hout => ?_
        exact hin he (hout [] es (by rw [he]; rfl) rfl)
      · have hfree : uartErrorCode ∉ t.slots ++ [e] := by
          simp [h.slots, Ne.symm he]
        have hmem : ∀ fs : List (List Entry), (∀ f ∈ fs, uartErrorCode ∉ f) →
            ∀ f ∈ fs ++ [t.slots ++ [e]], uartErrorCode ∉ f := by
          intro fs hfs f hf
          rcases List.mem_append.mp hf with hf | hf
          · exact hfs f hf
          · rw [List.mem_singleton.mp hf]
            exact hfree
        rcases hpush with ⟨-, hpush⟩ | ⟨-, hpush⟩
        · by_cases hres : frameResult (frameBytes (t.slots ++ [e])) = none
          · rw [trackEntries_packet hpush hres]
            rw [markersOutside_cons hpush (by simp [announced, hres])]
            rw [ih _ ⟨by simp, hmem _ h.compared, hmem _ h.decoded⟩]
            simp [he]
          · rw [trackEntries_result hpush hres, markersOutside_result hpush hres]
            exact iff_of_true ⟨by simp, hmem _ h.compared, h.decoded⟩ fun h => absurd h he
        · rw [trackEntries_none hpush, markersOutside_cons hpush rfl]
          rw [ih { t with slots := t.slots ++ [e] } ⟨hfree, h.compared, h.decoded⟩]
          simp [he]

/-- **Error marks become data exactly when one is read inside a frame.**  In every
run from any unfinished frame without a mark, no mark is ever among the bytes
that are stored, compared and decoded if and only if no call reads a mark where a
frame has been started. -/
theorem markerFree_iff (n : Net) (slots : List Entry) (hun : Unfinished n slots)
    (hslots : uartErrorCode ∉ slots) (is : List IntakeInput) :
    intakeMachine.Always
        (fun s => Agrees s.net s.packets s.trail ∧ MarkerFree s.trail) (Intake.start n slots) is ↔
      intakeMachine.Along ReadsNoMarkerInside (Intake.start n slots) is := by
  refine Machine.always_iff_along (fun _ h => h) ?_ ?_ is _
    ⟨⟨hun, rfl⟩, ⟨hslots, by simp [Intake.start], by simp [Intake.start]⟩⟩
  · rintro s i t ⟨hag, hfree⟩ hC ht
    refine ⟨hag.step ht, ?_⟩
    cases i with
    | arrive b => cases ht; exact hfree
    | lineError => cases ht; exact hfree
    | receive =>
      cases ht
      exact (trackEntries_markerFree _ _ hfree).mpr (hC rfl)
  · rintro s i ⟨-, hfree⟩ hC
    obtain ⟨rfl, hin⟩ : i = .receive ∧ ¬ MarkersOutside s.trail.slots s.net.inFifo := by
      simpa [ReadsNoMarkerInside] using hC
    exact ⟨s.receive, rfl, fun h => hin ((trackEntries_markerFree _ _ hfree).mp h.2)⟩

/-- A line error between two frames. -/
def noisyGap : List IntakeInput :=
  [.lineError, .arrive 0xa9, .arrive 0x00, .arrive 0x01, .receive]

/-- A mark between frames is dropped. -/
theorem markerFree_noisyGap : intakeMachine.Always
    (fun s => Agrees s.net s.packets s.trail ∧ MarkerFree s.trail) (Intake.start Net.start [])
    noisyGap := by
  refine (markerFree_iff Net.start [] ⟨rfl, by decide, rfl⟩ (by decide) noisyGap).mpr ?_
  refine ⟨nofun, nofun, nofun, nofun, fun _ => ?_, trivial⟩
  show MarkersOutside [] [uartErrorCode, entry 0xa9, entry 0x00, entry 0x01]
  apply (markersOutside_cons (o := none) rfl rfl _).mpr
  refine ⟨fun _ => rfl, fun xs ys hes hann => ?_⟩
  have hmem : uartErrorCode ∈ [entry 0xa9, entry 0x00, entry 0x01] := by
    rw [hes]
    exact List.mem_append_right _ List.mem_cons_self
  exact absurd hmem (by decide)

/-- A line error behind the header of a frame. -/
def noisyFrame : List IntakeInput := [.arrive 0xa9, .lineError, .arrive 0x00, .receive]

/-- The mark is decoded, as the mouse byte `0xff`. -/
theorem decodes_marker : ∃ s, intakeMachine.run (Intake.start Net.start []) noisyFrame = some s ∧
    (∃ f ∈ s.trail.decoded, uartErrorCode ∈ f) ∧ s.packets.map (·.mouseByte) = [0xff] :=
  ⟨_, rfl, by decide, by decide⟩

/-! ### Frames that are not packets -/

/-- A byte that passes the test for a header. -/
def isHeader (b : Byte) : Prop := b &&& dataConfirmMask = dataConfirmPacket

instance (b : Byte) : Decidable (isHeader b) := inferInstanceAs (Decidable (_ = _))

/-- A frame that starts like a result, with `'W'` or `'L'`. -/
def LetterFrame (f : List Entry) : Prop :=
  (frameBytes f).head? = some 0x57 ∨ (frameBytes f).head? = some 0x4c

instance (f : List Entry) : Decidable (LetterFrame f) := inferInstanceAs (Decidable (_ ∨ _))

/-- Every frame passed to `decode_data` starts with a header. -/
def HeadersOnly (t : Trail) : Prop :=
  ∀ f ∈ t.decoded, ∃ b ∈ (frameBytes f).head?, isHeader b

/-- The frames the call reads are results if they start like results, up to the
first result. -/
def ReadsWholeResults (s : Intake) (i : IntakeInput) : Prop :=
  i = .receive → ∀ fs f gs, (framer.feed s.trail.slots s.net.inFifo).2 = fs ++ f :: gs →
    announced fs = [] → LetterFrame f → frameResult (frameBytes f) ≠ none

/-- The unfinished frame, if there is one, starts with an entry that can start one. -/
def Started (part : List Entry) : Prop := ∀ e ∈ part.head?, startsFrame e = true

/-- The frames of a call up to the first result. -/
def beforeResult (fs : List (List Entry)) : List (List Entry) :=
  fs.takeWhile fun f => frameResult (frameBytes f) = none

/-- **What one call decodes.** -/
theorem trackEntries_decoded : ∀ (es : List Entry) (t : Trail),
    (trackEntries es t).decoded = t.decoded ++ beforeResult (framer.feed t.slots es).2 := by
  intro es
  induction es with
  | nil => intro t; simp [trackEntries, Framer.feed, beforeResult]
  | cons e es ih =>
    intro t
    rw [Framer.feed_cons]
    rcases framer_push_cases t.slots e with ⟨-, -, hpush⟩ | ⟨-, ⟨-, hpush⟩ | ⟨-, hpush⟩⟩
    · rw [trackEntries_none hpush, ih, hpush]
      rfl
    · by_cases hres : frameResult (frameBytes (t.slots ++ [e])) = none
      · rw [trackEntries_packet hpush hres, ih, hpush]
        simp [beforeResult, hres]
      · rw [trackEntries_result hpush hres, hpush]
        simp [beforeResult, hres]
    · rw [trackEntries_none hpush, ih, hpush]
      rfl

theorem mem_beforeResult {fs : List (List Entry)} {f : List Entry} :
    f ∈ beforeResult fs ↔ ∃ gs hs, fs = gs ++ f :: hs ∧ announced gs = [] ∧
      frameResult (frameBytes f) = none := by
  induction fs with
  | nil => simp [beforeResult]
  | cons g fs ih =>
    constructor
    · intro hf
      by_cases hg : frameResult (frameBytes g) = none
      · rw [beforeResult, List.takeWhile_cons_of_pos (by simpa using hg)] at hf
        rcases List.mem_cons.mp hf with rfl | hf
        · exact ⟨[], fs, rfl, rfl, hg⟩
        · obtain ⟨gs, hs, rfl, hann, hnone⟩ := ih.mp hf
          exact ⟨g :: gs, hs, rfl, by simpa [announced, hg] using hann, hnone⟩
      · rw [beforeResult, List.takeWhile_cons_of_neg (by simpa using hg)] at hf
        cases hf
    · rintro ⟨gs, hs, hfs, hann, hnone⟩
      cases gs with
      | nil =>
        obtain ⟨rfl, rfl⟩ := List.cons.inj hfs
        rw [beforeResult, List.takeWhile_cons_of_pos (by simpa using hnone)]
        exact List.mem_cons_self
      | cons g' gs =>
        obtain ⟨rfl, rfl⟩ := List.cons.inj hfs
        have hg : frameResult (frameBytes g) = none := by
          by_contra hg
          obtain ⟨res, hres⟩ := Option.ne_none_iff_exists'.mp hg
          simp [announced, hres] at hann
        have hann' : announced gs = [] := by simpa [announced, hg] using hann
        rw [beforeResult, List.takeWhile_cons_of_pos (by simpa using hg)]
        exact List.mem_cons_of_mem g (ih.mpr ⟨gs, hs, rfl, hann', hnone⟩)

/-- A frame with a first entry that can start one has a header for its first byte,
or a letter. -/
theorem header_iff_not_letter {f : List Entry} (hne : f ≠ []) (hf : Started f) :
    (∃ b ∈ (frameBytes f).head?, isHeader b) ↔ ¬ LetterFrame f := by
  cases f with
  | nil => exact absurd rfl hne
  | cons e f =>
    have hstarts : e &&& entry dataConfirmMask = entry dataConfirmPacket ∨ e = entry 0x57 ∨
        e = entry 0x4c := by simpa [startsFrame] using hf e rfl
    simp only [frameBytes, List.map_cons, List.head?_cons, Option.mem_some_iff, LetterFrame,
      Option.some.injEq, exists_eq_left', not_or]
    constructor
    · intro hb
      constructor
      · intro h
        rw [h] at hb
        revert hb
        decide
      · intro h
        rw [h] at hb
        revert hb
        decide
    · rintro ⟨hW, hL⟩
      rcases hstarts with h | rfl | rfl
      · have := congrArg (BitVec.setWidth 8) h
        simpa [isHeader, entry] using this
      · exact absurd (by decide) hW
      · exact absurd (by decide) hL

/-- What the framer has started and completed starts as a frame does. -/
theorem feed_started : ∀ (es part : List Entry), Started part →
    Started (framer.feed part es).1 ∧ ∀ f ∈ (framer.feed part es).2, f ≠ [] ∧ Started f := by
  intro es
  induction es with
  | nil => intro part h; exact ⟨h, by simp [Framer.feed]⟩
  | cons e es ih =>
    intro part h
    have hsnoc : (part = [] → startsFrame e = true) → Started (part ++ [e]) := by
      intro hs
      cases part with
      | nil => simpa [Started] using hs rfl
      | cons x xs => exact h
    rw [Framer.feed_cons]
    rcases framer_push_cases part e with ⟨-, -, hpush⟩ | ⟨hs, ⟨-, hpush⟩ | ⟨-, hpush⟩⟩
    · rw [hpush]
      exact ih [] (by simp [Started])
    · rw [hpush]
      obtain ⟨hpart, hfs⟩ := ih [] (by simp [Started])
      refine ⟨hpart, fun f hf => ?_⟩
      rcases List.mem_append.mp hf with hf | hf
      · rw [Option.mem_toList.mp hf |> Option.some.inj |>.symm]
        exact ⟨by simp, hsnoc hs⟩
      · exact hfs f hf
    · rw [hpush]
      exact ih _ (hsnoc hs)

/-- The unfinished frame is what the framer has left, or it is empty after a
result. -/
theorem trackEntries_started : ∀ (es : List Entry) (t : Trail), Started t.slots →
    Started (trackEntries es t).slots := by
  intro es
  induction es with
  | nil => intro t h; exact h
  | cons e es ih =>
    intro t h
    have hpart := (feed_started [e] t.slots h).1
    rw [Framer.feed_cons] at hpart
    rw [trackEntries]
    generalize framer.push t.slots e = out at *
    obtain ⟨part, _ | f⟩ := out
    · exact ih _ hpart
    · dsimp only
      split
      · exact ih _ hpart
      · exact hpart

/-- **What is no header drives the replica exactly when it starts like a result and is
none.**  In every run from the start of a frame, every frame that is decoded
starts with a header if and only if every frame that is read and starts with
`'W'` or `'L'` is a result. -/
theorem headersOnly_iff (n : Net) (hidx : n.packetIdx = 0) (is : List IntakeInput) :
    intakeMachine.Always
        (fun s => Agrees s.net s.packets s.trail ∧ HeadersOnly s.trail) (Intake.start n []) is ↔
      intakeMachine.Along ReadsWholeResults (Intake.start n []) is := by
  have hcall : ∀ s : Intake, Started s.trail.slots → HeadersOnly s.trail →
      (HeadersOnly s.receive.trail ↔ ReadsWholeResults s .receive) := by
    intro s hs hheads
    have hframes := (feed_started s.net.inFifo s.trail.slots hs).2
    have hdecoded := trackEntries_decoded s.net.inFifo s.trail
    constructor
    · rintro h - fs f gs hcut hann hletter hnone
      have hmem : f ∈ s.receive.trail.decoded := by
        show f ∈ (trackEntries s.net.inFifo s.trail).decoded
        rw [hdecoded]
        exact List.mem_append_right _ (mem_beforeResult.mpr ⟨fs, gs, hcut, hann, hnone⟩)
      obtain ⟨hne, hstarted⟩ := hframes f (by rw [hcut]; simp)
      exact (header_iff_not_letter hne hstarted).mp (h f hmem) hletter
    · intro h f hf
      change f ∈ (trackEntries s.net.inFifo s.trail).decoded at hf
      rw [hdecoded] at hf
      rcases List.mem_append.mp hf with hf | hf
      · exact hheads f hf
      · obtain ⟨fs, gs, hcut, hann, hnone⟩ := mem_beforeResult.mp hf
        obtain ⟨hne, hstarted⟩ := hframes f (by rw [hcut]; simp)
        exact (header_iff_not_letter hne hstarted).mpr fun hl => h rfl fs f gs hcut hann hl hnone
  have hun : Unfinished n [] := ⟨hidx, by decide, rfl⟩
  refine Machine.always_iff_along
    (J := fun s => Agrees s.net s.packets s.trail ∧ HeadersOnly s.trail ∧ Started s.trail.slots)
    (fun _ h => ⟨h.1, h.2.1⟩) ?_ ?_ is _ ⟨⟨hun, rfl⟩, ?_, ?_⟩
  · rintro s i t ⟨hag, hheads, hs⟩ hC ht
    refine ⟨hag.step ht, ?_⟩
    cases i with
    | arrive b => cases ht; exact ⟨hheads, hs⟩
    | lineError => cases ht; exact ⟨hheads, hs⟩
    | receive =>
      cases ht
      exact ⟨(hcall s hs hheads).mpr hC, trackEntries_started _ _ hs⟩
  · rintro s i ⟨-, hheads, hs⟩ hC
    cases i with
    | arrive b => exact absurd nofun hC
    | lineError => exact absurd nofun hC
    | receive => exact ⟨s.receive, rfl, fun h => hC ((hcall s hs hheads).mp h.2)⟩
  · simp [HeadersOnly, Intake.start]
  · simp [Started, Intake.start]

/-- A packet, and the announcement that the other peer has won. -/
def lastPacket : List IntakeInput :=
  [.arrive 0xa9, .arrive 0x00, .arrive 0x01, .arrive 0x57, .arrive 0x49, .arrive 0x4e, .receive]

/-- Only the packet is decoded. -/
theorem headersOnly_lastPacket : intakeMachine.Always
    (fun s => Agrees s.net s.packets s.trail ∧ HeadersOnly s.trail) (Intake.start Net.start [])
    lastPacket := by
  refine (headersOnly_iff Net.start rfl lastPacket).mpr ?_
  refine ⟨nofun, nofun, nofun, nofun, nofun, nofun, fun _ fs f gs hcut _ => ?_, trivial⟩
  have hframes : (framer.feed [] [entry 0xa9, entry 0x00, entry 0x01, entry 0x57, entry 0x49,
      entry 0x4e]).2 = fs ++ f :: gs := hcut
  have hresult : ∀ f ∈ (framer.feed [] [entry 0xa9, entry 0x00, entry 0x01, entry 0x57, entry 0x49,
      entry 0x4e]).2, LetterFrame f → frameResult (frameBytes f) ≠ none := by decide
  exact hresult f (by rw [hframes]; simp)

/-- A frame that starts like `"WIN"`. -/
def wrongResult : List IntakeInput := [.arrive 0x57, .arrive 0x41, .arrive 0x01, .receive]

/-- It is decoded: the replica shoots. -/
theorem decodes_wrongResult : ∃ s,
    intakeMachine.run (Intake.start Net.start []) wrongResult = some s ∧ ¬ HeadersOnly s.trail ∧
      s.packets.map (·.shootDown) = [true] := by
  refine ⟨_, rfl, fun h => ?_, by decide⟩
  obtain ⟨b, hb, hheader⟩ := h [entry 0x57, entry 0x41, entry 0x01] (by decide)
  obtain rfl : b = 0x57 := by simpa [frameBytes, entry] using hb.symm
  revert hheader
  decide

end OperationMinix
