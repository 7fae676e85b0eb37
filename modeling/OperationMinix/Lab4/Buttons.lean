import OperationMinix.Lab4.Gesture

/-!
# The other button

A line is given up when the other button is pressed after the line is complete.  While the line is
still being drawn the event is ignored, so that a gesture may have a click of the wrong button in
each of its lines: that is the only place where one goes unnoticed.

What is known of the left button is what the last packet said.  A change of the right button that
comes with one of the left button is only seen with the next packet, but none comes so while the
left line is drawn.

## Main definitions

* `OtherPressed` — a packet presses the other button.
* `Exclusive` — no line of a gesture has a press of the other button.
* `LetThrough` — such a press, where it is ignored.

## Main results

* `held` — what is known of the buttons.
* `no_press_done` — a complete line does not survive a press of the other button.
* `exclusive_iff` — **a gesture has no press of the other button, unless one is ignored.**
-/

namespace OperationMinix

namespace Lab4

open Runs

section

variable (tol xLen : ℕ)

/-- The last of some packets has a button down. -/
def lastDown (button : Packet → Bool) (h : List Packet) : Bool := (h.getLast?.map button).getD false

/-- The other button is pressed: `packet_to_event` says so, or the packets do. -/
def OtherPressed (k : Hand) (h : List Packet) (p : Packet) : Prop :=
  eventAt tol xLen h p = k.otherDown ∨ k.other p = true ∧ lastDown k.other h = false

/-- The other button is not pressed in a stretch. -/
def Alone (k : Hand) (h s : List Packet) : Prop :=
  ∀ pre p post, s = pre ++ p :: post → ¬ OtherPressed tol xLen k (h ++ pre) p

/-- No line has a press of the other button. -/
def Exclusive (t : Parts) : Prop :=
  Alone tol xLen leftHand (t.before ++ [t.leftDown]) t.left ∧
    Alone tol xLen rightHand (t.toRightDown ++ [t.rightDown]) t.right

/-- The other button is pressed while a line is drawn, and nothing is done about it. -/
def LetThrough (k : Hand) (h : List Packet) (p : Packet) : Prop :=
  stateAfter tol xLen h = k.draw ∧ OtherPressed tol xLen k h p

/-- No press of the wrong button is ignored in a stretch. -/
def NoneIgnored (h s : List Packet) : Prop :=
  ∀ pre p post, s = pre ++ p :: post →
    ¬ LetThrough tol xLen leftHand (h ++ pre) p ∧ ¬ LetThrough tol xLen rightHand (h ++ pre) p

/-- The packets are read up to the end of a gesture, with these parts. -/
structure Accepts (ps : List Packet) (t : Parts) : Prop extends Accepted tol xLen t where
  read : mouseTestGesture tol xLen ps .init = some t.packets

end

variable {tol xLen : ℕ}

/-! ### The buttons -/

@[simp] theorem lastDown_concat (button : Packet → Bool) (h : List Packet) (p : Packet) :
    lastDown button (h ++ [p]) = button p := by
  simp [lastDown]

section

variable {p : Packet} {g : Tracker} {e : Event}

theorem event_leftDown (hp : p.lb = true) (hg : g.lb = false) :
    event tol xLen p g = .leftDown := by
  simp [event, packetToEvent, hp, hg]

theorem event_leftUp (hp : p.lb = false) (hg : g.lb = true) : event tol xLen p g = .leftUp := by
  simp [event, packetToEvent, hp, hg]

theorem event_rightDown (hlb : p.lb = g.lb) (hp : p.rb = true) (hg : g.rb = false) :
    event tol xLen p g = .rightDown := by
  simp [event, packetToEvent, hlb, hp, hg]

/-- The left button is what the packet says. -/
theorem lb_packetToEvent : (packetToEvent tol xLen p g).2.lb = p.lb := by
  rcases packetToEvent_cases tol xLen p g with
    ⟨hp, -, heq⟩ | ⟨hp, -, heq⟩ | ⟨hlb, -, -, heq⟩ | ⟨hlb, -, -, heq⟩ |
    ⟨hlb, -, e, g', heq, -, hmoved, -⟩
  · simp [heq, hp]
  · simp [heq, hp]
  · simp [heq, hlb]
  · simp [heq, hlb]
  · rw [heq, hlb]
    exact hmoved.lb

/-- So is the right one, if the left one has not changed. -/
theorem rb_packetToEvent (hlb : p.lb = g.lb) : (packetToEvent tol xLen p g).2.rb = p.rb := by
  rcases packetToEvent_cases tol xLen p g with
    ⟨hp, hg, -⟩ | ⟨hp, hg, -⟩ | ⟨-, hp, -, heq⟩ | ⟨-, hp, -, heq⟩ |
    ⟨-, hrb, e, g', heq, -, hmoved, -⟩
  · simp [hp, hg] at hlb
  · simp [hp, hg] at hlb
  · simp [heq, hp]
  · simp [heq, hp]
  · rw [heq, hrb]
    exact hmoved.rb

/-- A press of the left button is one of the packet. -/
theorem lb_of_leftDown (h : event tol xLen p g = .leftDown) : p.lb = true := by
  unfold event at h
  rcases packetToEvent_cases tol xLen p g with
    ⟨hp, -, -⟩ | ⟨-, -, heq⟩ | ⟨-, -, -, heq⟩ | ⟨-, -, -, heq⟩ | ⟨-, -, e, g', heq, hmotion, -⟩
  · exact hp
  · simp [heq] at h
  · simp [heq] at h
  · simp [heq] at h
  · obtain rfl : e = .leftDown := by simpa [heq] using h
    simp [Event.isButton] at hmotion

theorem respond_buttons : (respond e g).lb = g.lb ∧ (respond e g).rb = g.rb := by
  unfold respond
  cases g.currState <;> dsimp only <;> (try split_ifs) <;> exact ⟨rfl, rfl⟩

/-- The left line is drawn, or complete. -/
def State.onLeft : State → Bool
  | .drawLeft | .leftDone => true
  | .initial | .vertex | .drawRight | .rightDone | .exit => false

/-- How the left line goes on: its button has been pressed, or has not been released. -/
theorem onLeft_respond (h : (respond e g).currState.onLeft) :
    (respond e g).currState = .drawLeft ∧ e = .leftDown ∨
      g.currState.onLeft ∧ e ≠ .leftUp := by
  cases hs : g.currState with
  | initial =>
    rcases respond_initial (e := e) hs with ⟨hdraw, -, hdown⟩ | hinit
    · exact Or.inl ⟨hdraw, hdown⟩
    · simp [hinit, State.onLeft] at h
  | drawLeft =>
    refine Or.inr ⟨rfl, ?_⟩
    rintro rfl
    simp [respond, hs, State.onLeft] at h
  | leftDone =>
    refine Or.inr ⟨rfl, ?_⟩
    rintro rfl
    simp [respond, hs, State.onLeft] at h
  | vertex =>
    rcases respond_vertex (e := e) hs with ⟨hnext, -⟩ | ⟨hnext, -⟩ | ⟨hdraw, -, hdown⟩ | hnext
    · simp [hnext, State.onLeft] at h
    · simp [hnext, State.onLeft] at h
    · exact Or.inl ⟨hdraw, hdown⟩
    · simp [hnext, State.onLeft] at h
  | drawRight =>
    rcases respond_draw (e := e) (Or.inr rfl) hs with ⟨hnext, -⟩ | ⟨hnext, -⟩ | hnext <;>
      simp [hnext, rightHand, State.onLeft] at h
  | rightDone =>
    rcases respond_done (e := e) (Or.inr rfl) hs with
      ⟨hnext, -⟩ | ⟨hnext, -⟩ | ⟨hnext, -⟩ | hnext <;>
      simp [hnext, rightHand, State.onLeft] at h
  | exit => simp [respond_exit hs, hs, State.onLeft] at h

end

/-- What is known of the buttons. -/
structure Held (tol xLen : ℕ) (h : List Packet) : Prop where
  lb : ((gestures tol xLen).after h).lb = lastDown Packet.lb h
  left : (stateAfter tol xLen h).onLeft → lastDown Packet.lb h = true
  rb : stateAfter tol xLen h = .leftDone →
    ((gestures tol xLen).after h).rb = lastDown Packet.rb h

/-- **What is known of the buttons is kept by every packet.** -/
theorem held_step (h : List Packet) (p : Packet) (hh : Held tol xLen h) :
    Held tol xLen (h ++ [p]) := by
  have hbuttons := respond_buttons (e := eventAt tol xLen h p)
    (g := (packetToEvent tol xLen p ((gestures tol xLen).after h)).2)
  rw [← after_packet, lb_packetToEvent] at hbuttons
  have hleft : (stateAfter tol xLen (h ++ [p])).onLeft →
      p.lb = true ∧ (stateAfter tol xLen (h ++ [p]) = .drawLeft ∨
        p.lb = ((gestures tol xLen).after h).lb) := by
    intro hon
    rw [stateAfter, after_packet] at hon ⊢
    rcases onLeft_respond hon with ⟨hdraw, hdown⟩ | ⟨hbefore, hup⟩
    · exact ⟨lb_of_leftDown hdown, Or.inl hdraw⟩
    · rw [currState_packetToEvent] at hbefore
      have hlatch := hh.lb.trans (hh.left hbefore)
      have hp : p.lb = true := by
        cases hp : p.lb with
        | true => rfl
        | false => exact absurd (event_leftUp hp hlatch) hup
      exact ⟨hp, Or.inr (hp.trans hlatch.symm)⟩
  refine ⟨by simpa using hbuttons.1, fun hon => by simpa using (hleft hon).1, fun hdone => ?_⟩
  rcases (hleft (by rw [hdone]; rfl)).2 with hdraw | hlb
  · rw [hdone] at hdraw
    cases hdraw
  · rw [hbuttons.2, rb_packetToEvent hlb, lastDown_concat]

theorem held (tol xLen : ℕ) (h : List Packet) : Held tol xLen h :=
  Reactor.history ⟨rfl, nofun, nofun⟩ held_step h

/-! ### The lines -/

/-- **A complete line does not survive a press of the other button.** -/
theorem no_press_done {k : Hand} (hk : k = leftHand ∨ k = rightHand) {h : List Packet} {p : Packet}
    (hst : stateAfter tol xLen h = k.done)
    (hnext : stateAfter tol xLen (h ++ [p]) = k.draw ∨ stateAfter tol xLen (h ++ [p]) = k.done) :
    ¬ OtherPressed tol xLen k h p := by
  have hheld := held tol xLen h
  have hother : eventAt tol xLen h p ≠ k.otherDown := by
    have hresp := respond_done hk (e := eventAt tol xLen h p)
      ((currState_packetToEvent tol xLen p _).trans hst)
    rw [← after_packet, ← stateAfter] at hresp
    rcases hresp with ⟨-, hother⟩ | ⟨-, -, hfail⟩ | ⟨hleave, -⟩ | hleave
    · exact hother
    · rw [hfail]
      rcases hk with rfl | rfl <;> decide
    · rw [hleave] at hnext
      rcases hk with rfl | rfl <;> rcases hnext with h | h <;> cases h
    · rw [hleave] at hnext
      rcases hk with rfl | rfl <;> rcases hnext with h | h <;> cases h
  rintro (hdown | ⟨hp, hlast⟩)
  · exact hother hdown
  · rcases hk with rfl | rfl
    · -- the left button is still down, so the press is the event of the packet
      have hlatch := hheld.lb.trans (hheld.left (by rw [hst]; rfl))
      have hlb : p.lb = true := by
        have hnextLeft : (stateAfter tol xLen (h ++ [p])).onLeft := by
          rcases hnext with hnext | hnext <;> rw [hnext] <;> rfl
        simpa using (held tol xLen (h ++ [p])).left hnextLeft
      exact hother (event_rightDown (hlb.trans hlatch.symm) hp ((hheld.rb hst).trans hlast))
    · exact hother (event_leftDown hp (hheld.lb.trans hlast))

/-- Where the packets of a stretch arrive, when its line is complete at its end. -/
theorem During.next {st st' : State} {h s : List Packet} (hs : During tol xLen st st' h s)
    (hend : stateAfter tol xLen (h ++ s) = st') {pre post : List Packet} {p : Packet}
    (hsplit : s = pre ++ p :: post) :
    stateAfter tol xLen (h ++ pre ++ [p]) = st ∨ stateAfter tol xLen (h ++ pre ++ [p]) = st' := by
  cases post with
  | nil =>
    rw [hsplit, ← List.append_assoc] at hend
    exact Or.inr hend
  | cons q post =>
    have hq := hs (pre ++ [p]) q post (by simp [hsplit])
    rwa [← List.append_assoc] at hq

/-- **The other button is not pressed while a line is drawn, unless its press is ignored.** -/
theorem During.alone {k : Hand} (hk : k = leftHand ∨ k = rightHand) {h s : List Packet}
    (hs : During tol xLen k.draw k.done h s) (hend : stateAfter tol xLen (h ++ s) = k.done)
    (hnone : ∀ pre p post, s = pre ++ p :: post → ¬ LetThrough tol xLen k (h ++ pre) p) :
    Alone tol xLen k h s := by
  intro pre p post hsplit hpressed
  rcases hs pre p post hsplit with hdraw | hdone
  · exact hnone pre p post hsplit ⟨hdraw, hpressed⟩
  · exact no_press_done hk hdone (hs.next hend hsplit) hpressed

/-- The presses that are ignored while a line is drawn are those of the other button. -/
theorem During.noneIgnored {k : Hand} (hk : k = leftHand ∨ k = rightHand) {h s : List Packet}
    (hs : During tol xLen k.draw k.done h s) (halone : Alone tol xLen k h s) :
    NoneIgnored tol xLen h s := by
  intro pre p post hsplit
  have hst := hs pre p post hsplit
  have hnone := halone pre p post hsplit
  rcases hk with rfl | rfl
  · refine ⟨fun hlet => hnone hlet.2, fun hlet => ?_⟩
    rcases hst with hst | hst <;> exact absurd (hst.symm.trans hlet.1) (by decide)
  · refine ⟨fun hlet => ?_, fun hlet => hnone hlet.2⟩
    rcases hst with hst | hst <;> exact absurd (hst.symm.trans hlet.1) (by decide)

/-- What is ignored in a stretch is ignored in the whole run. -/
theorem NoneIgnored.stretch {ps h s : List Packet} (hps : NoneIgnored tol xLen [] ps)
    (hpre : h ++ s <+: ps) : NoneIgnored tol xLen h s := by
  obtain ⟨rest, rfl⟩ := hpre
  intro pre p post hsplit
  exact hps (h ++ pre) p (post ++ rest) (by simp [hsplit])

/-- **A gesture has no press of the other button in its lines, unless one is ignored**: exactly when
none is ignored in the lines, and so in every run in which none is ignored. -/
theorem exclusive_iff (tol xLen : ℕ) (ps : List Packet) :
    (stateAfter tol xLen ps = .exit → ∃ t, Accepts tol xLen ps t) ∧
      (∀ t, Accepts tol xLen ps t → (Exclusive tol xLen t ↔
        NoneIgnored tol xLen (t.before ++ [t.leftDown]) t.left ∧
          NoneIgnored tol xLen (t.toRightDown ++ [t.rightDown]) t.right)) ∧
      (NoneIgnored tol xLen [] ps → ∀ t, Accepts tol xLen ps t → Exclusive tol xLen t) := by
  have hiff : ∀ t, Accepts tol xLen ps t → (Exclusive tol xLen t ↔
      NoneIgnored tol xLen (t.before ++ [t.leftDown]) t.left ∧
        NoneIgnored tol xLen (t.toRightDown ++ [t.rightDown]) t.right) := by
    intro t ht
    constructor
    · rintro ⟨hleft, hright⟩
      exact ⟨ht.duringLeft.noneIgnored (Or.inl rfl) hleft,
        ht.duringRight.noneIgnored (Or.inr rfl) hright⟩
    · rintro ⟨hleft, hright⟩
      constructor
      · exact ht.duringLeft.alone (Or.inl rfl) ht.leftDone fun pre p post h =>
          (hleft pre p post h).1
      · exact ht.duringRight.alone (Or.inr rfl) ht.rightDone fun pre p post h =>
          (hright pre p post h).2
  refine ⟨fun hexit => ?_, hiff, fun hnone t ht => (hiff t ht).mpr ?_⟩
  · obtain ⟨t, hread, hacc⟩ := exists_accepted hexit
    exact ⟨t, { toAccepted := hacc, read := hread }⟩
  · have hread := mouseTestGesture_prefix ht.read
    have hleft : t.toLeftUp <+: ps :=
      ((List.prefix_append _ _).trans t.leftUp_prefix).trans hread
    have hright : t.toRightUp <+: ps := (List.prefix_append _ _).trans hread
    exact ⟨hnone.stretch hleft, hnone.stretch hright⟩

/-- A gesture with a click of the right button while the left line is drawn. -/
def clicked : List Packet :=
  [⟨true, false, 0, 0⟩, ⟨true, true, 0, 0⟩, ⟨true, false, 0, 0⟩, ⟨true, false, 1, 2⟩, idle,
    ⟨false, true, 0, 0⟩, ⟨false, true, 1, -2⟩, idle]

/-- The click is not noticed. -/
theorem clicked_not_exclusive :
    stateAfter 0 1 clicked = .exit ∧ ∀ t, Accepts 0 1 clicked t → ¬ Exclusive 0 1 t := by
  refine ⟨by decide +kernel, fun t ht hexclusive => ?_⟩
  have hpackets : t.packets = clicked := by
    have hread : mouseTestGesture 0 1 clicked .init = some clicked := by decide +kernel
    exact Option.some_injective _ (ht.read.symm.trans hread)
  obtain ⟨hdown, htakeDown, hatDown⟩ := prefix_at (hpackets ▸ t.leftDown_prefix)
  obtain ⟨hup, htakeUp, hatUp⟩ := prefix_at (hpackets ▸ t.leftUp_prefix)
  have hlengthDown : t.before.length = 0 := by
    have honly : ∀ i (hi : i < clicked.length),
        eventAt 0 1 (clicked.take i) clicked[i] = .leftDown → i = 0 := by decide +kernel
    exact honly _ hdown (by rw [htakeDown, hatDown]; exact ht.leftDown)
  have hlengthUp : t.toLeftUp.length = 4 := by
    have honly : ∀ i (hi : i < clicked.length),
        eventAt 0 1 (clicked.take i) clicked[i] = .leftUp → i = 4 := by decide +kernel
    exact honly _ hup (by rw [htakeUp, hatUp]; exact ht.leftUp)
  have hleft : (t.before ++ [t.leftDown]) ++ t.left = clicked.take 4 := by
    rw [← hlengthUp, htakeUp, Parts.toLeftUp]
  have hbefore : t.before = [] := List.length_eq_zero_iff.mp hlengthDown
  rw [hbefore] at hleft
  obtain ⟨hpacket, hrest⟩ := List.cons.inj hleft
  refine hexclusive.1 [] ⟨true, true, 0, 0⟩ _ hrest (Or.inl ?_)
  rw [hbefore, hpacket]
  decide +kernel

end Lab4

end OperationMinix
