import Mathlib.Algebra.BigOperators.Group.List.Basic
import OperationMinix.Lab4.MouseState

/-!
# What a gesture consists of

The sums in the static variables are those of the packets since the last `reset_data`.  Followed
through the states, they say what the packets so far have been: that `EXIT` is returned means that
both lines have been drawn, one with each button, and that the mouse was almost still between them.

The motion of a packet that changes a button is never counted.  Between the lines such a packet may
be the release of the right button, if it was pressed while the first line was drawn.

## Main definitions

* `Parts` — the packets of a gesture, taken apart.
* `Stroke`, `Still` — a line, and the turn between the lines.
* `Contains` — the parts of a gesture, given the packets of the turn whose motion counts.
* `Accepted` — the parts of a gesture as they were recognised.

## Main results

* `Since.concat` — the sums since the last `reset_data`.
* `hist_step` — what is known of the packets in each state.
* `gesture_sound` — **`EXIT` is returned for gestures only.**
-/

namespace OperationMinix

namespace Lab4

open Runs

variable (tol xLen : ℕ)

/-- The state after some packets. -/
def stateAfter (h : List Packet) : State := ((gestures tol xLen).after h).currState

/-- The event of a packet that comes after some others. -/
def eventAt (h : List Packet) (p : Packet) : Event := event tol xLen p ((gestures tol xLen).after h)

/-- The packets of a stretch that do not change a button. -/
def moves (h s : List Packet) : List Packet :=
  (gestures tol xLen).taken (fun g p => !(event tol xLen p g).isButton) h s

/-- Every packet of a stretch arrives in one of two states. -/
def During (st st' : State) (h s : List Packet) : Prop :=
  (gestures tol xLen).Within (fun g => g.currState = st ∨ g.currState = st') h s

/-- The packets `s`, since a `reset_data` after `h`, have all arrived in the state `st`, and the
sums are theirs. -/
structure Since (st : State) (h s : List Packet) : Prop where
  during : During tol xLen st st h s
  fresh : ((gestures tol xLen).after h).Fresh
  xDesl : ((gestures tol xLen).after (h ++ s)).xDesl =
    ((moves tol xLen h s).map Packet.deltaX).sum
  xTolSum : ((gestures tol xLen).after (h ++ s)).xTolSum =
    ((moves tol xLen h s).map fun p => (st.cost p).1).sum
  yTolSum : ((gestures tol xLen).after (h ++ s)).yTolSum =
    ((moves tol xLen h s).map fun p => (st.cost p).2).sum

/-- A line: the packets since a `reset_data`, while it was drawn, up to the one that completes
it. -/
structure Stroke (k : Hand) (h s : List Packet) (p : Packet) : Prop where
  since : Since tol xLen k.draw h s
  state : stateAfter tol xLen (h ++ s) = k.draw
  complete : eventAt tol xLen (h ++ s) p = .lineC
  length : (xLen : ℤ) ≤ ((moves tol xLen h (s ++ [p])).map Packet.deltaX).sum
  backX : ((moves tol xLen h (s ++ [p])).map Lab4.backX).sum ≤ tol
  back : ((moves tol xLen h (s ++ [p])).map k.back).sum ≤ tol

/-- A line, with what came before and after it. -/
def HasStroke (k : Hand) (h seg : List Packet) : Prop :=
  ∃ b s p c, seg = b ++ (s ++ [p]) ++ c ∧ Stroke tol xLen k (h ++ b) s p

variable {xLen} in
/-- The mouse has almost not been moved. -/
def Still (s : List Packet) : Prop := (s.map absX).sum ≤ tol ∧ (s.map absY).sum ≤ tol

/-- The packets up to the end of a gesture. -/
structure Parts where
  before : List Packet
  leftDown : Packet
  left : List Packet
  leftUp : Packet
  turn : List Packet
  rightDown : Packet
  right : List Packet
  rightUp : Packet

namespace Parts

variable (t : Parts)

/-- What has come when the first button is released. -/
def toLeftUp : List Packet := t.before ++ [t.leftDown] ++ t.left

/-- What has come when the second button is pressed. -/
def toRightDown : List Packet := t.toLeftUp ++ [t.leftUp] ++ t.turn

/-- What has come when the second button is released. -/
def toRightUp : List Packet := t.toRightDown ++ [t.rightDown] ++ t.right

/-- All packets. -/
def packets : List Packet := t.toRightUp ++ [t.rightUp]

theorem leftDown_prefix : t.before ++ [t.leftDown] <+: t.packets :=
  ⟨t.left ++ [t.leftUp] ++ t.turn ++ [t.rightDown] ++ t.right ++ [t.rightUp],
    by simp [packets, toRightUp, toRightDown, toLeftUp]⟩

theorem leftUp_prefix : t.toLeftUp ++ [t.leftUp] <+: t.packets :=
  ⟨t.turn ++ [t.rightDown] ++ t.right ++ [t.rightUp], by simp [packets, toRightUp, toRightDown]⟩

theorem rightDown_prefix : t.toRightDown ++ [t.rightDown] <+: t.packets :=
  ⟨t.right ++ [t.rightUp], by simp [packets, toRightUp]⟩

end Parts

/-- The packet after a part of the packets, by its place. -/
theorem prefix_at {h ps : List Packet} {p : Packet} (hpre : h ++ [p] <+: ps) :
    ∃ hi : h.length < ps.length, ps.take h.length = h ∧ ps[h.length] = p := by
  obtain ⟨rest, rfl⟩ := hpre
  exact ⟨by simp, by simp, by simp⟩

/-- The packets are those of a gesture; `motion` are the packets of the turn whose motion counts. -/
structure Contains (motion : List Packet → List Packet → List Packet) (t : Parts) : Prop where
  leftDown : eventAt tol xLen t.before t.leftDown = .leftDown
  first : HasStroke tol xLen leftHand (t.before ++ [t.leftDown]) t.left
  leftUp : eventAt tol xLen t.toLeftUp t.leftUp = .leftUp
  turn : Still tol (motion (t.toLeftUp ++ [t.leftUp]) t.turn)
  rightDown : eventAt tol xLen t.toRightDown t.rightDown = .rightDown
  second : HasStroke tol xLen rightHand (t.toRightDown ++ [t.rightDown]) t.right
  rightUp : eventAt tol xLen t.toRightUp t.rightUp = .rightUp

/-- The parts are those that the states tell apart. -/
structure Accepted (t : Parts) : Prop extends Contains tol xLen (moves tol xLen) t where
  duringLeft : During tol xLen .drawLeft .leftDone (t.before ++ [t.leftDown]) t.left
  leftDone : stateAfter tol xLen t.toLeftUp = .leftDone
  duringTurn : During tol xLen .vertex .vertex (t.toLeftUp ++ [t.leftUp]) t.turn
  duringRight : During tol xLen .drawRight .rightDone (t.toRightDown ++ [t.rightDown]) t.right
  rightDone : stateAfter tol xLen t.toRightUp = .rightDone

/-! ### The sums since the last reset -/

variable {tol xLen}

@[simp] theorem stateAfter_nil : stateAfter tol xLen [] = .initial := rfl

/-- The state and the variables after one packet more. -/
theorem after_packet (h : List Packet) (p : Packet) : (gestures tol xLen).after (h ++ [p]) =
    respond (eventAt tol xLen h p) (packetToEvent tol xLen p ((gestures tol xLen).after h)).2 :=
  Reactor.after_concat h p

/-- What `handle_mouse_event` returns is the state. -/
theorem stateAfter_concat (h : List Packet) (p : Packet) : stateAfter tol xLen (h ++ [p]) =
    (handleMouseEvent tol xLen p ((gestures tol xLen).after h)).1 := by
  rw [stateAfter, Reactor.after_concat]
  rfl

@[simp] theorem during_nil (st st' : State) (h : List Packet) : During tol xLen st st' h [] :=
  Reactor.within_nil h

theorem During.concat {st st' : State} {h s : List Packet} (hs : During tol xLen st st' h s)
    (hlast : stateAfter tol xLen (h ++ s) = st ∨ stateAfter tol xLen (h ++ s) = st')
    (p : Packet) : During tol xLen st st' h (s ++ [p]) :=
  Reactor.within_concat.mpr ⟨hs, hlast⟩

theorem moves_concat (h s : List Packet) (p : Packet) : moves tol xLen h (s ++ [p]) =
    moves tol xLen h s ++ if (eventAt tol xLen (h ++ s) p).isButton then [] else [p] := by
  rw [moves, Reactor.taken_concat, ← moves, eventAt]
  cases (event tol xLen p ((gestures tol xLen).after (h ++ s))).isButton <;> rfl

/-- After a `reset_data` the sums are those of no packets. -/
theorem Since.start {h : List Packet} (hfresh : ((gestures tol xLen).after h).Fresh) (st : State) :
    Since tol xLen st h [] where
  during := during_nil st st h
  fresh := hfresh
  xDesl := by rw [List.append_nil]; exact hfresh.xDesl
  xTolSum := by rw [List.append_nil]; exact hfresh.xTolSum
  yTolSum := by rw [List.append_nil]; exact hfresh.yTolSum

/-- The sums after one packet more, before `handle_mouse_event` looks at its event. -/
theorem Since.next {st : State} {h s : List Packet} (hs : Since tol xLen st h s)
    (hst : stateAfter tol xLen (h ++ s) = st) (p : Packet) :
    let g' := (packetToEvent tol xLen p ((gestures tol xLen).after (h ++ s))).2
    g'.xDesl = ((moves tol xLen h (s ++ [p])).map Packet.deltaX).sum ∧
      g'.xTolSum = ((moves tol xLen h (s ++ [p])).map fun p => (st.cost p).1).sum ∧
      g'.yTolSum = ((moves tol xLen h (s ++ [p])).map fun p => (st.cost p).2).sum := by
  dsimp only
  rw [moves_concat]
  cases hb : (eventAt tol xLen (h ++ s) p).isButton with
  | true =>
    obtain ⟨-, hx, hxTol, hyTol⟩ := packetToEvent_button hb
    simp only [if_true, List.append_nil]
    exact ⟨hx.trans hs.xDesl, hxTol.trans hs.xTolSum, hyTol.trans hs.yTolSum⟩
  | false =>
    obtain ⟨hmoved, hx, -⟩ := packetToEvent_motion hb
    have hxTol := hmoved.xTolSum
    have hyTol := hmoved.yTolSum
    rw [← stateAfter, hst] at hxTol hyTol
    simp only [Bool.false_eq_true, if_false, List.map_append, List.map_cons, List.map_nil,
      List.sum_append, List.sum_cons, List.sum_nil, add_zero]
    exact ⟨by rw [hx, hs.xDesl], by rw [hxTol, hs.xTolSum], by rw [hyTol, hs.yTolSum]⟩

/-- **One packet more**, if the sums are not reset. -/
theorem Since.concat {st : State} {h s : List Packet} (hs : Since tol xLen st h s)
    (hst : stateAfter tol xLen (h ++ s) = st) {p : Packet}
    (hsame : (packetToEvent tol xLen p ((gestures tol xLen).after (h ++ s))).2.SameSums
      ((gestures tol xLen).after (h ++ s ++ [p]))) :
    Since tol xLen st h (s ++ [p]) := by
  obtain ⟨hx, hxTol, hyTol⟩ := hs.next hst p
  rw [List.append_assoc] at hsame
  exact
    { during := hs.during.concat (Or.inl hst) p
      fresh := hs.fresh
      xDesl := hsame.xDesl.trans hx
      xTolSum := hsame.xTolSum.trans hxTol
      yTolSum := hsame.yTolSum.trans hyTol }

/-- **A line is complete**: with the packet that completes it, it is a stroke. -/
theorem Since.stroke {k : Hand} (hk : k = leftHand ∨ k = rightHand) {h s : List Packet}
    (hs : Since tol xLen k.draw h s) (hst : stateAfter tol xLen (h ++ s) = k.draw) {p : Packet}
    (hline : eventAt tol xLen (h ++ s) p = .lineC) : Stroke tol xLen k h s p := by
  obtain ⟨hx, hxTol, hyTol⟩ := hs.next hst p
  have hb : (eventAt tol xLen (h ++ s) p).isButton = false := by rw [hline]; rfl
  obtain ⟨hmoved, -, hlength⟩ := packetToEvent_motion hb
  have hchecked : k.draw.checked := by rcases hk with rfl | rfl <;> rfl
  have hstate : ((gestures tol xLen).after (h ++ s)).currState = k.draw := hst
  have hfail : eventAt tol xLen (h ++ s) p ≠ .tolFail := by rw [hline]; nofun
  obtain ⟨hxLe, hyLe⟩ := hmoved.tol (decide_eq_false hfail) (by rw [hstate]; exact hchecked)
  have hcost : (fun p => (k.draw.cost p).1) = backX ∧ (fun p => (k.draw.cost p).2) = k.back := by
    rcases hk with rfl | rfl <;> exact ⟨rfl, rfl⟩
  rw [hcost.1] at hxTol
  rw [hcost.2] at hyTol
  exact
    { since := hs
      state := hst
      complete := hline
      length := hx ▸ hlength hline
      backX := hxTol ▸ hxLe
      back := hyTol ▸ hyLe }

/-- Between the lines, as long as the tolerance is not exceeded, the mouse is almost still. -/
theorem Since.still {h s : List Packet} (hs : Since tol xLen .vertex h s)
    (hstill : Still tol (moves tol xLen h s)) (hst : stateAfter tol xLen (h ++ s) = .vertex)
    {p : Packet} (hfail : eventAt tol xLen (h ++ s) p ≠ .tolFail) :
    Still tol (moves tol xLen h (s ++ [p])) := by
  obtain ⟨-, hxTol, hyTol⟩ := hs.next hst p
  cases hb : (eventAt tol xLen (h ++ s) p).isButton with
  | true => simpa [moves_concat, hb] using hstill
  | false =>
    have hstate : ((gestures tol xLen).after (h ++ s)).currState = .vertex := hst
    obtain ⟨hxLe, hyLe⟩ := (packetToEvent_motion hb).1.tol (decide_eq_false hfail)
      (by rw [hstate]; rfl)
    exact ⟨hxTol ▸ hxLe, hyTol ▸ hyLe⟩

/-! ### The lines -/

variable (tol xLen) in
/-- After `h`, the button has been pressed with the packet `d`, and its line is being drawn. -/
structure Drawing (k : Hand) (h : List Packet) (d : Packet) (seg : List Packet) : Prop where
  down : eventAt tol xLen h d = k.down
  during : During tol xLen k.draw k.done (h ++ [d]) seg
  since : ∃ b s, seg = b ++ s ∧ Since tol xLen k.draw (h ++ [d] ++ b) s

variable (tol xLen) in
/-- After `h`, the button has been pressed with the packet `d`, and its line has been drawn. -/
structure Drawn (k : Hand) (h : List Packet) (d : Packet) (seg : List Packet) : Prop where
  down : eventAt tol xLen h d = k.down
  during : During tol xLen k.draw k.done (h ++ [d]) seg
  stroke : HasStroke tol xLen k (h ++ [d]) seg

section

variable {k : Hand} {h seg : List Packet} {d : Packet}

/-- A line that has to be drawn from here. -/
theorem Drawing.restart (hdown : eventAt tol xLen h d = k.down)
    (hduring : During tol xLen k.draw k.done (h ++ [d]) seg)
    (hfresh : ((gestures tol xLen).after (h ++ [d] ++ seg)).Fresh) :
    Drawing tol xLen k h d seg where
  down := hdown
  during := hduring
  since := ⟨seg, [], by simp, Since.start hfresh _⟩

theorem Drawing.start (hdown : eventAt tol xLen h d = k.down)
    (hfresh : ((gestures tol xLen).after (h ++ [d])).Fresh) : Drawing tol xLen k h d [] :=
  .restart hdown (during_nil _ _ _) (by simpa using hfresh)

/-- **One packet more while a line is drawn.** -/
theorem Drawing.concat (hk : k = leftHand ∨ k = rightHand) (hd : Drawing tol xLen k h d seg)
    (hst : stateAfter tol xLen (h ++ [d] ++ seg) = k.draw) (p : Packet) :
    (stateAfter tol xLen (h ++ [d] ++ seg ++ [p]) = k.draw ∧
        Drawing tol xLen k h d (seg ++ [p])) ∨
      (stateAfter tol xLen (h ++ [d] ++ seg ++ [p]) = k.done ∧
        Drawn tol xLen k h d (seg ++ [p])) ∨
      stateAfter tol xLen (h ++ [d] ++ seg ++ [p]) = .initial := by
  obtain ⟨hdown, hduring, b, s, rfl, hsince⟩ := hd
  have hduring' := hduring.concat (Or.inl hst) p
  have hnext := respond_draw hk (e := eventAt tol xLen (h ++ [d] ++ (b ++ s)) p)
    ((currState_packetToEvent tol xLen p _).trans hst)
  rw [← after_packet] at hnext
  rw [← List.append_assoc] at hst
  rcases hnext with ⟨hdraw, hreset | ⟨hsame, -, -⟩⟩ | ⟨hdone, -, hline⟩ | hinit
  · refine Or.inl ⟨hdraw, .restart hdown hduring' ?_⟩
    rwa [← List.append_assoc]
  · -- no `reset_data`: the packets that are summed up go on
    refine Or.inl ⟨hdraw, hdown, hduring', b, s ++ [p], List.append_assoc _ _ _, ?_⟩
    refine hsince.concat hst ?_
    rw [← List.append_assoc] at hsame
    rw [hsame]
    exact .refl _
  · refine Or.inr (Or.inl ⟨hdone, hdown, hduring', b, s, p, [], by simp, ?_⟩)
    rw [← List.append_assoc] at hline
    exact hsince.stroke hk hst hline
  · exact Or.inr (Or.inr hinit)

/-- **One packet more when a line is complete.** -/
theorem Drawn.concat (hk : k = leftHand ∨ k = rightHand) (hd : Drawn tol xLen k h d seg)
    (hst : stateAfter tol xLen (h ++ [d] ++ seg) = k.done) (p : Packet) :
    (stateAfter tol xLen (h ++ [d] ++ seg ++ [p]) = k.done ∧
        Drawn tol xLen k h d (seg ++ [p])) ∨
      (stateAfter tol xLen (h ++ [d] ++ seg ++ [p]) = k.draw ∧
        Drawing tol xLen k h d (seg ++ [p])) ∨
      (stateAfter tol xLen (h ++ [d] ++ seg ++ [p]) = k.next ∧
        ((gestures tol xLen).after (h ++ [d] ++ seg ++ [p])).Fresh ∧
        eventAt tol xLen (h ++ [d] ++ seg) p = k.up) ∨
      stateAfter tol xLen (h ++ [d] ++ seg ++ [p]) = .initial := by
  obtain ⟨hdown, hduring, hstroke⟩ := hd
  have hduring' := hduring.concat (Or.inr hst) p
  have hnext := respond_done hk (e := eventAt tol xLen (h ++ [d] ++ seg) p)
    ((currState_packetToEvent tol xLen p _).trans hst)
  rw [← after_packet] at hnext
  rcases hnext with ⟨hdone, -⟩ | ⟨hdraw, hreset, -⟩ | hup | hinit
  · obtain ⟨b, s, q, c, rfl, hstroke⟩ := hstroke
    exact Or.inl ⟨hdone, hdown, hduring', b, s, q, c ++ [p], by simp, hstroke⟩
  · refine Or.inr (Or.inl ⟨hdraw, .restart hdown hduring' ?_⟩)
    rwa [← List.append_assoc]
  · exact Or.inr (Or.inr (Or.inl hup))
  · exact Or.inr (Or.inr (Or.inr hinit))

end

/-! ### The turn -/

variable (tol xLen) in
/-- The left line has been drawn and its button released, and the mouse has almost been still
since. -/
def Turned (h : List Packet) : Prop :=
  ∃ b d left u turn, h = b ++ [d] ++ left ++ [u] ++ turn ∧ Drawn tol xLen leftHand b d left ∧
    stateAfter tol xLen (b ++ [d] ++ left) = .leftDone ∧
    eventAt tol xLen (b ++ [d] ++ left) u = .leftUp ∧
    Since tol xLen .vertex (b ++ [d] ++ left ++ [u]) turn ∧
    Still tol (moves tol xLen (b ++ [d] ++ left ++ [u]) turn)

theorem Drawn.turned {b left : List Packet} {d u : Packet}
    (hd : Drawn tol xLen leftHand b d left)
    (hst : stateAfter tol xLen (b ++ [d] ++ left) = .leftDone)
    (hup : eventAt tol xLen (b ++ [d] ++ left) u = .leftUp)
    (hfresh : ((gestures tol xLen).after (b ++ [d] ++ left ++ [u])).Fresh) :
    Turned tol xLen (b ++ [d] ++ left ++ [u]) :=
  ⟨b, d, left, u, [], by simp, hd, hst, hup, .start hfresh _, by simp [Still, moves]⟩

/-- **One packet more between the lines.** -/
theorem Turned.concat {h : List Packet} (ht : Turned tol xLen h)
    (hst : stateAfter tol xLen h = .vertex) (p : Packet) :
    (stateAfter tol xLen (h ++ [p]) = .vertex ∧ Turned tol xLen (h ++ [p])) ∨
      (stateAfter tol xLen (h ++ [p]) = .drawRight ∧ Drawing tol xLen rightHand h p []) ∨
      (stateAfter tol xLen (h ++ [p]) = .drawLeft ∧ Drawing tol xLen leftHand h p []) ∨
      stateAfter tol xLen (h ++ [p]) = .initial := by
  have hnext := respond_vertex (e := eventAt tol xLen h p)
    ((currState_packetToEvent tol xLen p _).trans hst)
  rw [← after_packet] at hnext
  rcases hnext with
    ⟨hvertex, hsame, hfail⟩ | ⟨hdraw, hfresh, hdown⟩ | ⟨hdraw, hfresh, hdown⟩ | hinit
  · obtain ⟨b, d, left, u, turn, rfl, hd, hleft, hup, hsince, hstill⟩ := ht
    exact Or.inl ⟨hvertex, b, d, left, u, turn ++ [p], (List.append_assoc _ _ _), hd, hleft, hup,
      hsince.concat hst hsame, hsince.still hstill hst hfail⟩
  · exact Or.inr (Or.inl ⟨hdraw, .start hdown hfresh⟩)
  · exact Or.inr (Or.inr (Or.inl ⟨hdraw, .start hdown hfresh⟩))
  · exact Or.inr (Or.inr (Or.inr hinit))

/-! ### The end -/

theorem stateAfter_exit {h : List Packet} (hst : stateAfter tol xLen h = .exit) (p : Packet) :
    stateAfter tol xLen (h ++ [p]) = .exit := by
  have hcurr := (currState_packetToEvent tol xLen p ((gestures tol xLen).after h)).trans hst
  rw [stateAfter, after_packet, respond_exit hcurr]
  exact hcurr

/-- The loop has read all packets, with the last one, or it ended before that. -/
theorem mouseTestGesture_concat (s : List Packet) (p : Packet) (g : Tracker) :
    mouseTestGesture tol xLen (s ++ [p]) g =
      (mouseTestGesture tol xLen s g <|>
        if (handleMouseEvent tol xLen p (s.foldl (gestures tol xLen).step g)).1 = .exit then
          some (s ++ [p]) else none) := by
  induction s generalizing g with
  | nil => by_cases h : (handleMouseEvent tol xLen p g).1 = .exit <;> simp [mouseTestGesture, h]
  | cons q s ih =>
    by_cases h : (handleMouseEvent tol xLen q g).1 = .exit
    · simp [mouseTestGesture, h]
    · simp only [List.cons_append, mouseTestGesture, h, if_false, ih, List.foldl_cons]
      change _ = (_ <|>
        if (handleMouseEvent tol xLen p
          (s.foldl (gestures tol xLen).step (handleMouseEvent tol xLen q g).2)).1 = .exit then _
        else _)
      generalize s.foldl (gestures tol xLen).step (handleMouseEvent tol xLen q g).2 = g'
      cases mouseTestGesture tol xLen s (handleMouseEvent tol xLen q g).2 with
      | some r => rfl
      | none => by_cases hlast : (handleMouseEvent tol xLen p g').1 = .exit <;> simp [hlast]

/-- The packets that are read come first. -/
theorem mouseTestGesture_prefix {s r : List Packet} {g : Tracker}
    (hread : mouseTestGesture tol xLen s g = some r) : r <+: s := by
  induction s generalizing g r with
  | nil => cases hread
  | cons q s ih =>
    rw [mouseTestGesture] at hread
    split at hread
    · cases hread
      exact ⟨s, rfl⟩
    · obtain ⟨r', hread', rfl⟩ := Option.map_eq_some_iff.mp hread
      exact List.cons_prefix_cons.mpr ⟨rfl, ih hread'⟩

theorem mouseTestGesture_after (h : List Packet) (p : Packet) :
    mouseTestGesture tol xLen (h ++ [p]) .init =
      (mouseTestGesture tol xLen h .init <|>
        if stateAfter tol xLen (h ++ [p]) = .exit then some (h ++ [p]) else none) := by
  rw [mouseTestGesture_concat, stateAfter_concat]
  rfl

/-- The loop goes on until `EXIT`. -/
theorem mouseTestGesture_none {h : List Packet} (hst : stateAfter tol xLen h ≠ .exit) :
    mouseTestGesture tol xLen h .init = none := by
  induction h using List.reverseRecOn with
  | nil => rfl
  | append_singleton h p ih =>
    have hbefore : stateAfter tol xLen h ≠ .exit := fun hexit => hst (stateAfter_exit hexit p)
    rw [mouseTestGesture_after, ih hbefore, if_neg hst]
    rfl

variable (tol xLen) in
/-- What is known of the packets in each state. -/
def Hist (h : List Packet) : Prop :=
  match stateAfter tol xLen h with
  | .initial => True
  | .drawLeft => ∃ b d s, h = b ++ [d] ++ s ∧ Drawing tol xLen leftHand b d s
  | .leftDone => ∃ b d s, h = b ++ [d] ++ s ∧ Drawn tol xLen leftHand b d s
  | .vertex => Turned tol xLen h
  | .drawRight => ∃ b d s, h = b ++ [d] ++ s ∧ Turned tol xLen b ∧ Drawing tol xLen rightHand b d s
  | .rightDone => ∃ b d s, h = b ++ [d] ++ s ∧ Turned tol xLen b ∧ Drawn tol xLen rightHand b d s
  | .exit => ∃ t : Parts, mouseTestGesture tol xLen h .init = some t.packets ∧ Accepted tol xLen t

theorem hist_initial {h : List Packet} (hst : stateAfter tol xLen h = .initial) :
    Hist tol xLen h := by
  rw [Hist, hst]
  trivial

/-- **The end of a gesture.** -/
theorem Turned.accepted {b s : List Packet} {d p : Packet} (ht : Turned tol xLen b)
    (hd : Drawn tol xLen rightHand b d s)
    (hst : stateAfter tol xLen (b ++ [d] ++ s) = .rightDone)
    (hup : eventAt tol xLen (b ++ [d] ++ s) p = .rightUp) :
    ∃ t : Parts, t.packets = b ++ [d] ++ s ++ [p] ∧ Accepted tol xLen t := by
  obtain ⟨before, down, left, u, turn, rfl, hleft, hleftDone, hleftUp, hturn, hstill⟩ := ht
  refine ⟨⟨before, down, left, u, turn, d, s, p⟩, rfl, ?_⟩
  exact
    { leftDown := hleft.down
      first := hleft.stroke
      leftUp := hleftUp
      turn := hstill
      rightDown := hd.down
      second := hd.stroke
      rightUp := hup
      duringLeft := hleft.during
      leftDone := hleftDone
      duringTurn := hturn.during
      duringRight := hd.during
      rightDone := hst }

/-- **What is known is kept by every packet.** -/
theorem hist_step (h : List Packet) (p : Packet) (hh : Hist tol xLen h) :
    Hist tol xLen (h ++ [p]) := by
  unfold Hist at hh
  split at hh
  · -- before the gesture
    next hst =>
    have hnext := respond_initial (e := eventAt tol xLen h p)
      ((currState_packetToEvent tol xLen p _).trans hst)
    rw [← after_packet] at hnext
    rcases hnext with ⟨hdraw, hfresh, hdown⟩ | hinit
    · rw [Hist, stateAfter, hdraw]
      exact ⟨h, p, [], by simp, .start hdown hfresh⟩
    · exact hist_initial hinit
  · -- the left line is drawn
    next hst =>
    obtain ⟨b, d, s, rfl, hd⟩ := hh
    rcases hd.concat (Or.inl rfl) hst p with ⟨hdraw, hd⟩ | ⟨hdone, hd⟩ | hinit
    · rw [Hist, hdraw]
      exact ⟨b, d, s ++ [p], by simp, hd⟩
    · rw [Hist, hdone]
      exact ⟨b, d, s ++ [p], by simp, hd⟩
    · exact hist_initial hinit
  · -- the left line is complete
    next hst =>
    obtain ⟨b, d, s, rfl, hd⟩ := hh
    rcases hd.concat (Or.inl rfl) hst p with
      ⟨hdone, hd'⟩ | ⟨hdraw, hd'⟩ | ⟨hvertex, hfresh, hup⟩ | hinit
    · rw [Hist, hdone]
      exact ⟨b, d, s ++ [p], by simp, hd'⟩
    · rw [Hist, hdraw]
      exact ⟨b, d, s ++ [p], by simp, hd'⟩
    · rw [Hist, hvertex]
      exact hd.turned hst hup hfresh
    · exact hist_initial hinit
  · -- the turn
    next hst =>
    rcases hh.concat hst p with ⟨hvertex, ht⟩ | ⟨hdraw, hd⟩ | ⟨hdraw, hd⟩ | hinit
    · rw [Hist, hvertex]
      exact ht
    · rw [Hist, hdraw]
      exact ⟨h, p, [], by simp, hh, hd⟩
    · rw [Hist, hdraw]
      exact ⟨h, p, [], by simp, hd⟩
    · exact hist_initial hinit
  · -- the right line is drawn
    next hst =>
    obtain ⟨b, d, s, rfl, ht, hd⟩ := hh
    rcases hd.concat (Or.inr rfl) hst p with ⟨hdraw, hd⟩ | ⟨hdone, hd⟩ | hinit
    · rw [Hist, hdraw]
      exact ⟨b, d, s ++ [p], by simp, ht, hd⟩
    · rw [Hist, hdone]
      exact ⟨b, d, s ++ [p], by simp, ht, hd⟩
    · exact hist_initial hinit
  · -- the right line is complete: its release ends the gesture
    next hst =>
    obtain ⟨b, d, s, rfl, ht, hd⟩ := hh
    rcases hd.concat (Or.inr rfl) hst p with ⟨hdone, hd'⟩ | ⟨hdraw, hd'⟩ | ⟨hexit, -, hup⟩ | hinit
    · rw [Hist, hdone]
      exact ⟨b, d, s ++ [p], by simp, ht, hd'⟩
    · rw [Hist, hdraw]
      exact ⟨b, d, s ++ [p], by simp, ht, hd'⟩
    · rw [Hist, hexit]
      obtain ⟨t, hpackets, hacc⟩ := ht.accepted hd hst hup
      refine ⟨t, ?_, hacc⟩
      rw [mouseTestGesture_after, mouseTestGesture_none (by rw [hst]; decide), hpackets]
      exact if_pos hexit
    · exact hist_initial hinit
  · -- after the gesture, which is already known
    next hst =>
    obtain ⟨t, hread, hacc⟩ := hh
    rw [Hist, stateAfter_exit hst]
    refine ⟨t, ?_, hacc⟩
    rw [mouseTestGesture_after, hread]
    rfl

theorem hist (h : List Packet) : Hist tol xLen h :=
  Reactor.history (H := Hist tol xLen) trivial hist_step h

/-- The packets up to the first `EXIT` are those of a gesture. -/
theorem exists_accepted {h : List Packet} (hexit : stateAfter tol xLen h = .exit) :
    ∃ t : Parts, mouseTestGesture tol xLen h .init = some t.packets ∧ Accepted tol xLen t := by
  have hh : Hist tol xLen h := hist h
  rwa [Hist, hexit] at hh

/-- **`EXIT` is returned for gestures only**: the packets up to the first time consist of a line
drawn with the left button, a turn in which the motion that counts is within the tolerance, and a
line drawn with the right button, whose release comes last. -/
theorem gesture_sound {ps : List Packet} {p : Packet}
    (hexit : (handleMouseEvent tol xLen p ((gestures tol xLen).after ps)).1 = .exit) :
    ∃ t : Parts, mouseTestGesture tol xLen (ps ++ [p]) .init = some t.packets ∧
      t.packets <+: ps ++ [p] ∧ Contains tol xLen (moves tol xLen) t := by
  obtain ⟨t, hread, hacc⟩ := exists_accepted ((stateAfter_concat ps p).trans hexit)
  exact ⟨t, hread, mouseTestGesture_prefix hread, hacc.toContains⟩

/-- No button is down, and the mouse is not moved. -/
def idle : Packet := ⟨false, false, 0, 0⟩

/-- A small gesture, without the packet that ends it. -/
def vee : List Packet :=
  [⟨true, false, 0, 0⟩, ⟨true, false, 1, 2⟩, idle, ⟨false, true, 0, 0⟩, ⟨false, true, 1, -2⟩]

theorem gesture_sound_vee :
    ∃ t : Parts, mouseTestGesture 0 1 (vee ++ [idle]) .init = some t.packets ∧
      t.packets <+: vee ++ [idle] ∧ Contains 0 1 (moves 0 1) t :=
  gesture_sound (by decide +kernel)

/-- A gesture with the right button down from the left line to the turn. -/
def crossed : List Packet :=
  [⟨true, false, 0, 0⟩, ⟨true, true, 0, 0⟩, ⟨true, true, 1, 2⟩, ⟨false, true, 0, 0⟩,
    ⟨false, false, 5, 0⟩, ⟨false, true, 0, 0⟩, ⟨false, true, 1, -2⟩, idle]

/-- The motion with which the right button is released in the turn is not counted, and after the
gesture every packet returns `EXIT`. -/
theorem crossed_not_contained :
    (stateAfter 0 1 crossed = .exit ∧
      ¬ ∃ t : Parts, t.packets = crossed ∧ Contains 0 1 (fun _ s => s) t) ∧
    (stateAfter 0 1 (vee ++ [idle] ++ [idle]) = .exit ∧
      ¬ ∃ t : Parts, t.packets = vee ++ [idle] ++ [idle] ∧ Contains 0 1 (fun _ s => s) t) := by
  refine ⟨⟨by decide +kernel, ?_⟩, ⟨by decide +kernel, ?_⟩⟩
  · rintro ⟨t, hpackets, hcontains⟩
    obtain ⟨hup, htakeUp, hatUp⟩ := prefix_at (hpackets ▸ t.leftUp_prefix)
    obtain ⟨hdown, htakeDown, hatDown⟩ := prefix_at (hpackets ▸ t.rightDown_prefix)
    have hlengthUp : t.toLeftUp.length = 3 := by
      have honly : ∀ i (hi : i < crossed.length),
          eventAt 0 1 (crossed.take i) crossed[i] = .leftUp → i = 3 := by decide +kernel
      exact honly _ hup (by rw [htakeUp, hatUp]; exact hcontains.leftUp)
    have hlengthDown : t.toRightDown.length = 5 := by
      have honly : ∀ i (hi : i < crossed.length),
          eventAt 0 1 (crossed.take i) crossed[i] = .rightDown → 3 < i → i = 5 := by
        decide +kernel
      refine honly _ hdown (by rw [htakeDown, hatDown]; exact hcontains.rightDown) ?_
      simp [Parts.toRightDown, hlengthUp]
    have hturn : t.turn = [⟨false, false, 5, 0⟩] := by
      have hdrop : t.toRightDown.drop 4 = t.turn := by
        rw [Parts.toRightDown, List.drop_left' (by simp [hlengthUp])]
      rw [← hdrop, ← htakeDown, hlengthDown]
      rfl
    have hstill := hcontains.turn
    rw [hturn] at hstill
    exact absurd hstill.1 (by decide)
  · rintro ⟨t, hpackets, hcontains⟩
    obtain ⟨hbefore, hlast⟩ := List.append_inj' hpackets rfl
    have hevent := hcontains.rightUp
    rw [hbefore, List.singleton_inj.mp hlast] at hevent
    exact absurd hevent (by decide +kernel)

end Lab4

end OperationMinix
