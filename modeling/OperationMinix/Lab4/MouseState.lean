import Mathlib.Algebra.Order.Ring.Rat
import Mathlib.Data.Rat.Cast.Defs
import OperationMinix.Runs.History

/-!
# The mouse gesture of the fourth lab

`handle_mouse_event` recognises an upside-down V: a line drawn upwards with the left button down,
a turn without much motion, and a line drawn downwards with the right button down.  Every packet
gives one event, that of a button before that of the motion, and the sums of the motion are
compared with a length and a tolerance.

Displacements are integers, and a quotient of them is infinite or no number at all where the
divisor is zero.

## Main definitions

* `Packet`, `Event`, `State`, `Tracker` — the packets, and the static variables.
* `packetToEvent`, `handleMouseEvent` — the two functions.
* `mouseTestGesture` — the packets up to the end of the gesture.

## Main results

* `packetToEvent_button`, `packetToEvent_motion` — what an event does to the sums.
* `respond_draw`, `respond_done`, `respond_vertex`, `respond_initial`, `respond_exit` — what an
  event does in each state.
-/

namespace OperationMinix

namespace Lab4

open Runs

/-- `struct packet`, as far as the gesture goes. -/
structure Packet where
  lb : Bool
  rb : Bool
  deltaX : ℤ
  deltaY : ℤ
  deriving DecidableEq, Repr

/-- `enum states`. -/
inductive State where
  | initial
  | drawLeft
  | leftDone
  | vertex
  | drawRight
  | rightDone
  | exit
  deriving DecidableEq, Repr

/-- `enum event_t`. -/
inductive Event where
  | rightDown
  | rightUp
  | leftDown
  | leftUp
  | tolFail
  | lineC
  | continueDraw
  deriving DecidableEq, Repr

/-- A button has been pressed or released. -/
def Event.isButton : Event → Bool
  | .rightDown | .rightUp | .leftDown | .leftUp => true
  | .tolFail | .lineC | .continueDraw => false

/-- The static variables of `mouse_state.c`: `currData`, `currState`, `line_start_packet` and
`packet_count`. -/
structure Tracker where
  lb : Bool
  rb : Bool
  xDesl : ℤ
  yDesl : ℤ
  xTolSum : ℤ
  yTolSum : ℤ
  currState : State
  lineStartX : ℤ
  lineStartY : ℤ
  packetCount : ℕ
  deriving DecidableEq, Repr

/-- The static variables before the first packet, after `init_data`. -/
def Tracker.init : Tracker :=
  { lb := false, rb := false, xDesl := 0, yDesl := 0, xTolSum := 0, yTolSum := 0
    currState := .initial, lineStartX := 0, lineStartY := 0, packetCount := 0 }

/-- `reset_data`. -/
def Tracker.resetData (g : Tracker) : Tracker :=
  { g with
    xDesl := 0, yDesl := 0, xTolSum := 0, yTolSum := 0, lineStartX := 0, lineStartY := 0
    packetCount := 0 }

/-- A new state, and `reset_data`. -/
def Tracker.enter (g : Tracker) (s : State) : Tracker := { g with currState := s }.resetData

/-- `PACKET_SLOPE_COUNT`. -/
def packetSlopeCount : ℕ := 20

/-- A quotient of two integers as a `double`. -/
inductive Quotient
  /-- A number. -/
  | val (q : ℚ)
  | posInf
  | negInf
  /-- What is no number, and compares with none. -/
  | nan
  deriving DecidableEq, Repr

/-- `(double) y / x`. -/
def quotient (y x : ℤ) : Quotient :=
  if x ≠ 0 then .val (y / x) else if 0 < y then .posInf else if y < 0 then .negInf else .nan

/-- `q <= c`. -/
def Quotient.atMost (q : Quotient) (c : ℚ) : Bool :=
  match q with
  | .val q => q ≤ c
  | .negInf => true
  | .posInf | .nan => false

/-- `q >= c`. -/
def Quotient.atLeast (q : Quotient) (c : ℚ) : Bool :=
  match q with
  | .val q => q ≥ c
  | .posInf => true
  | .negInf | .nan => false

/-- `q > c`. -/
def Quotient.above (q : Quotient) (c : ℚ) : Bool :=
  match q with
  | .val q => q > c
  | .posInf => true
  | .negInf | .nan => false

/-- `q < c`. -/
def Quotient.below (q : Quotient) (c : ℚ) : Bool :=
  match q with
  | .val q => q < c
  | .negInf => true
  | .posInf | .nan => false

/-- The slope of the line since its start. -/
def Tracker.slope (g : Tracker) : Quotient := quotient g.lineStartY g.lineStartX

/-- The motion backwards along the x axis. -/
def backX (p : Packet) : ℤ := if p.deltaX < 0 then -p.deltaX else 0

/-- The motion downwards. -/
def backY (p : Packet) : ℤ := if p.deltaY < 0 then -p.deltaY else 0

/-- The motion upwards. -/
def upY (p : Packet) : ℤ := if p.deltaY > 0 then p.deltaY else 0

/-- The motion on the x axis. -/
def absX (p : Packet) : ℤ := if p.deltaX > 0 then p.deltaX else -p.deltaX

/-- The motion on the y axis. -/
def absY (p : Packet) : ℤ := if p.deltaY > 0 then p.deltaY else -p.deltaY

/-- More of the tolerance is used up. -/
def Tracker.addTol (g : Tracker) (x y : ℤ) : Tracker :=
  { g with xTolSum := g.xTolSum + x, yTolSum := g.yTolSum + y }

/-- The tolerance is exceeded on one of the axes. -/
def Tracker.exceeds (g : Tracker) (tol : ℕ) : Bool := g.xTolSum > tol ∨ g.yTolSum > tol

/-- The cases of `packet_to_event` in which a line is drawn: whether they return `TOL_FAIL`, and
the variables; `bad` says which slopes are not allowed. -/
def trackLine (tol : ℕ) (x y : ℤ) (bad : Quotient → Bool) (g : Tracker) :
    Bool × Tracker :=
  let g := { g with packetCount := g.packetCount + 1 }.addTol x y
  if g.exceeds tol then (true, g)
  -- the slope is looked at after every so many packets
  else if g.packetCount = packetSlopeCount then
    if bad g.slope then (true, g)
    else (false, { g with packetCount := 0, lineStartY := 0, lineStartX := 0 })
  else (false, g)

/-- The `switch` of `packet_to_event`. -/
def trackMotion (tol : ℕ) (pkt : Packet) (g : Tracker) : Bool × Tracker :=
  match g.currState with
  | .leftDone | .drawLeft => trackLine tol (backX pkt) (backY pkt) (·.atMost 1) g
  | .rightDone | .drawRight => trackLine tol (backX pkt) (upY pkt) (·.atLeast (-1)) g
  | .vertex =>
    let g := g.addTol (absX pkt) (absY pkt)
    (g.exceeds tol, g)
  | .initial | .exit => (false, g)

/-- The last branch of `packet_to_event`, for a packet without a change of the buttons. -/
def moveEvent (tol xLen : ℕ) (pkt : Packet) (g : Tracker) : Event × Tracker :=
  let g :=
    { g with
      xDesl := g.xDesl + pkt.deltaX, yDesl := g.yDesl + pkt.deltaY
      lineStartX := g.lineStartX + pkt.deltaX, lineStartY := g.lineStartY + pkt.deltaY }
  let r := trackMotion tol pkt g
  if r.1 then (.tolFail, r.2)
  else if r.2.xDesl ≥ xLen then (.lineC, r.2)
  else (.continueDraw, r.2)

/-- `packet_to_event`. -/
def packetToEvent (tol xLen : ℕ) (pkt : Packet) (g : Tracker) : Event × Tracker :=
  -- one event for each packet: the left button hides the right one, and both hide the motion
  if pkt.lb && !g.lb then (.leftDown, { g with lb := true })
  else if !pkt.lb && g.lb then (.leftUp, { g with lb := false })
  else if pkt.rb && !g.rb then (.rightDown, { g with rb := true })
  else if !pkt.rb && g.rb then (.rightUp, { g with rb := false })
  else moveEvent tol xLen pkt g

/-- The `switch` of `handle_mouse_event`. -/
def respond (event : Event) (g : Tracker) : Tracker :=
  match g.currState with
  | .initial => if event = .leftDown then g.enter .drawLeft else g
  | .drawLeft =>
    -- there is no case for a press of the right button
    if event = .leftUp then g.enter .initial
    else if event = .tolFail then g.resetData
    else if event = .lineC then
      if g.packetCount = 0 ∨ g.slope.above 1 then g.enter .leftDone else g.resetData
    else g
  | .leftDone =>
    if event = .leftUp then g.enter .vertex
    else if event = .tolFail then g.enter .drawLeft
    else if event = .rightDown then g.enter .initial
    else g
  | .vertex =>
    let g := { g with packetCount := 0 }
    if event = .rightDown then g.enter .drawRight
    else if event = .leftDown then g.enter .drawLeft
    else if event = .tolFail then g.enter .initial
    else g
  | .drawRight =>
    -- nor here for one of the left button
    if event = .rightUp then g.enter .initial
    else if event = .tolFail then g.enter .initial
    else if event = .lineC then
      if g.packetCount = 0 ∨ g.slope.below (-1) then g.enter .rightDone else g.resetData
    else g
  | .rightDone =>
    if event = .rightUp then g.enter .exit
    else if event = .tolFail then g.enter .initial
    else if event = .leftDown then g.enter .initial
    else g
  | .exit => g

/-- `handle_mouse_event`: what it returns, and the variables. -/
def handleMouseEvent (tol xLen : ℕ) (pkt : Packet) (g : Tracker) : State × Tracker :=
  let r := packetToEvent tol xLen pkt g
  let g := respond r.1 r.2
  (g.currState, g)

/-- `handle_mouse_event`, packet after packet. -/
def gestures (tol xLen : ℕ) : Reactor Tracker Packet where
  start := .init
  step g pkt := (handleMouseEvent tol xLen pkt g).2

/-- The loop of `mouse_test_gesture`, which ends when `EXIT` is returned: the packets that it has
read, or `none` when there are not enough. -/
def mouseTestGesture (tol xLen : ℕ) : List Packet → Tracker → Option (List Packet)
  | [], _ => none
  | pkt :: pkts, g =>
    let r := handleMouseEvent tol xLen pkt g
    if r.1 = .exit then some [pkt]
    else (mouseTestGesture tol xLen pkts r.2).map (pkt :: ·)

/-! ### Events -/

section

variable {tol xLen : ℕ} {pkt : Packet} {g : Tracker}

/-- The event that a packet gives. -/
def event (tol xLen : ℕ) (pkt : Packet) (g : Tracker) : Event := (packetToEvent tol xLen pkt g).1

/-- The sums are zero, as `reset_data` leaves them. -/
structure Tracker.Fresh (g : Tracker) : Prop where
  xDesl : g.xDesl = 0
  xTolSum : g.xTolSum = 0
  yTolSum : g.yTolSum = 0

/-- The sums that are compared with the length and the tolerance are the same. -/
structure Tracker.SameSums (g g' : Tracker) : Prop where
  xDesl : g'.xDesl = g.xDesl
  xTolSum : g'.xTolSum = g.xTolSum
  yTolSum : g'.yTolSum = g.yTolSum

theorem Tracker.SameSums.refl (g : Tracker) : g.SameSums g := ⟨rfl, rfl, rfl⟩

@[simp] theorem Tracker.currState_enter (g : Tracker) (s : State) : (g.enter s).currState = s := rfl

@[simp] theorem Tracker.currState_resetData (g : Tracker) :
    g.resetData.currState = g.currState := rfl

@[simp] theorem Tracker.currState_addTol (g : Tracker) (x y : ℤ) :
    (g.addTol x y).currState = g.currState := rfl

theorem Tracker.fresh_resetData (g : Tracker) : g.resetData.Fresh := ⟨rfl, rfl, rfl⟩

theorem Tracker.fresh_enter (g : Tracker) (s : State) : (g.enter s).Fresh := ⟨rfl, rfl, rfl⟩

/-- What a packet uses up of the tolerance. -/
def State.cost : State → Packet → ℤ × ℤ
  | .drawLeft, p | .leftDone, p => (backX p, backY p)
  | .drawRight, p | .rightDone, p => (backX p, upY p)
  | .vertex, p => (absX p, absY p)
  | .initial, _ | .exit, _ => (0, 0)

/-- A state in which the tolerance is checked. -/
def State.checked : State → Bool
  | .initial | .exit => false
  | .drawLeft | .leftDone | .vertex | .drawRight | .rightDone => true

/-- What a packet that moves the mouse does to the variables. -/
structure Moved (tol : ℕ) (pkt : Packet) (g g' : Tracker) (failed : Bool) : Prop where
  currState : g'.currState = g.currState
  lb : g'.lb = g.lb
  rb : g'.rb = g.rb
  xTolSum : g'.xTolSum = g.xTolSum + (g.currState.cost pkt).1
  yTolSum : g'.yTolSum = g.yTolSum + (g.currState.cost pkt).2
  tol : failed = false → g.currState.checked → g'.xTolSum ≤ tol ∧ g'.yTolSum ≤ tol

theorem exceeds_eq_false : g.exceeds tol = false ↔ g.xTolSum ≤ tol ∧ g.yTolSum ≤ tol := by
  simp [Tracker.exceeds]

theorem trackLine_spec (tol : ℕ) (x y : ℤ) (bad : Quotient → Bool) (g : Tracker) :
    let r := trackLine tol x y bad g
    r.2.currState = g.currState ∧ r.2.lb = g.lb ∧ r.2.rb = g.rb ∧ r.2.xDesl = g.xDesl ∧
      r.2.xTolSum = g.xTolSum + x ∧ r.2.yTolSum = g.yTolSum + y ∧
      (r.1 = false → r.2.xTolSum ≤ tol ∧ r.2.yTolSum ≤ tol) := by
  unfold trackLine
  dsimp only
  cases hexceeds : ({ g with packetCount := g.packetCount + 1 }.addTol x y).exceeds tol with
  | true => exact ⟨rfl, rfl, rfl, rfl, rfl, rfl, nofun⟩
  | false =>
    have htol := exceeds_eq_false.mp hexceeds
    simp only [Bool.false_eq_true, if_false]
    split
    · split
      · exact ⟨rfl, rfl, rfl, rfl, rfl, rfl, nofun⟩
      · exact ⟨rfl, rfl, rfl, rfl, rfl, rfl, fun _ => htol⟩
    · exact ⟨rfl, rfl, rfl, rfl, rfl, rfl, fun _ => htol⟩

/-- **What the `switch` of `packet_to_event` does.** -/
theorem trackMotion_spec (tol : ℕ) (pkt : Packet) (g : Tracker) :
    (trackMotion tol pkt g).2.xDesl = g.xDesl ∧
      Moved tol pkt g (trackMotion tol pkt g).2 (trackMotion tol pkt g).1 := by
  have hline : ∀ {bad : Quotient → Bool} {x y : ℤ}, g.currState.cost pkt = (x, y) →
      (trackLine tol x y bad g).2.xDesl = g.xDesl ∧
        Moved tol pkt g (trackLine tol x y bad g).2 (trackLine tol x y bad g).1 := by
    intro bad x y hcost
    obtain ⟨hstate, hlb, hrb, hx, hxTol, hyTol, htol⟩ := trackLine_spec tol x y bad g
    refine ⟨hx, hstate, hlb, hrb, ?_, ?_, fun hok _ => htol hok⟩
    · rw [hxTol, hcost]
    · rw [hyTol, hcost]
  have hidle : g.currState = .initial ∨ g.currState = .exit →
      g.xDesl = g.xDesl ∧ Moved tol pkt g g false := by
    intro hs
    refine ⟨rfl, rfl, rfl, rfl, ?_, ?_, fun _ hcheck => ?_⟩
    · rcases hs with hs | hs <;> simp [hs, State.cost]
    · rcases hs with hs | hs <;> simp [hs, State.cost]
    · rcases hs with hs | hs <;> simp [hs, State.checked] at hcheck
  unfold trackMotion
  cases hs : g.currState with
  | leftDone => exact hline (by rw [hs]; rfl)
  | drawLeft => exact hline (by rw [hs]; rfl)
  | rightDone => exact hline (by rw [hs]; rfl)
  | drawRight => exact hline (by rw [hs]; rfl)
  | vertex =>
    refine ⟨rfl, rfl, rfl, rfl, by rw [hs]; rfl, by rw [hs]; rfl, fun hok _ => ?_⟩
    exact exceeds_eq_false.mp hok
  | initial => exact hidle (Or.inl hs)
  | exit => exact hidle (Or.inr hs)

/-- The event of a motion. -/
theorem moveEvent_spec (tol xLen : ℕ) (pkt : Packet) (g : Tracker) :
    ∃ e g', moveEvent tol xLen pkt g = (e, g') ∧ e.isButton = false ∧
      Moved tol pkt g g' (e = .tolFail) ∧ g'.xDesl = g.xDesl + pkt.deltaX ∧
      (e = .lineC → (xLen : ℤ) ≤ g'.xDesl) := by
  unfold moveEvent
  dsimp only
  generalize hg₁ : ({ g with
    xDesl := g.xDesl + pkt.deltaX, yDesl := g.yDesl + pkt.deltaY
    lineStartX := g.lineStartX + pkt.deltaX, lineStartY := g.lineStartY + pkt.deltaY } :
      Tracker) = g₁
  obtain ⟨hx, hmoved⟩ := trackMotion_spec tol pkt g₁
  subst hg₁
  obtain ⟨hstate, hlb, hrb, hxTol, hyTol, htol⟩ := hmoved
  split
  · refine ⟨_, _, rfl, rfl, ⟨hstate, hlb, hrb, hxTol, hyTol, ?_⟩, hx, nofun⟩
    intro hok
    simp at hok
  · next hok =>
    have htol' := htol (Bool.eq_false_iff.mpr hok)
    split
    · next hlen => exact ⟨_, _, rfl, rfl, ⟨hstate, hlb, hrb, hxTol, hyTol, fun _ => htol'⟩, hx,
        fun _ => hlen⟩
    · exact ⟨_, _, rfl, rfl, ⟨hstate, hlb, hrb, hxTol, hyTol, fun _ => htol'⟩, hx, nofun⟩

/-- **The events of a packet**: that of a button, the left one first, or that of the motion. -/
theorem packetToEvent_cases (tol xLen : ℕ) (pkt : Packet) (g : Tracker) :
    (pkt.lb = true ∧ g.lb = false ∧
        packetToEvent tol xLen pkt g = (.leftDown, { g with lb := true })) ∨
      (pkt.lb = false ∧ g.lb = true ∧
        packetToEvent tol xLen pkt g = (.leftUp, { g with lb := false })) ∨
      (pkt.lb = g.lb ∧ pkt.rb = true ∧ g.rb = false ∧
        packetToEvent tol xLen pkt g = (.rightDown, { g with rb := true })) ∨
      (pkt.lb = g.lb ∧ pkt.rb = false ∧ g.rb = true ∧
        packetToEvent tol xLen pkt g = (.rightUp, { g with rb := false })) ∨
      (pkt.lb = g.lb ∧ pkt.rb = g.rb ∧
        ∃ e g', packetToEvent tol xLen pkt g = (e, g') ∧ e.isButton = false ∧
          Moved tol pkt g g' (e = .tolFail) ∧ g'.xDesl = g.xDesl + pkt.deltaX ∧
          (e = .lineC → (xLen : ℤ) ≤ g'.xDesl)) := by
  have hmove := moveEvent_spec tol xLen pkt g
  unfold packetToEvent
  by_cases hlb : pkt.lb = g.lb
  · by_cases hrb : pkt.rb = g.rb
    · refine Or.inr (Or.inr (Or.inr (Or.inr ⟨hlb, hrb, ?_⟩)))
      simpa [hlb, hrb] using hmove
    · cases hp : pkt.rb <;> cases hg : g.rb <;> simp [hlb, hp, hg] at hrb ⊢
  · cases hp : pkt.lb <;> cases hg : g.lb <;> simp [hp, hg] at hlb ⊢

/-- A button event changes what is known of the buttons, and nothing else. -/
theorem packetToEvent_button (h : (event tol xLen pkt g).isButton) :
    (packetToEvent tol xLen pkt g).2.currState = g.currState ∧
      g.SameSums (packetToEvent tol xLen pkt g).2 := by
  unfold event at h
  rcases packetToEvent_cases tol xLen pkt g with
    ⟨-, -, heq⟩ | ⟨-, -, heq⟩ | ⟨-, -, -, heq⟩ | ⟨-, -, -, heq⟩ | ⟨-, -, e, g', heq, hmotion, -⟩
  · rw [heq]; exact ⟨rfl, rfl, rfl, rfl⟩
  · rw [heq]; exact ⟨rfl, rfl, rfl, rfl⟩
  · rw [heq]; exact ⟨rfl, rfl, rfl, rfl⟩
  · rw [heq]; exact ⟨rfl, rfl, rfl, rfl⟩
  · simp [heq, hmotion] at h

/-- A packet without a button event moves the mouse. -/
theorem packetToEvent_motion (h : (event tol xLen pkt g).isButton = false) :
    Moved tol pkt g (packetToEvent tol xLen pkt g).2 (event tol xLen pkt g = .tolFail) ∧
      (packetToEvent tol xLen pkt g).2.xDesl = g.xDesl + pkt.deltaX ∧
      (event tol xLen pkt g = .lineC → (xLen : ℤ) ≤ (packetToEvent tol xLen pkt g).2.xDesl) := by
  unfold event at h ⊢
  rcases packetToEvent_cases tol xLen pkt g with
    ⟨-, -, heq⟩ | ⟨-, -, heq⟩ | ⟨-, -, -, heq⟩ | ⟨-, -, -, heq⟩ | ⟨-, -, e, g', heq, -, hmotion⟩
  · simp [heq, Event.isButton] at h
  · simp [heq, Event.isButton] at h
  · simp [heq, Event.isButton] at h
  · simp [heq, Event.isButton] at h
  · rw [heq]
    exact hmotion

theorem currState_packetToEvent (tol xLen : ℕ) (pkt : Packet) (g : Tracker) :
    (packetToEvent tol xLen pkt g).2.currState = g.currState := by
  cases h : (event tol xLen pkt g).isButton with
  | true => exact (packetToEvent_button h).1
  | false => exact (packetToEvent_motion h).1.currState

end

/-! ### Reactions -/

/-- A button with which a line is drawn: its events, the other button, the states in which the line
is drawn and in which it is complete, the one that follows, and the direction in which the line does
not go. -/
structure Hand where
  down : Event
  up : Event
  otherDown : Event
  other : Packet → Bool
  draw : State
  done : State
  next : State
  back : Packet → ℤ

/-- The left button. -/
def leftHand : Hand :=
  { down := .leftDown, up := .leftUp, otherDown := .rightDown, other := Packet.rb
    draw := .drawLeft, done := .leftDone, next := .vertex, back := backY }

/-- The right button. -/
def rightHand : Hand :=
  { down := .rightDown, up := .rightUp, otherDown := .leftDown, other := Packet.lb
    draw := .drawRight, done := .rightDone, next := .exit, back := upY }

section

variable {k : Hand} {e : Event} {g : Tracker}

/-- A line that is long enough is complete, or has to be drawn from here; any other goes on. -/
theorem respond_lineC {s d : State} {ok : Prop} [Decidable ok] (hs : g.currState = s)
    (hfail : e ≠ .tolFail) :
    let g' := if e = .lineC then if ok then g.enter d else g.resetData else g
    (g'.currState = s ∧ (g'.Fresh ∨ g' = g ∧ e ≠ .tolFail ∧ e ≠ .lineC)) ∨
      (g'.currState = d ∧ g'.Fresh ∧ e = .lineC) := by
  dsimp only
  split
  · next hline =>
    split
    · exact Or.inr ⟨rfl, Tracker.fresh_enter g d, hline⟩
    · exact Or.inl ⟨hs, Or.inl (Tracker.fresh_resetData g)⟩
  · next hline => exact Or.inl ⟨hs, Or.inr ⟨rfl, hfail, hline⟩⟩

/-- While a line is drawn: it goes on, from its start or from where it is, it is complete, or it is
given up. -/
theorem respond_draw (hk : k = leftHand ∨ k = rightHand) (hs : g.currState = k.draw) :
    ((respond e g).currState = k.draw ∧
        ((respond e g).Fresh ∨ respond e g = g ∧ e ≠ .tolFail ∧ e ≠ .lineC)) ∨
      ((respond e g).currState = k.done ∧ (respond e g).Fresh ∧ e = .lineC) ∨
      (respond e g).currState = .initial := by
  rcases hk with rfl | rfl <;> rw [respond, hs] <;> dsimp only [leftHand, rightHand] at hs ⊢
  · split
    · exact Or.inr (Or.inr rfl)
    · split
      · exact Or.inl ⟨hs, Or.inl (Tracker.fresh_resetData g)⟩
      · next hfail => exact (respond_lineC hs hfail).imp_right Or.inl
  · split
    · exact Or.inr (Or.inr rfl)
    · split
      · exact Or.inr (Or.inr rfl)
      · next hfail => exact (respond_lineC hs hfail).imp_right Or.inl

/-- When a line is complete: nothing happens, it has to be drawn again, its button is released, or
it is given up, as it is for the other button. -/
theorem respond_done (hk : k = leftHand ∨ k = rightHand) (hs : g.currState = k.done) :
    ((respond e g).currState = k.done ∧ e ≠ k.otherDown) ∨
      ((respond e g).currState = k.draw ∧ (respond e g).Fresh ∧ e = .tolFail) ∨
      ((respond e g).currState = k.next ∧ (respond e g).Fresh ∧ e = k.up) ∨
      (respond e g).currState = .initial := by
  rcases hk with rfl | rfl <;> rw [respond, hs] <;> dsimp only [leftHand, rightHand] at hs ⊢
  · split
    · next hup => exact Or.inr (Or.inr (Or.inl ⟨rfl, Tracker.fresh_enter g _, hup⟩))
    · split
      · next hfail => exact Or.inr (Or.inl ⟨rfl, Tracker.fresh_enter g _, hfail⟩)
      · split
        · exact Or.inr (Or.inr (Or.inr rfl))
        · next hother => exact Or.inl ⟨hs, hother⟩
  · split
    · next hup => exact Or.inr (Or.inr (Or.inl ⟨rfl, Tracker.fresh_enter g _, hup⟩))
    · split
      · exact Or.inr (Or.inr (Or.inr rfl))
      · split
        · exact Or.inr (Or.inr (Or.inr rfl))
        · next hother => exact Or.inl ⟨hs, hother⟩

/-- Between the lines. -/
theorem respond_vertex (hs : g.currState = .vertex) :
    ((respond e g).currState = .vertex ∧ g.SameSums (respond e g) ∧ e ≠ .tolFail) ∨
      ((respond e g).currState = .drawRight ∧ (respond e g).Fresh ∧ e = .rightDown) ∨
      ((respond e g).currState = .drawLeft ∧ (respond e g).Fresh ∧ e = .leftDown) ∨
      (respond e g).currState = .initial := by
  rw [respond, hs]
  dsimp only
  split
  · next hdown => exact Or.inr (Or.inl ⟨rfl, Tracker.fresh_enter _ _, hdown⟩)
  · split
    · next hdown => exact Or.inr (Or.inr (Or.inl ⟨rfl, Tracker.fresh_enter _ _, hdown⟩))
    · split
      · exact Or.inr (Or.inr (Or.inr rfl))
      · next hfail => exact Or.inl ⟨rfl, ⟨rfl, rfl, rfl⟩, hfail⟩

/-- Before the gesture. -/
theorem respond_initial (hs : g.currState = .initial) :
    ((respond e g).currState = .drawLeft ∧ (respond e g).Fresh ∧ e = .leftDown) ∨
      (respond e g).currState = .initial := by
  rw [respond, hs]
  dsimp only
  split
  · next hdown => exact Or.inl ⟨rfl, Tracker.fresh_enter _ _, hdown⟩
  · exact Or.inr hs

/-- **`EXIT` is never left.** -/
theorem respond_exit (hs : g.currState = .exit) : respond e g = g := by
  rw [respond, hs]

end

end Lab4

end OperationMinix
