import OperationMinix.Game.Discipline
import OperationMinix.Game.Everyone
import OperationMinix.Lib.Receive
import OperationMinix.Lib.RtcController
import OperationMinix.Networking.Stranded
import OperationMinix.Runs.Refine

/-!
# The main loop

`interrupt_handler` waits for a notification and calls the handlers of the interrupts that are in
it: mouse, keyboard, serial port, clock chip and timer, in this order.  It ends when the last
byte from the keyboard is the break code of the escape key, or when a click has ended the
program.

A notification can carry any of the five interrupts, so one turn of the loop is several inputs of
the game, or none: a mouse packet comes with every third byte, a scan code may take two, and the
serial port may have any number of bytes.  Here the handlers are put together from what the
devices answer, and the loop is shown to make nothing but runs of `gameMachine`, so that what
always holds there holds of the program.

## Main definitions

* `Interrupts`, `Message` — what `driver_receive` brings, with the answers of the devices.
* `Program`, `interruptHandler` — everything the loop works on, and its turns.

## Main results

* `uartIh_inFifo` — the serial port only adds to the receive queue.
* `interruptHandler_refines` — a turn of the loop is a run of the game.
* `main_loop_runs` — **the loop runs the game**, with one tick for every interrupt of the timer.
* `no_stuck_keys` — **no control is on whose key is up.**
-/

namespace OperationMinix

open Runs

set_option linter.unusedSectionVars false

/-! ### Messages -/

/-- The chip of the serial port when its interrupt is handled. -/
structure UartIrq (σ : Type*) where
  dev : σ
  /-- The rounds that the handler makes at most. -/
  fuel : ℕ
  /-- What the variable `byte` holds that nothing has been assigned to. -/
  unassigned : Byte

/-- The clock chip when its interrupt is handled, and what its register C reads. -/
structure RtcIrq where
  cause : Option Byte
  chip : RtcChip

/-- The interrupts of a notification. -/
structure Interrupts (K σ : Type*) where
  mouse : Option MouseIrq
  kbd : Option KbdIrq
  uart : Option (UartIrq σ)
  rtc : Option RtcIrq
  timer : Option (Tick K)

/-- What `driver_receive` brings. -/
inductive Message (K σ : Type*) where
  /-- An error, or a message that is not a notification of the hardware. -/
  | other
  | hardware (i : Interrupts K σ)

/-- What the loop works on. -/
structure Program (K σ : Type*) where
  game : Game K
  mouse : Mouse
  keyboard : Keyboard
  /-- The serial port; its receive queue is the one of the game. -/
  uart : Uart σ
  currDate : Date

section Model

variable {K σ : Type*} [Field K] [LinearOrder K] [FloorRing K]

/-! ### The handlers -/

/-- `handle_mouse_evt`, when its interrupt is set. -/
def onMouse (v : VideoMode) (irq : Option MouseIrq) (s : Program K σ) : Option (Program K σ) :=
  match irq with
  | none => some s
  | some irq =>
    (handleMouseEvt v irq s.mouse s.game).map fun r => { s with mouse := r.1, game := r.2 }

/-- `handle_kbd_evt`, when its interrupt is set. -/
def onKbd (irq : Option KbdIrq) (s : Program K σ) : Option (Program K σ) :=
  match irq with
  | none => some s
  | some irq =>
    (handleKbdEvt irq s.keyboard s.game).map fun r => { s with keyboard := r.1, game := r.2 }

/-- `uart_ih`, when its interrupt is set. -/
def onUart (d : Device σ) (irq : Option (UartIrq σ)) (s : Program K σ) : Option (Program K σ) :=
  match irq with
  | none => some s
  | some irq =>
    (uartIh d irq.fuel irq.unassigned
      { s.uart with dev := irq.dev, inFifo := s.game.net.inFifo }).map fun u =>
        { s with uart := u, game := { s.game with net := { s.game.net with inFifo := u.inFifo } } }

/-- `rtc_ih`, when its interrupt is set. -/
def onRtc (configA : Byte) (irq : Option RtcIrq) (s : Program K σ) : Program K σ :=
  match irq.bind fun irq => irq.cause.map fun cause => (cause, irq.chip) with
  | none => s
  | some (cause, chip) =>
    { s with
      game := rtcIh cause s.game
      currDate := (updateHandler configA cause s.currDate chip).1 }

/-- `timer_int_handler` and `game_handler`, when the interrupt of the timer is set; the calls that
are made on the driver are made when the game has made them. -/
def onTimer (c : Setting K) (d : Device σ) (tick : Option (Tick K)) (s : Program K σ) :
    Option (Program K σ) :=
  match tick with
  | none => some s
  | some t =>
    (gameHandler c t (timerIntHandler s.game)).toOption.map fun g =>
      { s with
        game := g
        uart := performCalls d (g.net.calls.drop s.game.net.calls.length) s.uart }

/-- The interrupts of a notification, one after the other. -/
def handleInterrupts (c : Setting K) (v : VideoMode) (d : Device σ) (configA : Byte)
    (i : Interrupts K σ) (s : Program K σ) : Option (Program K σ) :=
  (onMouse v i.mouse s).bind fun s => (onKbd i.kbd s).bind fun s => (onUart d i.uart s).bind
    fun s => onTimer c d i.timer (onRtc configA i.rtc s)

/-- `interrupt_handler`, turn by turn. -/
def interruptHandler (c : Setting K) (v : VideoMode) (d : Device σ) (configA : Byte) :
    Machine (Program K σ) (Message K σ) where
  step s msg :=
    if s.keyboard.lastKbByte = breakcodeEsc ∨ s.game.state = .exit then none
    else match msg with
      | .other => some s
      | .hardware i => handleInterrupts c v d configA i s

/-- The program when the loop begins. -/
def Program.start (w : World K) (rtc : Rtc) (dev : σ) (currDate : Date) : Program K σ :=
  { game := Game.start w rtc, mouse := .init, keyboard := .init, uart := .init dev, currDate }

/-! ### What is shown -/

/-- The timer and the clock chip, as the game sees them. -/
def GameInput.shown : GameInput K → List (Byte ⊕ Tick K)
  | .rtc cause => [.inl cause]
  | .tick t => [.inr t]
  | _ => []

/-- The timer and the clock chip, as the loop sees them. -/
def Message.shown : Message K σ → List (Byte ⊕ Tick K)
  | .other => []
  | .hardware i => ((i.rtc.bind RtcIrq.cause).map Sum.inl).toList ++ (i.timer.map Sum.inr).toList

end Model

/-! ### The serial port -/

section Uart

variable {σ : Type*} {d : Device σ}

theorem recvCase_inFifo : ∀ (fuel : ℕ) (byte : Byte) (u : Uart σ) (r : Byte × Uart σ),
    recvCase d fuel byte u = some r → u.inFifo <+: r.2.inFifo := by
  intro fuel
  induction fuel with
  | zero => intro byte u r h; cases h
  | succ fuel ih =>
    intro byte u r h
    unfold recvCase at h
    dsimp only at h
    split at h
    · cases h
      exact List.prefix_refl _
    · exact (List.prefix_append _ _).trans (ih _ _ _ h)
    · exact (List.prefix_append _ _).trans (ih _ _ _ h)

theorem drainOut_inFifo (q : List Byte) : ∀ u : Uart σ, (drainOut d q u).inFifo = u.inFifo := by
  induction q with
  | nil => intro u; rfl
  | cons b q ih =>
    intro u
    obtain ⟨s, hs | hs⟩ := uartSendByte_cases (d := d) b u
    · rw [drainOut, hs, if_pos rfl, ih]
    · rw [drainOut, hs, if_neg (by simp)]

/-- **The interrupt handler only adds to the receive queue.** -/
theorem uartIh_inFifo {fuel : ℕ} {byte : Byte} {u v : Uart σ} (h : uartIh d fuel byte u = some v) :
    u.inFifo <+: v.inFifo := by
  refine uartIh_induction (J := fun v => u.inFifo <+: v.inFifo) (fun v hv _ => hv)
    (fun v hv _ => ?_) (fun v hv => hv) (fun fuel byte v r hv hr => ?_) fuel byte u v
    (List.prefix_refl _) h
  · unfold trnsmtEmptyCase
    split
    · exact hv
    · exact (drainOut_inFifo _ _).symm ▸ hv
  · exact hv.trans (recvCase_inFifo fuel byte v r hr)

end Uart

section Model

variable {K σ : Type*} [Field K] [LinearOrder K] [FloorRing K] {c : Setting K} {v : VideoMode}
  {d : Device σ} {configA : Byte} {s s' : Program K σ}

/-! ### The handlers are runs of the game -/

/-- The mouse has an unfinished packet, or none. -/
def Program.Ready (s : Program K σ) : Prop := ∃ part, s.mouse.Holds part

/-- A handler before the timer makes a run of the game that shows `as`. -/
structure Serves (c : Setting K) (as : List (Byte ⊕ Tick K)) (s s' : Program K σ) : Prop where
  reaches : (gameMachine c).Reaches GameInput.shown s.game as s'.game
  state : s'.game.state = s.game.state
  ready : s.Ready → s'.Ready

namespace Serves

theorem refl (s : Program K σ) : Serves c [] s s := ⟨.refl _, rfl, id⟩

theorem trans {s'' : Program K σ} {as bs : List (Byte ⊕ Tick K)} (h : Serves c as s s')
    (h' : Serves c bs s' s'') : Serves c (as ++ bs) s s'' :=
  ⟨h.reaches.trans h'.reaches, h'.state.trans h.state, fun hs => h'.ready (h.ready hs)⟩

end Serves

theorem onMouse_handled {irq : Option MouseIrq} (hst : s.game.state ≠ .exit)
    (h : onMouse v irq s = some s') : Serves c [] s s' := by
  cases irq with
  | none =>
    cases h
    exact .refl s
  | some irq =>
    obtain ⟨⟨m, g⟩, hevt, rfl⟩ := Option.map_eq_some_iff.mp h
    have hready : s.Ready → Program.Ready { s with mouse := m, game := g } := by
      rintro ⟨part, hpart⟩
      obtain ⟨m', g', hevt', hpart', -⟩ := handleMouseEvt_read v irq s.game hpart
      obtain ⟨rfl, rfl⟩ := Prod.mk.inj (Option.some.inj (hevt'.symm.trans hevt))
      exact ⟨_, hpart'⟩
    rcases handleMouseEvt_game c hst hevt with rfl | hstep
    · exact ⟨.refl _, rfl, hready⟩
    · refine ⟨.step hstep, ?_, hready⟩
      simp only [gameMachine, if_neg hst] at hstep
      cases hstep
      rfl

theorem onKbd_handled {irq : Option KbdIrq} (hst : s.game.state ≠ .exit)
    (h : onKbd irq s = some s') : Serves c [] s s' := by
  cases irq with
  | none =>
    cases h
    exact .refl s
  | some irq =>
    obtain ⟨⟨k, g⟩, hevt, rfl⟩ := Option.map_eq_some_iff.mp h
    obtain ⟨k', g', hevt', -, hcases⟩ := handleKbdEvt_spec irq s.keyboard s.game
    obtain ⟨rfl, rfl⟩ := Prod.mk.inj (Option.some.inj (hevt'.symm.trans hevt))
    rcases hcases with ⟨-, rfl⟩ | ⟨b, keys, -, -, -, rfl⟩
    · exact ⟨.refl _, rfl, id⟩
    · exact ⟨.step (i := GameInput.kbd keys) (if_neg hst), rfl, id⟩

/-- The entries that come in are put into the queue one by one. -/
theorem recv_reaches : ∀ (es : List Entry) (g : Game K), g.state ≠ .exit →
    (gameMachine c).Reaches GameInput.shown g []
      { g with net := { g.net with inFifo := g.net.inFifo ++ es } } := by
  intro es
  induction es with
  | nil =>
    intro g _
    rw [List.append_nil]
    exact .refl g
  | cons e es ih =>
    intro g hst
    have hone : (gameMachine c).Reaches GameInput.shown g []
        { g with net := { g.net with inFifo := g.net.inFifo ++ [e] } } :=
      .step (i := GameInput.recv e) (if_neg hst)
    have hrest := ih { g with net := { g.net with inFifo := g.net.inFifo ++ [e] } } hst
    rw [List.append_assoc, List.singleton_append] at hrest
    exact hone.trans hrest

theorem onUart_handled {irq : Option (UartIrq σ)} (hst : s.game.state ≠ .exit)
    (h : onUart d irq s = some s') : Serves c [] s s' := by
  cases irq with
  | none =>
    cases h
    exact .refl s
  | some irq =>
    obtain ⟨u, hih, rfl⟩ := Option.map_eq_some_iff.mp h
    obtain ⟨es, hes⟩ := uartIh_inFifo hih
    refine ⟨?_, rfl, id⟩
    dsimp only at hes ⊢
    rw [← hes]
    exact recv_reaches es s.game hst

theorem onRtc_handled {irq : Option RtcIrq} (hst : s.game.state ≠ .exit) :
    Serves c ((irq.bind RtcIrq.cause).map Sum.inl).toList s (onRtc configA irq s) := by
  cases irq with
  | none => exact .refl s
  | some irq =>
    obtain ⟨cause, chip⟩ := irq
    cases cause with
    | none => exact .refl s
    | some cause =>
      refine ⟨.step (i := GameInput.rtc cause) (if_neg hst), ?_, id⟩
      show (rtcIh cause s.game).state = s.game.state
      unfold rtcIh
      split_ifs <;> rfl

theorem onTimer_reaches {tick : Option (Tick K)} (hst : s.game.state ≠ .exit)
    (h : onTimer c d tick s = some s') :
    (gameMachine c).Reaches GameInput.shown s.game (tick.map Sum.inr).toList s'.game := by
  cases tick with
  | none =>
    cases h
    exact .refl _
  | some t =>
    obtain ⟨g, hg, rfl⟩ := Option.map_eq_some_iff.mp h
    exact .step (i := GameInput.tick t) ((if_neg hst).trans hg)

theorem onTimer_mouse {tick : Option (Tick K)} (h : onTimer c d tick s = some s') :
    s'.mouse = s.mouse ∧ s'.keyboard = s.keyboard := by
  cases tick with
  | none =>
    cases h
    exact ⟨rfl, rfl⟩
  | some t =>
    obtain ⟨g, -, rfl⟩ := Option.map_eq_some_iff.mp h
    exact ⟨rfl, rfl⟩

/-- **What a turn of the loop is made of**: the handlers of the notification, and before that of
the timer they make a run of the game. -/
theorem interruptHandler_cases {msg : Message K σ}
    (h : (interruptHandler c v d configA).step s msg = some s') :
    s.game.state ≠ .exit ∧ (msg = .other ∧ s' = s ∨ ∃ i s₁ s₂ s₃, msg = .hardware i ∧
      (onMouse v i.mouse s = some s₁ ∧ onKbd i.kbd s₁ = some s₂ ∧ onUart d i.uart s₂ = some s₃) ∧
      Serves c ((i.rtc.bind RtcIrq.cause).map Sum.inl).toList s (onRtc configA i.rtc s₃) ∧
      onTimer c d i.timer (onRtc configA i.rtc s₃) = some s') := by
  simp only [interruptHandler] at h
  split at h
  · cases h
  · next hgo =>
    rw [not_or] at hgo
    refine ⟨hgo.2, ?_⟩
    cases msg with
    | other =>
      cases h
      exact Or.inl ⟨rfl, rfl⟩
    | hardware i =>
      obtain ⟨s₁, hmouse, h⟩ := Option.bind_eq_some_iff.mp h
      obtain ⟨s₂, hkbd, h⟩ := Option.bind_eq_some_iff.mp h
      obtain ⟨s₃, huart, h⟩ := Option.bind_eq_some_iff.mp h
      have h₁ : Serves c [] s s₁ := onMouse_handled hgo.2 hmouse
      have h₂ := h₁.trans (onKbd_handled (h₁.state ▸ hgo.2) hkbd)
      have h₃ := h₂.trans (onUart_handled (h₂.state ▸ hgo.2) huart)
      have h₄ : Serves c _ s (onRtc configA i.rtc s₃) :=
        h₃.trans (onRtc_handled (h₃.state ▸ hgo.2))
      exact Or.inr ⟨i, s₁, s₂, s₃, rfl, ⟨hmouse, hkbd, huart⟩, h₄, h⟩

/-- **What a turn of the loop does.** -/
theorem interruptHandler_step {msg : Message K σ}
    (h : (interruptHandler c v d configA).step s msg = some s') :
    (gameMachine c).Reaches GameInput.shown s.game msg.shown s'.game ∧ (s.Ready → s'.Ready) := by
  obtain ⟨hst, ⟨rfl, rfl⟩ | ⟨i, s₁, s₂, s₃, rfl, -, hserves, htimer⟩⟩ := interruptHandler_cases h
  · exact ⟨.refl _, id⟩
  · refine ⟨hserves.reaches.trans (onTimer_reaches (hserves.state ▸ hst) htimer), fun hs => ?_⟩
    unfold Program.Ready
    rw [(onTimer_mouse htimer).1]
    exact hserves.ready hs

/-- **A turn of the loop is a run of the game.** -/
theorem interruptHandler_refines : Machine.Refines (gameMachine c) (interruptHandler c v d configA)
    Program.game GameInput.shown Message.shown Program.Ready :=
  ⟨fun _ _ _ hs h => (interruptHandler_step h).2 hs, fun _ _ _ _ h => (interruptHandler_step h).1⟩

/-! ### What ends the loop -/

/-- A handler does not return: the serial port has further interrupts after all rounds, or the tick,
which the other handlers have come before, reads outside of a string or waits for a line that does
not fall silent. -/
def Blocks (c : Setting K) (v : VideoMode) (d : Device σ) (configA : Byte) (s : Program K σ)
    (i : Interrupts K σ) : Prop :=
  (∃ irq, i.uart = some irq ∧ uartIh d irq.fuel irq.unassigned
    { s.uart with dev := irq.dev, inFifo := s.game.net.inFifo } = none) ∨
  ∃ s₁ s₂ s₃ t fault, onMouse v i.mouse s = some s₁ ∧ onKbd i.kbd s₁ = some s₂ ∧
    onUart d i.uart s₂ = some s₃ ∧ i.timer = some t ∧
    gameHandler c t (timerIntHandler (onRtc configA i.rtc s₃).game) = .error fault

/-- Neither the mouse nor the keyboard can fail, and they leave the serial port alone. -/
theorem handlers_ready (c : Setting K) (hs : s.Ready) (hst : s.game.state ≠ .exit)
    (i : Interrupts K σ) :
    ∃ s₁ s₂, onMouse v i.mouse s = some s₁ ∧ onKbd i.kbd s₁ = some s₂ ∧ s₂.uart = s.uart ∧
      s₂.game.net = s.game.net := by
  obtain ⟨s₁, hmouse, huart₁, hnet₁⟩ : ∃ s₁, onMouse v i.mouse s = some s₁ ∧
      s₁.uart = s.uart ∧ s₁.game.net = s.game.net := by
    cases i.mouse with
    | none => exact ⟨s, rfl, rfl, rfl⟩
    | some irq =>
      obtain ⟨part, hpart⟩ := hs
      obtain ⟨m, g, hevt, -⟩ := handleMouseEvt_read v irq s.game hpart
      refine ⟨{ s with mouse := m, game := g }, by rw [onMouse, hevt]; rfl, rfl, ?_⟩
      rcases handleMouseEvt_game c hst hevt with rfl | hstep
      · rfl
      · simp only [gameMachine, if_neg hst] at hstep
        cases hstep
        rfl
  obtain ⟨s₂, hkbd, huart₂, hnet₂⟩ : ∃ s₂, onKbd i.kbd s₁ = some s₂ ∧
      s₂.uart = s₁.uart ∧ s₂.game.net = s₁.game.net := by
    cases i.kbd with
    | none => exact ⟨s₁, rfl, rfl, rfl⟩
    | some irq =>
      obtain ⟨k, g, hevt, -, hcases⟩ := handleKbdEvt_spec irq s₁.keyboard s₁.game
      refine ⟨{ s₁ with keyboard := k, game := g }, by rw [onKbd, hevt]; rfl, rfl, ?_⟩
      rcases hcases with ⟨-, rfl⟩ | ⟨b, keys, -, -, -, rfl⟩ <;> rfl
  exact ⟨s₁, s₂, hmouse, hkbd, huart₂.trans huart₁, hnet₂.trans hnet₁⟩

/-- A notification is not dealt with exactly when a handler does not return. -/
theorem handleInterrupts_none (hs : s.Ready) (hst : s.game.state ≠ .exit) {i : Interrupts K σ} :
    handleInterrupts c v d configA i s = none ↔ Blocks c v d configA s i := by
  obtain ⟨s₁, s₂, hmouse, hkbd, hport, hnet⟩ := handlers_ready c hs hst i
  have hserial : onUart d i.uart s₂ = none ↔ ∃ irq, i.uart = some irq ∧
      uartIh d irq.fuel irq.unassigned
        { s.uart with dev := irq.dev, inFifo := s.game.net.inFifo } = none := by
    cases hirq : i.uart with
    | none => exact ⟨nofun, by rintro ⟨irq, h, -⟩; cases h⟩
    | some irq =>
      rw [onUart, Option.map_eq_none_iff, hport, hnet]
      exact ⟨fun h => ⟨irq, rfl, h⟩, by rintro ⟨irq', h, hih⟩; cases h; exact hih⟩
  have hbind : handleInterrupts c v d configA i s =
      (onUart d i.uart s₂).bind fun s₃ => onTimer c d i.timer (onRtc configA i.rtc s₃) := by
    rw [handleInterrupts, hmouse, Option.bind_some, hkbd, Option.bind_some]
  rw [hbind, Option.bind_eq_none_iff]
  constructor
  · intro h
    cases huart : onUart d i.uart s₂ with
    | none => exact Or.inl (hserial.mp huart)
    | some s₃ =>
      have hfail := h s₃ huart
      cases htick : i.timer with
      | none =>
        rw [htick] at hfail
        cases hfail
      | some t =>
        rw [htick, onTimer, Option.map_eq_none_iff] at hfail
        cases hg : gameHandler c t (timerIntHandler (onRtc configA i.rtc s₃).game) with
        | error fault => exact Or.inr ⟨s₁, s₂, s₃, t, fault, hmouse, hkbd, huart, htick, hg⟩
        | ok g =>
          rw [hg] at hfail
          cases hfail
  · rintro (hport' | ⟨s₁', s₂', s₃, t, fault, hmouse', hkbd', huart, htick, hg⟩) s' hs'
    · rw [hserial.mpr hport'] at hs'
      cases hs'
    · cases hmouse.symm.trans hmouse'
      cases hkbd.symm.trans hkbd'
      cases huart.symm.trans hs'
      rw [htick, onTimer, hg]
      rfl

/-- **The loop goes on** until the escape key is released or a click ends the program. -/
theorem interruptHandler_ends (hs : s.Ready) (msg : Message K σ) :
    (interruptHandler c v d configA).step s msg = none ↔
      (s.keyboard.lastKbByte = breakcodeEsc ∨ s.game.state = .exit) ∨
        ∃ i, msg = .hardware i ∧ Blocks c v d configA s i := by
  simp only [interruptHandler]
  split
  · next hend => exact iff_of_true rfl (Or.inl hend)
  · next hgo =>
    have hst : s.game.state ≠ .exit := fun h => hgo (Or.inr h)
    cases msg with
    | other =>
      refine iff_of_false nofun ?_
      rintro (h | ⟨i, h, -⟩)
      · exact hgo h
      · cases h
    | hardware i =>
      refine (handleInterrupts_none hs hst).trans ⟨fun h => Or.inr ⟨i, rfl, h⟩, ?_⟩
      rintro (h | ⟨i', h, hblocks⟩)
      · exact absurd h hgo
      · cases h
        exact hblocks

/-- **The main loop runs the game.**  Whatever messages come, whatever the devices answer, and
wherever a packet or a scan code is cut by them: whenever the loop comes round, the game is in a
state that the game machine reaches, with one tick for every interrupt of the timer and the same
causes of the clock chip, in this order; what always holds of the game machine holds of the
program; and the loop ends exactly when the escape key is released or a click ends the program, or
when the handler of the serial port or the tick that is due does not return. -/
theorem main_loop_runs (c : Setting K) (v : VideoMode) (d : Device σ) (configA : Byte) (w : World K)
    (rtc : Rtc) (dev : σ) (currDate : Date) (msgs : List (Message K σ)) {s : Program K σ}
    (h : (interruptHandler c v d configA).run (.start w rtc dev currDate) msgs = some s) :
    (∃ is, (gameMachine c).run (Game.start w rtc) is = some s.game ∧
      is.flatMap GameInput.shown = msgs.flatMap Message.shown) ∧
    (∀ P : Game K → Prop, (∀ is, (gameMachine c).Always P (Game.start w rtc) is) → P s.game) ∧
    ∀ msg, (interruptHandler c v d configA).step s msg = none ↔
      (s.keyboard.lastKbByte = breakcodeEsc ∨ s.game.state = .exit) ∨
        ∃ i, msg = .hardware i ∧ Blocks c v d configA s i := by
  have hstart : (Program.start w rtc dev currDate : Program K σ).Ready :=
    ⟨[], Mouse.holds_nil rfl⟩
  have hreach := interruptHandler_refines.run msgs _ s hstart h
  have hready := Machine.run_invariant_of_step (J := Program.Ready)
    (fun _ _ _ hs hstep => (interruptHandler_step hstep).2 hs) msgs hstart h
  exact ⟨hreach, fun P hP => hreach.always hP, interruptHandler_ends hready⟩

end Model

/-- What the keyboard controller answers when a byte has come from the keyboard. -/
def scanCode (b : Byte) : KbdIrq :=
  { status := some kbcOutBufferFull, unassigned := 0, data := some b }

/-- A key is pressed when the timer and the clock chip are due, nothing happens, and the escape key
is released. -/
def pressAndLeave : List (Message ℚ Script) :=
  [.hardware
    { mouse := none, kbd := some (scanCode 0x11)
      uart := some { dev := { data := none, rounds := [] }, fuel := 1, unassigned := 0 }
      rtc := some { cause := some rtcPf, chip := { regs := fun _ => 0, addr := 0 } }
      timer := some { polls := [], bots := fun _ => none } },
    .other,
    .hardware
      { mouse := none, kbd := some (scanCode breakcodeEsc), uart := none, rtc := none
        timer := none }]

/-- The loop of a key press in the main menu, which ends with the escape key. -/
theorem main_loop_runs_menu :
    ∃ s, (interruptHandler scene gameMode scriptDevice 0).run
        (.start emptyWorld { regA := 0, regB := 0, pieState := 0 } { data := none, rounds := [] }
          .zero) pressAndLeave = some s ∧ s.keyboard.lastKbByte = breakcodeEsc ∧
      ∃ is, (gameMachine scene).run (Game.start emptyWorld { regA := 0, regB := 0, pieState := 0 })
          is = some s.game ∧
        is.flatMap GameInput.shown = pressAndLeave.flatMap Message.shown :=
  ⟨_, rfl, rfl, (main_loop_runs scene gameMode scriptDevice 0 emptyWorld
    { regA := 0, regB := 0, pieState := 0 } { data := none, rounds := [] } .zero pressAndLeave
    rfl).1⟩

section Model

variable {K σ : Type*} [Field K] [LinearOrder K] [FloorRing K] {c : Setting K} {v : VideoMode}
  {d : Device σ} {configA : Byte} {s s' : Program K σ}

/-! ### The keys -/

/-- The keys that are on are down. -/
structure Keyed (codes : List Byte) (g : Game K) : Prop where
  level : Bodied (fun _ _ => True) g
  keys : Peopled (fun p => Down codes p.movm.kbdState) AnyPlayer g

/-- **The game does not press a key.** -/
theorem keys_rule (codes : List Byte) :
    PlayerRule c (fun p => Down codes p.movm.kbdState) AnyPlayer := by
  have hlook : LookRule (fun p : PlayerInfo K => Down codes p.movm.kbdState) AnyPlayer :=
    ⟨fun _ _ hp hq => hp.below hq, fun _ _ _ _ _ _ => trivial, fun _ _ _ _ => trivial⟩
  have hnone : ∀ i : Fin 10, (List.replicate 10 false).getD i.val false = false := by decide
  refine ⟨fun _ _ _ _ => trivial, fun _ _ hp hbelow => hp.below hbelow, fun p i _ hp => ?_,
    fun w r hw => hlook.tick hw c.toEnv r, fun a _ => ?_, fun _ _ _ => trivial⟩
  · rw [switchGun_kbdState]
    exact hp
  · refine ⟨List.length_replicate, fun ctl hon => ?_⟩
    cases ctl with
    | num i => exact absurd ((hnone i).symm.trans hon) nofun
    | _ => cases hon

namespace Keyed

variable {codes : List Byte} {g g' : Game K}

theorem start (w : World K) (rtc : Rtc) : Keyed codes (Game.start w rtc) :=
  ⟨bodied_start w rtc, .start w rtc⟩

theorem step (h : Keyed codes g) {i : GameInput K} (hi : ∀ k, i ≠ .kbd k)
    (hg : (gameMachine c).step g i = some g') : Keyed codes g' :=
  ⟨h.level.step level_rule hg, h.keys.step (keys_rule codes) h.level hi hg⟩

theorem scans (h : Keyed codes g) {b : Byte} {k : KbdCtrlState}
    (hk : g.world.player.movm.kbdState.Scans b k) : Keyed (codes ++ [b]) (kbdParseData k g) :=
  ⟨⟨h.level.level, fun _ => trivial⟩, h.keys.kbd fun _ hp heq => hp.scans (heq ▸ hk)⟩

end Keyed

/-- The handlers before the timer, for the keys. -/
theorem Keyed.handlers (c : Setting K) {i : Interrupts K σ} {s₁ s₂ s₃ : Program K σ}
    (hst : s.game.state ≠ .exit) (h : Keyed s.keyboard.codes s.game)
    (hmouse : onMouse v i.mouse s = some s₁) (hkbd : onKbd i.kbd s₁ = some s₂)
    (huart : onUart d i.uart s₂ = some s₃) :
    Keyed (onRtc configA i.rtc s₃).keyboard.codes (onRtc configA i.rtc s₃).game := by
  -- an event of the mouse is an input of the game that is no scan code
  have h₁ : Keyed s₁.keyboard.codes s₁.game := by
    cases hirq : i.mouse with
    | none =>
      rw [hirq] at hmouse
      cases hmouse
      exact h
    | some irq =>
      rw [hirq] at hmouse
      obtain ⟨⟨m, g⟩, hevt, rfl⟩ := Option.map_eq_some_iff.mp hmouse
      rcases handleMouseEvt_game c hst hevt with rfl | hstep
      · exact h
      · refine h.step ?_ hstep
        exact nofun
  -- a scan code comes to the codes and to the controls at once, or to neither
  have h₂ : Keyed s₂.keyboard.codes s₂.game := by
    cases hirq : i.kbd with
    | none =>
      rw [hirq] at hkbd
      cases hkbd
      exact h₁
    | some irq =>
      rw [hirq] at hkbd
      obtain ⟨⟨k, g⟩, hevt, rfl⟩ := Option.map_eq_some_iff.mp hkbd
      obtain ⟨k', g', hevt', -, hcases⟩ := handleKbdEvt_spec irq s₁.keyboard s₁.game
      obtain ⟨rfl, rfl⟩ := Prod.mk.inj (Option.some.inj (hevt'.symm.trans hevt))
      rcases hcases with ⟨hcodes, rfl⟩ | ⟨b, keys, -, hcodes, hscans, rfl⟩
      · dsimp only
        rw [hcodes]
        exact h₁
      · dsimp only
        rw [hcodes]
        exact h₁.scans hscans
  -- the serial port and the clock chip do not touch the controls
  have h₃ : Keyed s₃.keyboard.codes s₃.game := by
    cases hirq : i.uart with
    | none =>
      rw [hirq] at huart
      cases huart
      exact h₂
    | some irq =>
      rw [hirq] at huart
      obtain ⟨u, -, rfl⟩ := Option.map_eq_some_iff.mp huart
      exact ⟨h₂.level.congr rfl rfl ⟨rfl, rfl⟩, h₂.keys.congr rfl rfl rfl⟩
  unfold onRtc
  split
  · exact h₃
  · dsimp only
    unfold rtcIh
    split_ifs <;> exact ⟨h₃.level.congr rfl rfl ⟨rfl, rfl⟩, h₃.keys.congr rfl rfl rfl⟩

/-- **A turn of the loop** keeps the keys that are on down. -/
theorem Keyed.turn {msg : Message K σ} (h : Keyed s.keyboard.codes s.game)
    (hs : (interruptHandler c v d configA).step s msg = some s') :
    Keyed s'.keyboard.codes s'.game := by
  obtain ⟨hst, ⟨rfl, rfl⟩ | ⟨i, s₁, s₂, s₃, rfl, ⟨hmouse, hkbd, huart⟩, hserves, htimer⟩⟩ :=
    interruptHandler_cases hs
  · exact h
  · have h₄ : Keyed (onRtc configA i.rtc s₃).keyboard.codes (onRtc configA i.rtc s₃).game :=
      h.handlers c hst hmouse hkbd huart
    cases htick : i.timer with
    | none =>
      rw [htick] at htimer
      cases htimer
      exact h₄
    | some t =>
      rw [htick] at htimer
      obtain ⟨g, hg, rfl⟩ := Option.map_eq_some_iff.mp htimer
      have hst₄ : (onRtc configA i.rtc s₃).game.state ≠ .exit := hserves.state ▸ hst
      exact h₄.step (i := .tick t) nofun ((if_neg hst₄).trans hg)

/-- **No key is stuck.**  Whatever messages come and whatever the devices answer: whenever the loop
comes round while a game is on, a control of the local player that is on has a key whose last
scan code said that it was pressed. -/
theorem no_stuck_keys (c : Setting K) (v : VideoMode) (d : Device σ) (configA : Byte) (w : World K)
    (rtc : Rtc) (dev : σ) (currDate : Date) (msgs : List (Message K σ)) :
    (interruptHandler c v d configA).Always
      (fun s => Playing s.game → Down s.keyboard.codes s.game.world.player.movm.kbdState)
      (.start w rtc dev currDate) msgs :=
  Machine.always_of_step (J := fun s => Keyed s.keyboard.codes s.game) (fun _ h => h.keys.player)
    (fun _ _ _ h hs => h.turn hs) msgs (Keyed.start w rtc)

end Model

end OperationMinix
