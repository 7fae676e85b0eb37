import OperationMinix.Runs.Machine
import Mathlib.Logic.Function.Basic

/-!
# Two endpoints on a duplex line

Two copies of one endpoint exchange messages over two lossless FIFO channels.
An endpoint makes local steps, each of which may send messages, and takes in the
messages that arrive.  The two sides are interchangeable: the state is indexed
by `Side`, so a statement about one side is a statement about both.

What a side has not looked at yet is split between its own inbox and the
channel towards it.  Most invariants do not care where the split is:
`Duplex.pending` joins the two, and a delivery leaves it alone.

## Main definitions

* `Endpoint`, `Duplex`, `Endpoint.machine` — the endpoint, the state of the pair
  and the machine of their steps.
* `Duplex.pending` — what is on its way to a side, its inbox included.
-/

namespace Runs

/-- One of the two ends of the line. -/
inductive Side where
  | left
  | right
  deriving DecidableEq, Repr

/-- The opposite end. -/
def Side.other : Side → Side
  | left => right
  | right => left

namespace Side

@[simp] theorem other_other (p : Side) : p.other.other = p := by cases p <;> rfl

@[simp] theorem other_ne (p : Side) : p.other ≠ p := by cases p <;> decide

@[simp] theorem ne_other (p : Side) : p ≠ p.other := by cases p <;> decide

theorem eq_or_eq_other (p q : Side) : p = q ∨ p = q.other := by
  cases p <;> cases q <;> decide

end Side

/-- An endpoint: its local steps, with the messages each of them sends, and what
an arriving message does to it. -/
structure Endpoint (P I M : Type*) where
  /-- One local step and the messages it sends, oldest first. -/
  act : P → I → Option (P × List M)
  /-- The endpoint after a message has arrived. -/
  receive : P → M → P

/-- The state of the pair. -/
structure Duplex (P M : Type*) where
  /-- The endpoint on each side. -/
  peer : Side → P
  /-- The messages in flight towards each side, oldest first. -/
  wire : Side → List M

/-- What can happen next: a local step of one side, or the delivery of the oldest
message in flight towards it. -/
inductive Event (I : Type*) where
  | act (p : Side) (i : I)
  | deliver (p : Side)

variable {P I M E : Type*}

namespace Duplex

/-- The pair after side `p` has become `x` and sent `ms`. -/
def afterAct (s : Duplex P M) (p : Side) (x : P) (ms : List M) : Duplex P M :=
  { peer := Function.update s.peer p x
    wire := Function.update s.wire p.other (s.wire p.other ++ ms) }

/-- The pair after side `p` has become `x` by taking a message in and leaving `ms`
in flight. -/
def afterDeliver (s : Duplex P M) (p : Side) (x : P) (ms : List M) : Duplex P M :=
  { peer := Function.update s.peer p x
    wire := Function.update s.wire p ms }

end Duplex

/-- The machine of the pair: the steps of the two sides and the deliveries, in
any order. -/
def Endpoint.machine (A : Endpoint P I M) : Machine (Duplex P M) (Event I) where
  step s
    | .act p i => (A.act (s.peer p) i).map fun r => s.afterAct p r.1 r.2
    | .deliver p =>
        match s.wire p with
        | [] => none
        | m :: ms => some (s.afterDeliver p (A.receive (s.peer p) m) ms)

namespace Duplex

/-- A step of the pair, once and for all: one side acts, or one message arrives. -/
theorem step_cases {A : Endpoint P I M} {s t : Duplex P M} {e : Event I}
    (h : A.machine.step s e = some t) :
    (∃ p i q ms, e = .act p i ∧ A.act (s.peer p) i = some (q, ms) ∧ t = s.afterAct p q ms) ∨
    (∃ p m ms, e = .deliver p ∧ s.wire p = m :: ms ∧
      t = s.afterDeliver p (A.receive (s.peer p) m) ms) := by
  cases e with
  | act p i =>
    simp only [Endpoint.machine, Option.map_eq_some_iff] at h
    obtain ⟨⟨q, ms⟩, hq, rfl⟩ := h
    exact Or.inl ⟨p, i, q, ms, rfl, hq, rfl⟩
  | deliver p =>
    simp only [Endpoint.machine] at h
    split at h
    · cases h
    · next m ms hw =>
      cases h
      exact Or.inr ⟨p, m, ms, rfl, hw, rfl⟩

section

variable {s : Duplex P M} {p : Side} {x : P} {ms : List M}

@[simp] theorem afterAct_self : (s.afterAct p x ms).peer p = x := by simp [afterAct]

@[simp] theorem afterAct_other : (s.afterAct p x ms).peer p.other = s.peer p.other := by
  simp [afterAct]

@[simp] theorem afterDeliver_self : (s.afterDeliver p x ms).peer p = x := by simp [afterDeliver]

@[simp] theorem afterDeliver_other : (s.afterDeliver p x ms).peer p.other = s.peer p.other := by
  simp [afterDeliver]

end

/-- What side `p` has not looked at yet: its inbox, then what is in flight. -/
def pending (inbox : P → List E) (enc : M → E) (s : Duplex P M) (p : Side) : List E :=
  inbox (s.peer p) ++ (s.wire p).map enc

variable {inbox : P → List E} {enc : M → E}

/-- A delivery moves a message from the channel to the inbox behind it. -/
theorem pending_deliver {A : Endpoint P I M} {s : Duplex P M} {p : Side} {m : M} {ms : List M}
    (hin : ∀ x, inbox (A.receive x m) = inbox x ++ [enc m]) (hw : s.wire p = m :: ms) (q : Side) :
    pending inbox enc (s.afterDeliver p (A.receive (s.peer p) m) ms) q =
      pending inbox enc s q := by
  rcases Side.eq_or_eq_other q p with rfl | rfl
  · simp [pending, afterDeliver, hin, hw]
  · simp [pending, afterDeliver]

/-- A step of `p` reads from its own inbox only. -/
theorem pending_act_self (s : Duplex P M) (p : Side) (x : P) (ms : List M) :
    pending inbox enc (s.afterAct p x ms) p = inbox x ++ (s.wire p).map enc := by
  simp [pending, afterAct]

/-- A step of `p` sends to the other side only. -/
theorem pending_act_other (s : Duplex P M) (p : Side) (x : P) (ms : List M) :
    pending inbox enc (s.afterAct p x ms) p.other =
      pending inbox enc s p.other ++ ms.map enc := by
  simp [pending, afterAct]

end Duplex

end Runs
