import OperationMinix.Lib.Uart
import OperationMinix.Runs.Heap
import OperationMinix.Runs.Machine

/-!
# The linked queue

The queues of the serial port driver are linked lists.  `queue_pop` leaves `back` alone, so when
the last item has been removed it points to memory that has been freed; `queue_push` looks at
`front` first, and follows `back` only when there is an item.

The items are in a heap, which an allocator may give out again at any address that is not in use.
The queue object itself is kept apart from it.

## Main definitions

* `queuePush`, `queuePop`, `queueClean`, … — the functions, `none` when an access goes to an item
  that is not there.
* `QueueRep` — what the pointers and the heap are when the queue holds given items.
* `queueMachine`, `fifoMachine` — any calls in any order, on the linked queue and on a list.

## Main results

* `QueueRep.push`, `QueueRep.pop`, `QueueRep.clean` — what each function does to the items.
* `uartRecvFront_spec` — the driver takes the first item of the list.
* `queue_refines_fifo` — **every run of the linked queue is that of a list.**
-/

namespace OperationMinix

open Runs

/-- `queue_item_t`. -/
structure QueueItem where
  byte : Entry
  next : Ptr
  deriving DecidableEq, Repr

/-- `queue_t`. -/
structure Queue where
  front : Ptr
  back : Ptr
  deriving DecidableEq, Repr

/-- `queue_init`. -/
def queueInit : Queue := { front := none, back := none }

/-- `queue_push`. -/
def queuePush (m : Malloc QueueItem) (byte : Entry) (h : Heap QueueItem) (queue : Queue) :
    Option (Heap QueueItem × Queue) := do
  let (queueItem, h) := m.alloc h
  let h ← h.modify queueItem fun item => { item with byte := byte }
  let h ← h.modify queueItem fun item => { item with next := none }
  if queue.front = none then
    some (h, { front := queueItem, back := queueItem })
  else
    let h ← h.modify queue.back fun item => { item with next := queueItem }
    some (h, { queue with back := queueItem })

/-- `queue_front`. -/
def queueFront (h : Heap QueueItem) (queue : Queue) : Option Entry :=
  if queue.front = none then some 0 else (h.load queue.front).map QueueItem.byte

/-- `queue_pop`. -/
def queuePop (h : Heap QueueItem) (queue : Queue) : Option (Heap QueueItem × Queue) :=
  if queue.front = none then some (h, queue)
  else do
    let item := queue.front
    let front := (← h.load item).next
    let h ← h.free item
    some (h, { queue with front := front })

/-- `queue_empty`. -/
def queueEmpty (queue : Queue) : Bool := queue.front = none

/-- Every pass of the loop of `queue_clean` frees an item. -/
theorem size_queuePop_lt {h : Heap QueueItem} {queue : Queue} {r : Heap QueueItem × Queue}
    (hne : ¬ queueEmpty queue) (hpop : queuePop h queue = some r) : r.1.size < h.size := by
  have hfront : queue.front ≠ none := fun hnone => hne (decide_eq_true hnone)
  rw [queuePop, if_neg hfront] at hpop
  obtain ⟨item, -, hpop⟩ := Option.bind_eq_some_iff.mp hpop
  obtain ⟨h', hfree, hr⟩ := Option.bind_eq_some_iff.mp hpop
  rw [Option.some.injEq] at hr
  rw [← hr]
  exact Heap.size_free_lt hfree

/-- `queue_clean`. -/
def queueClean (h : Heap QueueItem) (queue : Queue) : Option (Heap QueueItem × Queue) :=
  if _ : queueEmpty queue then some (h, queue)
  else match _ : queuePop h queue with
    | none => none
    | some r => queueClean r.1 r.2
termination_by h.size
decreasing_by exact size_queuePop_lt ‹_› ‹_›

/-- `queue_delete`, which has the loop of `queue_clean` and then frees the queue object. -/
def queueDelete (h : Heap QueueItem) (queue : Queue) : Option (Heap QueueItem) :=
  (queueClean h queue).map Prod.fst

/-- `uart_recv_front`: what it stores through its argument, if it returns true. -/
def uartRecvFront (h : Heap QueueItem) (inFifo : Queue) :
    Option (Option Entry × Heap QueueItem × Queue) :=
  if queueEmpty inFifo then some (none, h, inFifo)
  else do
    let byte ← queueFront h inFifo
    let r ← queuePop h inFifo
    some (some byte, r)

/-! ### The items of a queue -/

/-- The queue leads through `cells`, and the rest of the heap is that of `h₀`. -/
structure QueueRep (h₀ h : Heap QueueItem) (queue : Queue) (cells : List (ℕ × QueueItem)) :
    Prop where
  chain : Chain QueueItem.next h queue.front cells none
  /-- The pointer to the last item counts only when there is one. -/
  back : ∀ c ∈ cells.getLast?, queue.back = some c.1
  own : ∀ c ∈ cells, h₀.cell c.1 = none
  frame : ∀ a ∉ cells.map Prod.fst, h.cell a = h₀.cell a

namespace QueueRep

variable {h₀ h : Heap QueueItem} {queue : Queue} {cells : List (ℕ × QueueItem)}

theorem init (h₀ : Heap QueueItem) : QueueRep h₀ h₀ queueInit [] :=
  ⟨rfl, nofun, nofun, fun _ _ => rfl⟩

theorem front_eq_none_iff (hr : QueueRep h₀ h queue cells) :
    queue.front = none ↔ cells = [] := by
  have hchain := hr.chain
  cases cells with
  | nil => exact iff_of_true hchain rfl
  | cons c cells =>
    rw [hchain.1]
    exact iff_of_false (Option.some_ne_none _) (List.cons_ne_nil _ _)

theorem queueEmpty_iff (hr : QueueRep h₀ h queue cells) : queueEmpty queue ↔ cells = [] := by
  rw [queueEmpty, decide_eq_true_eq, hr.front_eq_none_iff]

/-- The heap with the item that `queue_push` has made. -/
theorem queuePush_eq (m : Malloc QueueItem) (byte : Entry) (h : Heap QueueItem) (queue : Queue) :
    queuePush m byte h queue =
      let h' := h.update (m.place h) (some { byte := byte, next := none })
      let queueItem : Ptr := some (m.place h)
      if queue.front = none then some (h', { front := queueItem, back := queueItem })
      else (h'.modify queue.back fun item => { item with next := queueItem }).map
        fun h => (h, { queue with back := queueItem }) := by
  have hbyte := Heap.modify_of_cell (Heap.cell_update_self h (m.place h) (some (m.junk h)))
    fun item => { item with byte := byte }
  have hnext := Heap.modify_of_cell
    (Heap.cell_update_self h (m.place h) (some { m.junk h with byte := byte }))
    fun item => { item with next := none }
  rw [Heap.update_update] at hbyte hnext
  simp only [queuePush, Malloc.alloc, hbyte, hnext, Option.bind_eq_bind, Option.bind_some]
  split
  · rfl
  · rw [Option.map_eq_bind]
    rfl

/-- The address of a new item is not that of another one. -/
theorem place_notMem (hr : QueueRep h₀ h queue cells) (m : Malloc QueueItem) :
    m.place h ∉ cells.map Prod.fst := by
  intro hmem
  obtain ⟨c, hc, hplace⟩ := List.mem_map.mp hmem
  have hfresh := m.fresh h
  rw [← hplace, hr.chain.cell_of_mem hc] at hfresh
  cases hfresh

theorem place_free (hr : QueueRep h₀ h queue cells) (m : Malloc QueueItem) :
    h₀.cell (m.place h) = none :=
  (hr.frame _ (hr.place_notMem m)).symm.trans (m.fresh h)

/-- `queue_push` to an empty queue, whatever `back` is. -/
theorem push_nil (hr : QueueRep h₀ h queue []) (m : Malloc QueueItem) (byte : Entry) :
    ∃ h' queue', queuePush m byte h queue = some (h', queue') ∧
      QueueRep h₀ h' queue' [(m.place h, { byte := byte, next := none })] := by
  rw [queuePush_eq]
  dsimp only
  rw [if_pos (hr.front_eq_none_iff.mpr rfl)]
  refine ⟨_, _, rfl, ?_, ?_, ?_, ?_⟩
  · exact ⟨rfl, Heap.cell_update_self h _ _, rfl⟩
  · intro c hc
    cases hc
    rfl
  · intro c hc
    rw [List.mem_singleton.mp hc]
    exact hr.place_free m
  · intro d hd
    rw [List.map_singleton, List.mem_singleton] at hd
    rw [Heap.cell_update_of_ne hd, hr.frame d nofun]

/-- `queue_push` to a queue with a last item, which is led on to the new one. -/
theorem push_concat {front : List (ℕ × QueueItem)} {b : ℕ} {item : QueueItem}
    (hr : QueueRep h₀ h queue (front ++ [(b, item)])) (m : Malloc QueueItem) (byte : Entry) :
    ∃ h' queue', queuePush m byte h queue = some (h', queue') ∧
      QueueRep h₀ h' queue' (front ++
        [(b, { item with next := some (m.place h) }),
          (m.place h, { byte := byte, next := none })]) := by
  have hnew := hr.place_notMem m
  have hfree := hr.place_free m
  rw [queuePush_eq]
  dsimp only
  generalize m.place h = a at hnew hfree
  have hchain : Chain QueueItem.next (h.update a (some { byte := byte, next := none }))
      queue.front (front ++ [(b, item)]) none := by
    refine hr.chain.frame fun c hc => Heap.cell_update_of_ne (fun heq => hnew ?_) h _
    exact heq ▸ List.mem_map_of_mem hc
  have hback : queue.back = some b := hr.back (b, item) (Option.mem_def.mpr List.getLast?_concat)
  have hmem : (b, item) ∈ front ++ [(b, item)] := List.mem_append_right _ List.mem_cons_self
  have hfront : queue.front ≠ none := by
    rw [Ne, hr.front_eq_none_iff]
    exact List.append_ne_nil_of_right_ne_nil _ (List.cons_ne_nil _ _)
  rw [if_neg hfront, hback, Heap.modify_of_cell (hchain.cell_of_mem hmem), Option.map_some]
  refine ⟨_, _, rfl, ?_, ?_, ?_, ?_⟩
  · exact hchain.modify_last (Heap.cell_update_self h a _) rfl rfl hnew
  · intro c hc
    rw [List.getLast?_append, List.getLast?_cons_cons, List.getLast?_singleton] at hc
    cases hc
    rfl
  · intro c hc
    rcases List.mem_append.mp hc with hc | hc
    · exact hr.own c (List.mem_append_left _ hc)
    · rcases List.mem_cons.mp hc with rfl | hc
      · exact hr.own (b, item) hmem
      · rw [List.mem_singleton.mp hc]
        exact hfree
  · -- the new item and the last one are the only cells that change
    intro d hd
    simp only [List.map_append, List.map_cons, List.map_nil, List.mem_append, List.mem_cons,
      List.not_mem_nil, or_false, not_or] at hd
    rw [Heap.cell_update_of_ne hd.2.1, Heap.cell_update_of_ne hd.2.2]
    refine hr.frame d ?_
    simp only [List.map_append, List.map_cons, List.map_nil, List.mem_append, List.mem_singleton,
      not_or]
    exact ⟨hd.1, hd.2.1⟩

/-- **What `queue_push` does.**  The new item is the last one. -/
theorem push (hr : QueueRep h₀ h queue cells) (m : Malloc QueueItem) (byte : Entry) :
    ∃ h' queue' cells', queuePush m byte h queue = some (h', queue') ∧
      QueueRep h₀ h' queue' cells' ∧
      cells'.map (fun c => c.2.byte) = cells.map (fun c => c.2.byte) ++ [byte] := by
  rcases List.eq_nil_or_concat' cells with rfl | ⟨front, ⟨b, item⟩, rfl⟩
  · obtain ⟨h', queue', hpush, hr'⟩ := hr.push_nil m byte
    exact ⟨h', queue', _, hpush, hr', rfl⟩
  · obtain ⟨h', queue', hpush, hr'⟩ := hr.push_concat m byte
    exact ⟨h', queue', _, hpush, hr', by simp⟩

/-- **What `queue_pop` does.** -/
theorem pop (hr : QueueRep h₀ h queue cells) :
    ∃ h' queue', queuePop h queue = some (h', queue') ∧ QueueRep h₀ h' queue' cells.tail := by
  cases cells with
  | nil => exact ⟨h, queue, if_pos (hr.front_eq_none_iff.mpr rfl), hr⟩
  | cons c cells =>
    obtain ⟨hfront, hcell, hrest⟩ := Chain.cons_iff.mp hr.chain
    have hne : queue.front ≠ none := by rw [hfront]; exact Option.some_ne_none _
    have hnodup := hr.chain.nodup
    rw [List.map_cons, List.nodup_cons] at hnodup
    refine ⟨h.update c.1 none, { queue with front := c.2.next }, ?_, ?_, ?_, ?_, ?_⟩
    · rw [queuePop, if_neg hne, hfront]
      simp only [Heap.load_some, hcell, Heap.free_of_cell hcell, Option.bind_eq_bind,
        Option.bind_some]
    · refine hrest.frame fun d hd => Heap.cell_update_of_ne (fun heq => ?_) h _
      exact hnodup.1 (heq ▸ List.mem_map_of_mem hd)
    · intro d hd
      refine hr.back d ?_
      rw [List.getLast?_cons, List.tail_cons] at *
      rw [Option.mem_def.mp hd]
      rfl
    · exact fun d hd => hr.own d (List.mem_cons_of_mem _ hd)
    · intro a ha
      by_cases hac : a = c.1
      · rw [hac, Heap.cell_update_self, hr.own c List.mem_cons_self]
      · rw [Heap.cell_update_of_ne hac]
        refine hr.frame a ?_
        rw [List.map_cons, List.mem_cons, not_or]
        exact ⟨hac, ha⟩

/-- **What `queue_clean` does.**  It comes to its end with an empty queue. -/
theorem clean (hr : QueueRep h₀ h queue cells) :
    ∃ h' queue', queueClean h queue = some (h', queue') ∧ QueueRep h₀ h' queue' [] := by
  induction cells generalizing h queue with
  | nil =>
    refine ⟨h, queue, ?_, hr⟩
    rw [queueClean, dif_pos (hr.queueEmpty_iff.mpr rfl)]
  | cons c cells ih =>
    obtain ⟨h₁, queue₁, hpop, hr₁⟩ := hr.pop
    obtain ⟨h', queue', hclean, hr'⟩ := ih hr₁
    refine ⟨h', queue', ?_, hr'⟩
    rw [queueClean, dif_neg (hr.queueEmpty_iff.not.mpr (List.cons_ne_nil c cells))]
    split
    · next hnone => rw [hpop] at hnone; cases hnone
    · next r hr => rw [hpop] at hr; cases hr; exact hclean

/-- `queue_front`, of an empty queue too. -/
theorem queueFront_eq (hr : QueueRep h₀ h queue cells) :
    queueFront h queue = some ((cells.map fun c => c.2.byte).headD 0) := by
  cases cells with
  | nil => exact if_pos (hr.front_eq_none_iff.mpr rfl)
  | cons c cells =>
    obtain ⟨hfront, hcell, -⟩ := Chain.cons_iff.mp hr.chain
    rw [queueFront, hfront, if_neg (Option.some_ne_none _), Heap.load_some, hcell]
    rfl

/-- **`queue_delete` gives all items back.** -/
theorem queueDelete_eq (hr : QueueRep h₀ h queue cells) : queueDelete h queue = some h₀ := by
  obtain ⟨h', queue', hclean, hr'⟩ := hr.clean
  rw [queueDelete, hclean, Option.map_some]
  exact congrArg some (Heap.ext_cell fun a => hr'.frame a nofun)

/-- **What the driver does** to take a received entry: the first item of the list, if there is
one. -/
theorem uartRecvFront_spec (hr : QueueRep h₀ h queue cells) :
    ∃ h' queue', uartRecvFront h queue = some ((cells.map fun c => c.2.byte).head?, h', queue') ∧
      QueueRep h₀ h' queue' cells.tail := by
  cases cells with
  | nil =>
    refine ⟨h, queue, ?_, hr⟩
    rw [uartRecvFront, if_pos (hr.queueEmpty_iff.mpr rfl)]
    rfl
  | cons c cells =>
    obtain ⟨h', queue', hpop, hr'⟩ := hr.pop
    refine ⟨h', queue', ?_, hr'⟩
    rw [uartRecvFront, if_neg (hr.queueEmpty_iff.not.mpr (List.cons_ne_nil c cells)),
      hr.queueFront_eq, hpop]
    rfl

end QueueRep

/-! ### Any calls in any order -/

/-- A call on a queue; every allocation has an allocator of its own. -/
inductive QueueOp where
  | push (m : Malloc QueueItem) (byte : Entry)
  | pop
  | clean
  | front
  | empty

/-- What a call returns. -/
inductive QueueAnswer where
  | front (byte : Entry)
  | empty (isEmpty : Bool)
  deriving DecidableEq, Repr

/-- A queue in its heap, and what its calls have returned. -/
structure LinkedQueue where
  heap : Heap QueueItem
  queue : Queue
  answers : List QueueAnswer

/-- Calls on the linked queue. -/
def queueMachine : Machine LinkedQueue QueueOp where
  step s
    | .push m byte =>
      (queuePush m byte s.heap s.queue).map fun r => { s with heap := r.1, queue := r.2 }
    | .pop => (queuePop s.heap s.queue).map fun r => { s with heap := r.1, queue := r.2 }
    | .clean => (queueClean s.heap s.queue).map fun r => { s with heap := r.1, queue := r.2 }
    | .front =>
      (queueFront s.heap s.queue).map fun v => { s with answers := s.answers ++ [.front v] }
    | .empty => some { s with answers := s.answers ++ [.empty (queueEmpty s.queue)] }

/-- A list of items, and what its calls have returned. -/
structure Fifo where
  items : List Entry
  answers : List QueueAnswer
  deriving DecidableEq, Repr

/-- What a call does to a list of items. -/
def Fifo.call (t : Fifo) : QueueOp → Fifo
  | .push _ byte => { t with items := t.items ++ [byte] }
  | .pop => { t with items := t.items.tail }
  | .clean => { t with items := [] }
  | .front => { t with answers := t.answers ++ [.front (t.items.headD 0)] }
  | .empty => { t with answers := t.answers ++ [.empty t.items.isEmpty] }

/-- Calls on a list. -/
def fifoMachine : Machine Fifo QueueOp where
  step t op := some (t.call op)

/-- The linked queue, in a heap that was `h₀` without it, holds the items of the list, and has
returned the same. -/
structure Refines (h₀ : Heap QueueItem) (s : LinkedQueue) (t : Fifo) : Prop where
  items : ∃ cells, QueueRep h₀ s.heap s.queue cells ∧ cells.map (fun c => c.2.byte) = t.items
  answers : s.answers = t.answers

/-- One call. -/
theorem Refines.step {h₀ : Heap QueueItem} {s : LinkedQueue} {t : Fifo} (hst : Refines h₀ s t)
    (op : QueueOp) : ∃ s', queueMachine.step s op = some s' ∧ Refines h₀ s' (t.call op) := by
  obtain ⟨⟨cells, hr, hitems⟩, hanswers⟩ := hst
  cases op with
  | push m byte =>
    obtain ⟨h', queue', cells', hpush, hr', hmap⟩ := hr.push m byte
    refine ⟨_, congrArg (Option.map _) hpush, ⟨cells', hr', ?_⟩, hanswers⟩
    rw [hmap, hitems]
    rfl
  | pop =>
    obtain ⟨h', queue', hpop, hr'⟩ := hr.pop
    refine ⟨_, congrArg (Option.map _) hpop, ⟨cells.tail, hr', ?_⟩, hanswers⟩
    rw [List.map_tail, hitems]
    rfl
  | clean =>
    obtain ⟨h', queue', hclean, hr'⟩ := hr.clean
    exact ⟨_, congrArg (Option.map _) hclean, ⟨[], hr', rfl⟩, hanswers⟩
  | front =>
    refine ⟨_, congrArg (Option.map _) hr.queueFront_eq, ⟨cells, hr, hitems⟩, ?_⟩
    show s.answers ++ _ = t.answers ++ _
    rw [hanswers, hitems]
  | empty =>
    refine ⟨_, rfl, ⟨cells, hr, hitems⟩, ?_⟩
    have hempty : queueEmpty s.queue = t.items.isEmpty := by
      rw [Bool.eq_iff_iff, hr.queueEmpty_iff, List.isEmpty_iff, ← hitems, List.map_eq_nil_iff]
    show s.answers ++ _ = t.answers ++ _
    rw [hanswers, hempty]

/-- **Every run of the linked queue is that of a list.**  No call ever follows a pointer to an
item that has been freed, whether or not the allocators give its address out again; after every
run the items from `front` on are those of the list, with `back` at the last of them, and
`queue_clean` empties the queue. -/
theorem queue_refines_fifo (h₀ : Heap QueueItem) (ops : List QueueOp) :
    ∃ s t, queueMachine.run ⟨h₀, queueInit, []⟩ ops = some s ∧
      fifoMachine.run ⟨[], []⟩ ops = some t ∧ Refines h₀ s t ∧
      ∃ h queue, queueClean s.heap s.queue = some (h, queue) ∧ queueEmpty queue := by
  have hstart : Refines h₀ ⟨h₀, queueInit, []⟩ ⟨[], []⟩ := ⟨⟨[], .init h₀, rfl⟩, rfl⟩
  obtain ⟨t, ht⟩ :=
    Machine.exists_run (M := fifoMachine) (fun t op => ⟨t.call op, rfl⟩) ops ⟨[], []⟩
  have hstep : ∀ (s : LinkedQueue) (t : Fifo) (op : QueueOp) (t' : Fifo), Refines h₀ s t →
      fifoMachine.step t op = some t' →
      ∃ s', queueMachine.step s op = some s' ∧ Refines h₀ s' t' := by
    rintro s t op t' hst ht'
    obtain ⟨s', hs', hst'⟩ := hst.step op
    exact ⟨s', hs', Option.some.inj ht' ▸ hst'⟩
  obtain ⟨s, hs, hst⟩ := Machine.run_simulation hstep ops _ _ t hstart ht
  obtain ⟨cells, hr, -⟩ := hst.items
  obtain ⟨h, queue, hclean, hempty⟩ := hr.clean
  exact ⟨s, t, hs, ht, hst, h, queue, hclean, hempty.queueEmpty_iff.mpr rfl⟩

end OperationMinix
