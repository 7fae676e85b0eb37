import Mathlib.Data.List.Forall2
import OperationMinix.Runs.Framer

/-!
# Cutting a stream with faults into frames

A read of a line gives a symbol or fails.  A framer that gives up its unfinished
frame at every failure cuts the reads into pieces: a fault between two frames, a
symbol that was skipped, a frame, and a frame that a fault has broken off.  The
pieces are the reads and nothing else, so every read belongs to exactly one of
them, and no symbol to two frames.

## Main definitions

* `Framer.read`, `Framer.readAll` — one read, and a list of them.
* `Framer.Piece`, `Framer.Proper` — a piece, and that it is one of this framer.
* `Framer.placed` — the frames, each with the position of its first symbol.

## Main results

* `Framer.readAll_pieces` — **the frames found in a list of pieces are its frames.**
* `Framer.exists_places` — **the frames lie one behind the other**, each on reads that have
  given its symbols.
-/

namespace Runs

namespace Framer

variable {B : Type*} (F : Framer B)

/-- One more read after the unfinished frame `part`; a read that fails drops it. -/
def read (part : List B) : Option B → List B × Option (List B)
  | none => ([], none)
  | some b => F.push part b

/-- A list of reads after the unfinished frame `part`. -/
def readAll : List B → List (Option B) → List B × List (List B)
  | part, [] => (part, [])
  | part, r :: rs =>
    ((readAll (F.read part r).1 rs).1, (F.read part r).2.toList ++ (readAll (F.read part r).1 rs).2)

/-- A frame that has begun and is not complete. -/
structure Begun (f : List B) : Prop where
  length : f.length < F.size
  starts : ∃ b ∈ f.head?, F.starts b = true

/-- What a stretch of reads is to a framer. -/
inductive Piece (B : Type*) where
  /-- A fault between two frames. -/
  | fault
  /-- A symbol that cannot start a frame. -/
  | skipped (b : B)
  /-- A frame. -/
  | frame (f : List B)
  /-- An unfinished frame, and the fault that has broken it off. -/
  | broken (f : List B)

/-- The reads of a piece. -/
def Piece.reads : Piece B → List (Option B)
  | .fault => [none]
  | .skipped b => [some b]
  | .frame f => f.map some
  | .broken f => f.map some ++ [none]

/-- The frame of a piece, if it is one. -/
def Piece.frame? : Piece B → Option (List B)
  | .frame f => some f
  | _ => none

/-- The pieces that the framer can find. -/
def Proper : Piece B → Prop
  | .fault => True
  | .skipped b => F.starts b = false
  | .frame f => F.Frame f
  | .broken f => F.Begun f

variable {F}

@[simp] theorem readAll_nil (part : List B) : F.readAll part [] = (part, []) := rfl

@[simp] theorem readAll_cons (part : List B) (r : Option B) (rs : List (Option B)) :
    F.readAll part (r :: rs) = ((F.readAll (F.read part r).1 rs).1,
      (F.read part r).2.toList ++ (F.readAll (F.read part r).1 rs).2) := rfl

@[simp] theorem read_none (part : List B) : F.read part none = ([], none) := rfl

@[simp] theorem read_some (part : List B) (b : B) : F.read part (some b) = F.push part b := rfl

/-- Reading in two pieces is reading the whole. -/
theorem readAll_append : ∀ (rs ss : List (Option B)) (part : List B),
    F.readAll part (rs ++ ss) = ((F.readAll (F.readAll part rs).1 ss).1,
      (F.readAll part rs).2 ++ (F.readAll (F.readAll part rs).1 ss).2) := by
  intro rs
  induction rs with
  | nil => intro ss part; rfl
  | cons r rs ih =>
    intro ss part
    rw [List.cons_append, readAll_cons, readAll_cons, ih]
    simp

/-- Without a fault, reading is feeding. -/
theorem readAll_map_some : ∀ (bs part : List B),
    F.readAll part (bs.map some) = F.feed part bs := by
  intro bs
  induction bs with
  | nil => intro part; rfl
  | cons b bs ih =>
    intro part
    rw [List.map_cons, readAll_cons, feed_cons, read_some, ih]

/-- A symbol that cannot start a frame is skipped between frames. -/
theorem push_skipped {b : B} (h : F.starts b = false) : F.push [] b = ([], none) := by
  simp [push, h]

/-- The symbols of an unfinished frame stay unfinished. -/
theorem feed_unfinished : ∀ (bs part : List B), (part ++ bs).length < F.size →
    (∃ b ∈ (part ++ bs).head?, F.starts b = true) → F.feed part bs = (part ++ bs, []) := by
  intro bs
  induction bs with
  | nil => intro part _ _; simp [feed]
  | cons b bs ih =>
    intro part hlen hstart
    have hb : part = [] → F.starts b = true := starts_of_head hstart
    have happ : part ++ [b] ++ bs = part ++ b :: bs := by simp
    have hne : part.length + 1 ≠ F.size := by
      simp only [List.length_append, List.length_cons] at hlen
      omega
    rw [feed_cons, push_unfinished hb hne, ih (part ++ [b]) (by rwa [happ]) (by rwa [happ]), happ]
    rfl

/-- A frame that has begun is kept. -/
theorem feed_begun {f : List B} (hf : F.Begun f) : F.feed [] f = (f, []) :=
  feed_unfinished f [] hf.length hf.starts

/-- **A piece leaves nothing behind**, and gives its frame if it is one. -/
theorem readAll_piece {p : Piece B} (hp : F.Proper p) :
    F.readAll [] p.reads = ([], p.frame?.toList) := by
  cases p with
  | fault => rfl
  | skipped b => simp [Piece.reads, Piece.frame?, push_skipped (F := F) hp]
  | frame f => simp [Piece.reads, Piece.frame?, readAll_map_some, feed_frame (F := F) hp]
  | broken f =>
    simp [Piece.reads, Piece.frame?, readAll_append, readAll_map_some, feed_begun (F := F) hp]

/-- **The frames found in a list of pieces are its frames.** -/
theorem readAll_pieces : ∀ (ps : List (Piece B)), (∀ p ∈ ps, F.Proper p) →
    F.readAll [] (ps.flatMap Piece.reads) = ([], ps.filterMap Piece.frame?) := by
  intro ps
  induction ps with
  | nil => intro _; rfl
  | cons p ps ih =>
    intro h
    rw [List.flatMap_cons, readAll_append, readAll_piece (h p List.mem_cons_self),
      ih fun q hq => h q (List.mem_cons_of_mem p hq)]
    cases hf : p.frame? <;> simp [hf]

/-! ### Where the frames lie -/

/-- The frames of the pieces from position `n` on, each with the position of its first read. -/
def placed : ℕ → List (Piece B) → List (ℕ × List B)
  | _, [] => []
  | n, p :: ps => (p.frame?.map (n, ·)).toList ++ placed (n + p.reads.length) ps

theorem placed_frames : ∀ (ps : List (Piece B)) (n : ℕ),
    (placed n ps).map Prod.snd = ps.filterMap Piece.frame? := by
  intro ps
  induction ps with
  | nil => intro n; rfl
  | cons p ps ih =>
    intro n
    rw [placed, List.map_append, ih]
    cases hf : p.frame? <;> simp [hf]

/-- A frame lies behind the position at which the pieces begin. -/
theorem le_placed : ∀ (ps : List (Piece B)) (n : ℕ), ∀ x ∈ placed n ps, n ≤ x.1 := by
  intro ps
  induction ps with
  | nil => intro n x hx; cases hx
  | cons p ps ih =>
    intro n x hx
    rcases List.mem_append.mp hx with h | h
    · cases hf : p.frame? <;> simp_all
    · exact Nat.le_trans (Nat.le_add_right _ _) (ih _ x h)

/-- **The frames lie one behind the other.** -/
theorem placed_disjoint : ∀ (ps : List (Piece B)) (n : ℕ),
    (placed n ps).Pairwise fun x y => x.1 + x.2.length ≤ y.1 := by
  intro ps
  induction ps with
  | nil => intro n; exact List.Pairwise.nil
  | cons p ps ih =>
    intro n
    cases p with
    | frame f =>
      refine List.Pairwise.cons (fun y hy => ?_) (ih _)
      simpa [Piece.reads] using le_placed ps _ y hy
    | fault | skipped | broken => exact ih _

/-- **A frame lies on reads that have given its symbols.** -/
theorem placed_reads : ∀ (ps : List (Piece B)) (before : List (Option B)) (tail : List (Option B)),
    ∀ x ∈ placed before.length ps,
      ((before ++ ps.flatMap Piece.reads ++ tail).drop x.1).take x.2.length = x.2.map some := by
  intro ps
  induction ps with
  | nil => intro before tail x hx; cases hx
  | cons p ps ih =>
    intro before tail x hx
    rcases List.mem_append.mp hx with h | h
    · cases p with
      | frame f =>
        obtain rfl : x = (before.length, f) := by simpa [Piece.frame?] using h
        simp [Piece.reads, List.append_assoc]
      | fault | skipped | broken => simp [Piece.frame?] at h
    · have := ih (before ++ p.reads) tail x (by simpa using h)
      simpa [List.append_assoc] using this

/-- **The frames of a list of pieces lie apart in its reads.** -/
theorem exists_places {ps : List (Piece B)} (h : ∀ p ∈ ps, F.Proper p) (tail : List (Option B)) :
    ∃ places : List ℕ, places.Pairwise (fun m n => m + F.size ≤ n) ∧
      List.Forall₂ (fun n f => ((ps.flatMap Piece.reads ++ tail).drop n).take F.size = f.map some)
        places (ps.filterMap Piece.frame?) := by
  have hsize : ∀ x ∈ placed 0 ps, x.2.length = F.size := by
    intro x hx
    have hmem : x.2 ∈ ps.filterMap Piece.frame? :=
      placed_frames ps 0 ▸ List.mem_map_of_mem hx
    obtain ⟨p, hp, hf⟩ := List.mem_filterMap.mp hmem
    cases p with
    | frame f => exact Option.some.inj hf ▸ (h _ hp).length
    | fault | skipped | broken => cases hf
  refine ⟨(placed 0 ps).map Prod.fst, ?_, ?_⟩
  · rw [List.pairwise_map]
    exact (placed_disjoint ps 0).imp_of_mem fun {x y} hx _ hxy => hsize x hx ▸ hxy
  · rw [← placed_frames ps 0, List.forall₂_map_left_iff, List.forall₂_map_right_iff,
      List.forall₂_same]
    intro x hx
    rw [← hsize x hx]
    exact placed_reads ps [] tail x hx

end Framer

end Runs
