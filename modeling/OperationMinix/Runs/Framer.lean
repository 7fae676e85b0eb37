import Mathlib.Data.List.Basic

/-!
# Cutting a stream into frames

A framer collects symbols into frames of a fixed size.  Between frames it skips
every symbol that cannot start one.  Feeding it is defined symbol by symbol, so
the frames do not depend on how the stream is cut into pieces on the way.

## Main definitions

* `Framer`, `Framer.push`, `Framer.feed` — one symbol, and a list of them.
* `Framer.Frame` — a list of symbols that is a frame.

## Main results

* `Framer.feed_append` — feeding in pieces is feeding the whole.
* `Framer.feed_flatten` — **a stream of frames is cut into these frames.**
-/

namespace Runs

/-- A framer: the size of a frame, and which symbols can start one. -/
structure Framer (B : Type*) where
  size : ℕ
  starts : B → Bool

namespace Framer

variable {B : Type*} (F : Framer B)

/-- One more symbol after the unfinished frame `part`: the unfinished frame that
is left, and the frame that is complete. -/
def push (part : List B) (b : B) : List B × Option (List B) :=
  if part = [] ∧ F.starts b = false then ([], none)
  else if part.length + 1 = F.size then ([], some (part ++ [b]))
  else (part ++ [b], none)

/-- A list of symbols after the unfinished frame `part`: the unfinished frame
that is left, and the frames completed on the way. -/
def feed : List B → List B → List B × List (List B)
  | part, [] => (part, [])
  | part, b :: bs =>
    ((feed (F.push part b).1 bs).1, (F.push part b).2.toList ++ (feed (F.push part b).1 bs).2)

/-- A list of symbols that is a frame. -/
structure Frame (f : List B) : Prop where
  length : f.length = F.size
  starts : ∃ b ∈ f.head?, F.starts b = true

variable {F}

theorem feed_cons (part : List B) (b : B) (bs : List B) :
    F.feed part (b :: bs) = ((F.feed (F.push part b).1 bs).1,
      (F.push part b).2.toList ++ (F.feed (F.push part b).1 bs).2) := rfl

/-- Feeding in two pieces is feeding the whole. -/
theorem feed_append : ∀ (xs ys part : List B),
    F.feed part (xs ++ ys) = ((F.feed (F.feed part xs).1 ys).1,
      (F.feed part xs).2 ++ (F.feed (F.feed part xs).1 ys).2) := by
  intro xs
  induction xs with
  | nil => intro ys part; rfl
  | cons b xs ih =>
    intro ys part
    rw [List.cons_append, feed_cons, feed_cons, ih]
    simp

theorem push_unfinished {part : List B} {b : B} (hb : part = [] → F.starts b = true)
    (hlen : part.length + 1 ≠ F.size) : F.push part b = (part ++ [b], none) := by
  unfold push
  rw [if_neg, if_neg hlen]
  rintro ⟨h, hs⟩
  rw [hb h] at hs
  cases hs

theorem push_finished {part : List B} {b : B} (hb : part = [] → F.starts b = true)
    (hlen : part.length + 1 = F.size) : F.push part b = ([], some (part ++ [b])) := by
  unfold push
  rw [if_neg, if_pos hlen]
  rintro ⟨h, hs⟩
  rw [hb h] at hs
  cases hs

/-- The first symbol of a frame that has not begun can start it. -/
theorem starts_of_head {part bs : List B} {b : B}
    (h : ∃ c ∈ (part ++ b :: bs).head?, F.starts c = true) : part = [] → F.starts b = true := by
  rintro rfl
  obtain ⟨c, hc, hs⟩ := h
  simp only [List.nil_append, List.head?_cons, Option.mem_some_iff] at hc
  rwa [hc]

/-- The rest of a frame that has been started completes it. -/
theorem feed_rest : ∀ (rest part : List B), rest ≠ [] → (part ++ rest).length = F.size →
    (∃ b ∈ (part ++ rest).head?, F.starts b = true) →
    F.feed part rest = ([], [part ++ rest]) := by
  intro rest
  induction rest with
  | nil => intro part h; exact absurd rfl h
  | cons b rest ih =>
    intro part _ hlen hstart
    have hb : part = [] → F.starts b = true := starts_of_head hstart
    simp only [List.length_append, List.length_cons] at hlen
    cases rest with
    | nil => rw [feed_cons, push_finished hb hlen]; rfl
    | cons c rest =>
      have hne : part.length + 1 ≠ F.size := by
        simp only [List.length_cons] at hlen
        omega
      have happ : part ++ [b] ++ c :: rest = part ++ b :: c :: rest := by simp
      rw [feed_cons, push_unfinished hb hne, ih (part ++ [b]) (List.cons_ne_nil c rest)]
      · simp
      · rw [happ]
        simpa using hlen
      · rw [happ]
        exact hstart

/-- A frame is cut as itself. -/
theorem feed_frame {f : List B} (hf : F.Frame f) : F.feed [] f = ([], [f]) := by
  refine feed_rest f [] ?_ hf.length hf.starts
  rintro rfl
  obtain ⟨b, hb, -⟩ := hf.starts
  cases hb

/-- **A stream of frames is cut into these frames.** -/
theorem feed_flatten : ∀ fs : List (List B), (∀ f ∈ fs, F.Frame f) →
    F.feed [] fs.flatten = ([], fs) := by
  intro fs
  induction fs with
  | nil => intro _; rfl
  | cons f fs ih =>
    intro h
    rw [List.flatten_cons, feed_append, feed_frame (h f List.mem_cons_self),
      ih fun g hg => h g (List.mem_cons_of_mem f hg)]
    rfl

end Framer

end Runs
