import Mathlib.Data.List.Basic

/-!
# Actions that may fail

An action on a state succeeds with a result or fails; what it has done to the state until then
stays done.  An action that fails may be tried again, a limited number of times, and actions may
be made one after the other until one fails.

`Spec P x Q E` says that the action `x`, from every state of `P`, succeeds in a state of `Q` or
fails in a state of `E`.  Where the state keeps a log, `Adds log x Q E` says which words the action
adds to it.  There is one rule for each way of putting actions together.

## Main definitions

* `Attempt`, `Attempt.andThen`, `Attempt.retry`, `Attempt.forEach` — actions, and how they are
  put together.
* `Attempt.Spec`, `Attempt.Adds` — what an action does, and what it adds to a log.

## Main results

* `Attempt.Spec.retry` — **what a limited number of attempts do**, by what one of them does.
* `Attempt.Adds.bind` — one action after another.
* `Attempt.Adds.retry` — **the attempts that have failed stay in the log.**
* `Attempt.Adds.forEach` — an action for every element of a list.
-/

namespace Runs

universe u v

/-- An action on a state: what it returns, if it does not fail, and the state after it. -/
def Attempt (S : Type u) (A : Type v) : Type (max u v) := S → Option A × S

namespace Attempt

variable {S : Type u} {A : Type v} {B : Type v} {C : Type*}

/-- Nothing is done. -/
def done (a : A) : Attempt S A := fun s => (some a, s)

/-- Nothing is done, but that it fails. -/
def fail : Attempt S A := fun s => (none, s)

/-- It fails unless the test holds. -/
def check (b : Bool) : Attempt S Unit := if b then done () else fail

/-- One action, and another one that depends on its result. -/
def andThen (x : Attempt S A) (f : A → Attempt S B) : Attempt S B := fun s =>
  match x s with
  | (some a, t) => f a t
  | (none, t) => (none, t)

instance : Monad (Attempt S) where
  pure := done
  bind := andThen

/-- The action is tried until it succeeds, `n` times at most. -/
def retry (x : Attempt S A) : ℕ → Attempt S A
  | 0 => fail
  | n + 1 => fun s =>
    match x s with
    | (some a, t) => (some a, t)
    | (none, t) => retry x n t

/-- An action for every element of the list, until one fails. -/
def forEach (f : C → Attempt S Unit) : List C → Attempt S Unit
  | [] => done ()
  | c :: cs => andThen (f c) fun _ => forEach f cs

/-- From every state of `P` the action succeeds in a state of `Q`, or fails in one of `E`. -/
def Spec (P : S → Prop) (x : Attempt S A) (Q : A → S → Prop) (E : S → Prop) : Prop :=
  ∀ s, P s → (∃ a t, x s = (some a, t) ∧ Q a t) ∨ ∃ t, x s = (none, t) ∧ E t

namespace Spec

variable {P P' E E' : S → Prop} {Q Q' : A → S → Prop} {x : Attempt S A}

/-- Less is asked, and more is known. -/
theorem imp (h : Spec P x Q E) (hP : ∀ s, P' s → P s) (hQ : ∀ a s, Q a s → Q' a s)
    (hE : ∀ s, E s → E' s) : Spec P' x Q' E' := by
  intro s hs
  rcases h s (hP s hs) with ⟨a, t, hx, hq⟩ | ⟨t, hx, he⟩
  · exact Or.inl ⟨a, t, hx, hQ a t hq⟩
  · exact Or.inr ⟨t, hx, hE t he⟩

/-- **One action after another.** -/
theorem andThen {R : B → S → Prop} {f : A → Attempt S B} (hx : Spec P x Q E)
    (hf : ∀ a, Spec (Q a) (f a) R E) : Spec P (x.andThen f) R E := by
  intro s hs
  unfold Attempt.andThen
  rcases hx s hs with ⟨a, t, hx, hQ⟩ | ⟨t, hx, hE⟩
  · rw [hx]
    exact hf a t hQ
  · rw [hx]
    exact Or.inr ⟨t, rfl, hE⟩

/-- The same, as it is written in a program. -/
theorem bind {R : B → S → Prop} {f : A → Attempt S B} (hx : Spec P x Q E)
    (hf : ∀ a, Spec (Q a) (f a) R E) : Spec P (x >>= f) R E :=
  hx.andThen hf

/-- **A limited number of attempts.**  After `k` attempts that have failed `I k` holds; the one
that succeeds is among the first `n`. -/
theorem retry {I : ℕ → S → Prop} {Q : ℕ → A → S → Prop}
    (h : ∀ k, Spec (I k) x (Q k) (I (k + 1))) (n k : ℕ) :
    Spec (I k) (Attempt.retry x n) (fun a s => ∃ j < n, Q (k + j) a s) (I (k + n)) := by
  induction n generalizing k with
  | zero => exact fun s hs => Or.inr ⟨s, rfl, hs⟩
  | succ n ih =>
    intro s hs
    unfold Attempt.retry
    rcases h k s hs with ⟨a, t, hx, hq⟩ | ⟨t, hx, hi⟩
    · rw [hx]
      exact Or.inl ⟨a, t, rfl, 0, Nat.succ_pos n, hq⟩
    · -- one more has failed, and one less is left
      rw [hx]
      rcases ih (k + 1) t hi with ⟨a, u, hu, j, hj, hq⟩ | ⟨u, hu, hi⟩
      · refine Or.inl ⟨a, u, hu, j + 1, Nat.succ_lt_succ hj, ?_⟩
        rwa [Nat.add_right_comm, Nat.add_assoc] at hq
      · refine Or.inr ⟨u, hu, ?_⟩
        rwa [Nat.add_right_comm, Nat.add_assoc] at hi

/-- **An action for every element of a list.**  `J` is told the elements that are done. -/
theorem forEach {J : List C → S → Prop} {f : C → Attempt S Unit} {l : List C}
    (h : ∀ pre c post, pre ++ c :: post = l →
      Spec (J pre) (f c) (fun _ => J (pre ++ [c])) E) :
    ∀ cs pre, pre ++ cs = l → Spec (J pre) (Attempt.forEach f cs) (fun _ => J l) E := by
  intro cs
  induction cs with
  | nil =>
    intro pre hl s hs
    rw [List.append_nil] at hl
    exact Or.inl ⟨(), s, rfl, hl ▸ hs⟩
  | cons c cs ih =>
    intro pre hl
    exact (h pre c cs hl).andThen fun _ => ih (pre ++ [c]) (by rw [← hl, List.append_assoc]; rfl)

end Spec

/-! ### What is written down -/

/-- The action adds to a log: a word of `Q` when it succeeds, and one of `E` when it fails. -/
def Adds {W : Type*} (log : S → List W) (x : Attempt S A) (Q : A → List W → Prop)
    (E : List W → Prop) : Prop :=
  ∀ l, Spec (fun s => log s = l) x (fun a s => ∃ w, log s = l ++ w ∧ Q a w)
    fun s => ∃ w, log s = l ++ w ∧ E w

namespace Adds

variable {W : Type*} {log : S → List W} {x : Attempt S A} {Q Q' : A → List W → Prop}
  {E E' : List W → Prop}

/-- What is added in one run. -/
theorem run (h : Adds log x Q E) (s : S) :
    ∃ w, log (x s).2 = log s ++ w ∧ ((∃ a, (x s).1 = some a ∧ Q a w) ∨ (x s).1 = none ∧ E w) := by
  rcases h (log s) s rfl with ⟨a, t, hx, w, hw, hq⟩ | ⟨t, hx, w, hw, he⟩
  · exact ⟨w, by rw [hx]; exact hw, Or.inl ⟨a, by rw [hx], hq⟩⟩
  · exact ⟨w, by rw [hx]; exact hw, Or.inr ⟨by rw [hx], he⟩⟩

/-- Less is known. -/
theorem imp (h : Adds log x Q E) (hQ : ∀ a w, Q a w → Q' a w) (hE : ∀ w, E w → E' w) :
    Adds log x Q' E' := fun l =>
  (h l).imp (fun _ hs => hs) (fun _ _ ⟨w, hw, hq⟩ => ⟨w, hw, hQ _ w hq⟩)
    fun _ ⟨w, hw, he⟩ => ⟨w, hw, hE w he⟩

/-- A test adds nothing. -/
theorem check (log : S → List W) (b : Bool) :
    Adds log (Attempt.check b) (fun _ w => b = true ∧ w = []) fun w => b = false ∧ w = [] := by
  intro l s hs
  have hsame : log s = l ++ [] := hs.trans (List.append_nil l).symm
  cases b with
  | true => exact Or.inl ⟨(), s, rfl, [], hsame, rfl, rfl⟩
  | false => exact Or.inr ⟨s, rfl, [], hsame, rfl, rfl⟩

/-- **One action after another**: what the first one adds comes first. -/
theorem bind {R : A → B → List W → Prop} {F : A → List W → Prop} {f : A → Attempt S B}
    (hx : Adds log x Q E) (hf : ∀ a, Adds log (f a) (R a) (F a)) :
    Adds log (x >>= f) (fun b w => ∃ a u v, w = u ++ v ∧ Q a u ∧ R a b v)
      fun w => E w ∨ ∃ a u v, w = u ++ v ∧ Q a u ∧ F a v := by
  intro l
  refine Spec.bind ((hx l).imp (fun _ hs => hs) (fun _ _ hs => hs)
    fun s ⟨w, hw, he⟩ => ⟨w, hw, Or.inl he⟩) fun a s => ?_
  rintro ⟨u, hu, hq⟩
  rcases hf a (l ++ u) s hu with ⟨b, t, hx, v, hv, hr⟩ | ⟨t, hx, v, hv, he⟩
  · exact Or.inl ⟨b, t, hx, u ++ v, hv.trans (List.append_assoc ..), a, u, v, rfl, hq, hr⟩
  · exact Or.inr ⟨t, hx, u ++ v, hv.trans (List.append_assoc ..), Or.inr ⟨a, u, v, rfl, hq, he⟩⟩

/-- **A limited number of attempts**: all that have failed are in the log, in their order. -/
theorem retry (h : Adds log x Q E) (n : ℕ) :
    Adds log (Attempt.retry x n)
      (fun a w => ∃ broken : List (List W), (∀ v ∈ broken, E v) ∧ broken.length < n ∧
        ∃ u, w = broken.flatten ++ u ∧ Q a u)
      fun w => ∃ broken : List (List W), (∀ v ∈ broken, E v) ∧ broken.length = n ∧
        w = broken.flatten := by
  intro l
  have hone : ∀ k, Spec
      (fun s => ∃ broken : List (List W), (∀ v ∈ broken, E v) ∧ broken.length = k ∧
        log s = l ++ broken.flatten) x
      (fun a s => ∃ broken : List (List W), (∀ v ∈ broken, E v) ∧ broken.length = k ∧
        ∃ u, log s = l ++ (broken.flatten ++ u) ∧ Q a u)
      fun s => ∃ broken : List (List W), (∀ v ∈ broken, E v) ∧ broken.length = k + 1 ∧
        log s = l ++ broken.flatten := by
    rintro k s ⟨broken, hbroken, hlen, hs⟩
    rcases h _ s hs with ⟨a, t, hx, u, hu, hq⟩ | ⟨t, hx, u, hu, he⟩
    · exact Or.inl ⟨a, t, hx, broken, hbroken, hlen, u, by rw [hu, List.append_assoc], hq⟩
    · refine Or.inr ⟨t, hx, broken ++ [u], ?_, ?_, ?_⟩
      · intro v hv
        rcases List.mem_append.mp hv with hv | hv
        · exact hbroken v hv
        · rw [List.mem_singleton.mp hv]
          exact he
      · rw [List.length_append, hlen]
        rfl
      · rw [hu, List.flatten_append, List.flatten_singleton, List.append_assoc]
  refine (Spec.retry hone n 0).imp (fun s hs => ⟨[], nofun, rfl, ?_⟩) ?_ ?_
  · rw [hs, List.flatten_nil, List.append_nil]
  · rintro a s ⟨k, hk, broken, hbroken, hlen, u, hu, hq⟩
    rw [Nat.zero_add] at hlen
    exact ⟨_, hu, broken, hbroken, hlen ▸ hk, u, rfl, hq⟩
  · rintro s ⟨broken, hbroken, hlen, hs⟩
    rw [Nat.zero_add] at hlen
    exact ⟨_, hs, broken, hbroken, hlen, rfl⟩

/-- Attempts that add nothing when they fail. -/
theorem retry_silent (h : Adds log x Q (· = [])) (n : ℕ) :
    Adds log (Attempt.retry x n) Q (· = []) := by
  have hnil : ∀ broken : List (List W), (∀ v ∈ broken, v = []) → broken.flatten = [] := fun _ h =>
    List.flatten_eq_nil_iff.mpr h
  refine (h.retry n).imp ?_ ?_
  · rintro a w ⟨broken, hbroken, -, u, rfl, hq⟩
    rwa [hnil broken hbroken, List.nil_append]
  · rintro w ⟨broken, hbroken, -, rfl⟩
    exact hnil broken hbroken

/-- **An action for every element of a list**: those before the one that fails have added their
words. -/
theorem forEach {f : C → Attempt S Unit} {word : C → List W} {E : C → List W → Prop}
    (h : ∀ c, Adds log (f c) (fun _ w => w = word c) (E c)) (cs : List C) :
    Adds log (Attempt.forEach f cs) (fun _ w => w = cs.flatMap word)
      fun w => ∃ pre c post v, cs = pre ++ c :: post ∧ w = pre.flatMap word ++ v ∧ E c v := by
  intro l
  have hall := Spec.forEach (f := f) (J := fun pre s => log s = l ++ pre.flatMap word)
    (E := fun s => ∃ w, log s = l ++ w ∧ ∃ pre c post v, cs = pre ++ c :: post ∧
      w = pre.flatMap word ++ v ∧ E c v) (l := cs) ?_ cs [] rfl
  · refine hall.imp (fun s hs => ?_) (fun _ s hs => ⟨_, hs, rfl⟩) fun s hs => hs
    rw [hs, List.flatMap_nil, List.append_nil]
  · intro pre c post hcs s hs
    rcases h c _ s hs with ⟨a, t, hx, w, hw, rfl⟩ | ⟨t, hx, w, hw, he⟩
    · refine Or.inl ⟨a, t, hx, ?_⟩
      show log t = l ++ (pre ++ [c]).flatMap word
      rw [hw, List.flatMap_append, List.flatMap_singleton, List.append_assoc]
    · exact Or.inr ⟨t, hx, _, hw.trans (List.append_assoc ..), pre, c, post, w, hcs.symm, rfl, he⟩

end Adds

end Attempt

end Runs
