import OperationMinix.Networking.Session

/-!
# Draining the line

A session starts in `CLEANUP`: whatever an earlier session has left in the receiver
is read and thrown away, until four polls in a row have found nothing.  The loop
counts these polls in the variable that counts the fruitless calls of a session,
and clears it only when it is done.  A session that was left or broken off hands
its count to the next one.

## Main definitions

* `Drains` — the call, if it leaves `CLEANUP`, has ended with `UART_MAX_TRIES` polls
  that found nothing.
* `CountsAfresh` — the count is `0` when the loop starts, or something is read before
  it ends.

## Main results

* `cleanupLoop_spec` — what the loop has polled when it ends.
* `cleanup_drains_iff` — **the line is drained exactly when the loop counts afresh**.
-/

namespace OperationMinix

open Runs

/-- The polls of a loop that has left `rest` end with `UART_MAX_TRIES` that found
nothing. -/
def Drained (polls rest : List RecvResult) : Prop :=
  ∃ earlier, polls = earlier ++ List.replicate uartMaxTries .empty ++ rest

theorem Drained.cons {polls rest : List RecvResult} (h : Drained polls rest) (r : RecvResult) :
    Drained (r :: polls) rest := by
  obtain ⟨earlier, rfl⟩ := h
  exact ⟨r :: earlier, rfl⟩

/-- When the loop has found nothing, it ends after the polls that were missing. -/
theorem cleanupLoop_idle : ∀ (k t : ℕ) (rest : List RecvResult), t + k = uartMaxTries →
    cleanupLoop t true (List.replicate k .empty ++ rest) = some rest := by
  intro k
  induction k with
  | zero =>
    intro t rest h
    have hdone : ¬ t < uartMaxTries := by omega
    cases rest with
    | nil => simp [cleanupLoop, hdone]
    | cons r rest => simp [cleanupLoop, hdone]
  | succ k ih =>
    intro t rest h
    have hmore : t < uartMaxTries := by omega
    rw [List.replicate_succ, List.cons_append, cleanupLoop, if_pos hmore, if_pos rfl, if_pos rfl]
    exact ih (t + 1) rest (by omega)

/-- **What the loop has polled when it ends.**  From a count of `t` it has found
nothing in the polls that were missing, or it has drained the line; and it has
drained the line if the pass under way has found something. -/
theorem cleanupLoop_spec (rest : List RecvResult) : ∀ (polls : List RecvResult) (t : ℕ),
    (cleanupLoop t true polls = some rest →
      polls = List.replicate (uartMaxTries - t) .empty ++ rest ∨ Drained polls rest) ∧
    (t < uartMaxTries → cleanupLoop t false polls = some rest → Drained polls rest) := by
  intro polls
  induction polls with
  | nil =>
    intro t
    constructor
    · intro h
      rw [cleanupLoop] at h
      split at h
      · cases h
      · next hdone =>
        cases h
        rw [Nat.sub_eq_zero_of_le (Nat.le_of_not_lt hdone)]
        exact Or.inl rfl
    · intro ht h
      rw [cleanupLoop, if_pos ht] at h
      cases h
  | cons r polls ih =>
    intro t
    constructor
    · intro h
      rw [cleanupLoop] at h
      split at h
      · next hmore =>
        split at h
        · next hr =>
          subst hr
          rcases (ih (t + 1)).1 h with hpolls | hdrained
          · have hleft : uartMaxTries - t = uartMaxTries - (t + 1) + 1 := by omega
            rw [hleft, List.replicate_succ, List.cons_append, ← hpolls]
            exact Or.inl rfl
          · exact Or.inr (hdrained.cons _)
        · exact Or.inr (((ih t).2 hmore h).cons r)
      · next hdone =>
        cases h
        rw [Nat.sub_eq_zero_of_le (Nat.le_of_not_lt hdone)]
        exact Or.inl rfl
    · intro ht h
      rw [cleanupLoop, if_pos ht] at h
      split at h
      · -- the pass ends, and the count starts again
        rcases (ih 0).1 h with hpolls | hdrained
        · exact ⟨[r], by rw [hpolls]; rfl⟩
        · exact hdrained.cons r
      · exact ((ih t).2 ht h).cons r

/-- A call of `uart_sync` that leaves `CLEANUP` has drained the line. -/
def Drains (s : Session) : SessionInput → Prop
  | .sync polls => s.net.state = .cleanup → ∀ rest,
      cleanupLoop s.net.tries true polls = some rest → Drained polls rest
  | _ => True

/-- A call of `uart_sync` that finds the state `CLEANUP` finds a count of `0`, or one of
the polls that are missing finds something. -/
def CountsAfresh (s : Session) : SessionInput → Prop
  | .sync polls => s.net.state = .cleanup → s.net.tries ≠ 0 →
      polls.take (uartMaxTries - s.net.tries) ≠
        List.replicate (uartMaxTries - s.net.tries) .empty
  | _ => True

instance (s : Session) : ∀ i, Decidable (CountsAfresh s i)
  | .sync _ => inferInstanceAs (Decidable (_ → _ → _))
  | .recv _ => isTrue trivial
  | .join => isTrue trivial
  | .leave => isTrue trivial

theorem drains_iff (s : Session) (i : SessionInput) : Drains s i ↔ CountsAfresh s i := by
  cases i with
  | recv e => exact Iff.rfl
  | join => exact Iff.rfl
  | leave => exact Iff.rfl
  | sync polls =>
    refine forall_congr' fun _ => ?_
    constructor
    · intro h hcount hidle
      -- the loop ends before it has polled often enough
      have hpolls : polls = List.replicate (uartMaxTries - s.net.tries) .empty ++
          polls.drop (uartMaxTries - s.net.tries) := by
        rw [← hidle, List.take_append_drop]
      have hloop : cleanupLoop s.net.tries true polls =
          some (polls.drop (uartMaxTries - s.net.tries)) := by
        by_cases hmore : s.net.tries < uartMaxTries
        · have hidle' := cleanupLoop_idle (uartMaxTries - s.net.tries) s.net.tries
            (polls.drop (uartMaxTries - s.net.tries)) (by omega)
          rwa [← hpolls] at hidle'
        · rw [Nat.sub_eq_zero_of_le (Nat.le_of_not_lt hmore), List.drop_zero]
          cases polls with
          | nil => rw [cleanupLoop, if_neg hmore]
          | cons r polls => rw [cleanupLoop, if_neg hmore]
      obtain ⟨earlier, hdrained⟩ := h _ hloop
      have hlen := congrArg List.length (hpolls.symm.trans hdrained)
      simp only [List.length_append, List.length_replicate] at hlen
      have hmax : uartMaxTries = 4 := rfl
      omega
    · intro h rest hloop
      rcases (cleanupLoop_spec rest polls s.net.tries).1 hloop with hpolls | hdrained
      · by_cases hcount : s.net.tries = 0
        · refine ⟨[], ?_⟩
          rw [hpolls, hcount]
          rfl
        · refine absurd ?_ (h hcount)
          rw [hpolls, List.take_left' (List.length_replicate ..)]
      · exact hdrained

/-- **The line is drained exactly when the loop counts afresh.**  In every run of one
peer, through any number of sessions that end in any way and whatever the
receiver reports, every call that leaves `CLEANUP` has drained the line if and only
if no call finds `CLEANUP` with a count above `0` and polls only an empty line. -/
theorem cleanup_drains_iff (is : List SessionInput) :
    sessionMachine.Along Drains Session.start is ↔
      sessionMachine.Along CountsAfresh Session.start is :=
  Machine.along_congr drains_iff Session.start is

/-- A session that an error mark breaks off after four fruitless calls. -/
def brokenOff : List SessionInput :=
  .sync silent :: List.replicate 3 (.sync []) ++
    [.recv uartErrorCode, .sync [], .sync [.ok, .empty, .empty, .empty, .empty]]

/-- The session after it starts without a single poll, although a byte is waiting. -/
theorem brokenOff_not_drained : ¬ sessionMachine.Along Drains Session.start brokenOff := by
  rw [Machine.along_congr drains_iff]
  decide +kernel

end OperationMinix
