import OperationMinix.Game.Discipline

/-!
# The round timer

The clock chip counts the round timer down, and the ticks of the game look at it: the
round is lost in the tick that finds it at zero.  The tick asks whether the timer is
zero, not whether it has run out.  When two seconds go by between two ticks, the timer
steps over zero and the round goes on without an end.

## Main definitions

* `drawnTime`, `renderTimer` — the time that a tick draws.
* `EndsAtZero` — no tick leaves a round with its time over, or draws a negative time.
* `InTime` — a tick of a round finds a timer that has not stepped over zero.
* `KeepsUp` — how many periodic interrupts come between two ticks of a round.

## Main results

* `ends_at_zero_iff` — **the round ends at zero as long as its ticks come in time.**
* `inTime_iff_keepsUp` — which interrupts let them come in time.
* `inTime_of_paced` — two periodic interrupts from tick to tick are not too many.
-/

namespace OperationMinix

open Runs

set_option linter.unusedSectionVars false

/-- `render_timer`: the minutes and the seconds, as they are written. -/
def renderTimer (timer : ℤ) : Byte × Byte :=
  (BitVec.ofInt 8 (timer.tdiv 60), BitVec.ofInt 8 (timer.tmod 60))

/-- The time that is written is the time there is, unless that is negative. -/
theorem renderTimer_exact {timer : ℤ} (h : timer ≤ roundTimer) :
    (60 * (renderTimer timer).1.toNat + (renderTimer timer).2.toNat : ℤ) = timer ↔ 0 ≤ timer := by
  unfold roundTimer at h
  constructor
  · intro htime
    omega
  · intro h0
    simp only [renderTimer, BitVec.toNat_ofInt, Int.tdiv_eq_ediv_of_nonneg h0,
      Int.tmod_eq_emod_of_nonneg h0]
    omega

section Model

variable {K : Type*} [Field K] [LinearOrder K] [FloorRing K] (c : Setting K)

/-- The argument of `render_timer` in a tick that draws it. -/
def drawnTime (t : Tick K) (g : Game K) : Option ℤ :=
  match playStage c t (receiveStage c g) with
  | .ok g => if (sendStage g).state = .game then some (sendStage g).gameTimer else none
  | .error _ => none

/-- The step does not leave a round going whose time is over, and draws no negative
time. -/
def EndsAtZero (g : Game K) : GameInput K → Prop
  | .tick t =>
    (∀ g', (gameMachine c).step g (.tick t) = some g' → g'.state = .game → 0 < g'.gameTimer) ∧
      ∀ time, drawnTime c t (timerIntHandler g) = some time → 0 ≤ time
  | _ => True

/-- A tick of a round comes before the clock chip has counted on from zero. -/
def InTime (g : Game K) : GameInput K → Prop
  | .tick _ => g.state = .game → 0 ≤ g.gameTimer
  | _ => True

instance (g : Game K) : ∀ i : GameInput K, Decidable (InTime g i)
  | .tick _ => inferInstanceAs (Decidable (_ → _))
  | .mouse _ _ _ => isTrue trivial
  | .kbd _ => isTrue trivial
  | .recv _ => isTrue trivial
  | .rtc _ => isTrue trivial

/-! ### The stages of a tick -/

/-- What `rtc_ih` counts with: the timer, and the interrupts since it was changed. -/
def Game.clock (g : Game K) : ℤ × ℕ := (g.gameTimer, g.rtc.pieState)

/-- Whatever is a round afterwards has just been started, or was one before and has
the time it had. -/
def KeepsTime (g g' : Game K) : Prop :=
  g'.state = .game → g'.clock = (roundTimer, 0) ∨ (g.state = .game ∧ g'.clock = g.clock)

variable {c}

namespace KeepsTime

variable {g g' g'' : Game K}

theorem refl (g : Game K) : KeepsTime g g := fun hst => Or.inr ⟨hst, rfl⟩

theorem trans (h : KeepsTime g g') (h' : KeepsTime g' g'') : KeepsTime g g'' := by
  intro hst
  rcases h' hst with hround | ⟨hst', htime⟩
  · exact Or.inl hround
  · rw [htime]
    exact h hst'

theorem of_ne (h : g'.state ≠ .game) : KeepsTime g g' := fun hst => absurd hst h

theorem congr (hstate : g'.state = g.state) (htime : g'.clock = g.clock) :
    KeepsTime g g' := fun hst => Or.inr ⟨hstate.symm.trans hst, htime⟩

theorem onClick {click : Game K → Game K} (h : ∀ g, KeepsTime g (click g)) (g : Game K) :
    KeepsTime g (onClick click g) := by
  unfold OperationMinix.onClick
  split
  · exact (congr rfl rfl).trans (h _)
  · exact refl g

/-- A round starts with its whole time. -/
theorem gmInitGame (mapNum : ℤ) (gameMode player : ℕ) (g : Game K) :
    KeepsTime g (gmInitGame c mapNum gameMode player g) := by
  unfold OperationMinix.gmInitGame loadLevel
  dsimp only
  cases c.maps mapNum.toNat with
  | none => exact congr rfl rfl
  | some m => exact fun _ => Or.inl rfl

theorem setState {s : GameState} (hs : s ≠ .game) (g : Game K) : KeepsTime g (g.setState s) :=
  of_ne hs

theorem renderMenu (g : Game K) : KeepsTime g (renderMenu c g) := by
  refine onClick (fun g => ?_) g
  split_ifs
  · exact gmInitGame 1 1 1 g
  · exact setState (by decide) g
  · exact setState (by decide) g
  · exact refl g

theorem renderMpMenu (g : Game K) : KeepsTime g (renderMpMenu c g) := by
  refine onClick (fun g => ?_) g
  split_ifs
  · exact of_ne (nofun : GameState.mainMenu ≠ .game)
  · exact refl g

theorem renderWinLoseScreen (g : Game K) : KeepsTime g (renderWinLoseScreen c g) := by
  refine onClick (fun g => ?_) g
  dsimp only
  split_ifs
  · exact setState (by decide) g
  · exact setState (by decide) g
  · exact gmInitGame _ 1 1 g
  · exact gmInitGame _ 1 1 g
  · exact refl g

theorem renderDisconnectScreen (g : Game K) : KeepsTime g (renderDisconnectScreen c g) := by
  refine onClick (fun g => ?_) g
  split_ifs
  · exact setState (by decide) g
  · exact refl g

theorem takeGun (chosen : Option ℕ) (g : Game K) : KeepsTime g (g.takeGun chosen) := by
  cases chosen with
  | none => exact refl g
  | some i => exact congr (World.state_modify _ _ _) rfl

theorem displayMenu (g : Game K) : KeepsTime g (displayMenu c g) := by
  unfold OperationMinix.displayMenu
  dsimp only
  generalize hopen : (if g.world.invMenu = .closed then _ else g) = g₁
  have hg₁ : KeepsTime g g₁ := by
    rw [← hopen]
    split
    · exact congr rfl rfl
    · exact refl g
  refine hg₁.trans ?_
  split
  · have htap : KeepsTime g₁ (g₁.inControls fun m => { m with lbSingleTap := false }) :=
      congr rfl rfl
    refine (htap.trans ?_).trans (takeGun _ _)
    split
    · split
      · exact setState (by decide) _
      · exact setState (by decide) _
    · exact refl _
  · exact refl g₁

theorem renderGame (g : Game K) : KeepsTime g (renderGame c g) := by
  unfold OperationMinix.renderGame
  dsimp only
  split
  · exact congr rfl rfl
  · split
    · exact (displayMenu g).trans (congr rfl rfl)
    · exact refl g

/-- **The screens.** -/
theorem display (g : Game K) : KeepsTime g (display c g) := by
  unfold OperationMinix.display
  split
  · exact renderGame g
  · exact renderGame g
  · exact renderMenu g
  · exact renderMpMenu g
  · exact renderWinLoseScreen g
  · exact renderWinLoseScreen g
  · exact renderDisconnectScreen g
  · exact refl g

/-- The handshake starts no round. -/
theorem afterSync (hst : g.state = .mpMenu) : (afterSync c g).state ≠ .game := by
  unfold OperationMinix.afterSync
  split
  · unfold loadLevel
    dsimp only
    cases c.maps (3 : ℤ).toNat with
    | none => exact hst.trans_ne nofun
    | some m => exact (nofun : GameState.mpGame ≠ .game)
  · split
    · exact (nofun : GameState.mainMenu ≠ .game)
    · exact hst.trans_ne nofun

end KeepsTime

/-- No round is started before the screen is drawn. -/
theorem playStage_game {t : Tick K} {g p : Game K} (h : playStage c t (receiveStage c g) = .ok p)
    (hst : (sendStage p).state = .game) :
    g.state = .game ∧ (sendStage p).clock = g.clock := by
  obtain ⟨cs, hsend⟩ := sendStage_eq p
  rw [hsend] at hst ⊢
  have hst' : p.state = .game := hst
  have hrecv : (receiveStage c g).state = .game → receiveStage c g = g := by
    intro hgame
    by_cases hmp : g.state = .mpGame
    · have hstates := state_receiveStage c hmp
      rw [hgame] at hstates
      simp at hstates
    · exact if_neg hmp
  rcases playStage_cases h with ⟨-, rfl⟩ | ⟨hmenu, n, -, rfl⟩ | ⟨⟨hplay, -⟩, rfl⟩
  · have hgame : (receiveStage c g).state = .game := (state_simulate c t _).symm.trans hst'
    have heq := hrecv hgame
    rw [heq] at hgame ⊢
    exact ⟨hgame, rfl⟩
  · exact absurd hst' (KeepsTime.afterSync (g := { receiveStage c g with net := n }) hmenu)
  · exact absurd (Or.inl hst') hplay

theorem KeepsTime.beforeUpdate {t : Tick K} {g b : Game K} (h : beforeUpdate c t g = .ok b) :
    KeepsTime g b := by
  obtain ⟨p, hplay, rfl⟩ := beforeUpdate_ok h
  have hsent : KeepsTime g (sendStage p) := fun hst => Or.inr (playStage_game hplay hst)
  exact (hsent.trans (display (sendStage p))).trans (congr rfl rfl)

/-- `update_game_state` lets a round go on unless its timer stands at zero. -/
theorem updateGameState_timed {g : Game K} (h : (updateGameState g).state = .game) :
    g.state = .game ∧ (updateGameState g).clock = g.clock ∧ g.gameTimer ≠ 0 := by
  have hsame := updateGameState_game h
  have hst : g.state = .game := by
    rw [← hsame]
    exact h
  refine ⟨hst, by rw [hsame], fun hzero => ?_⟩
  unfold updateGameState at h
  rw [hst] at h
  dsimp only at h
  rw [if_pos (Or.inr hzero)] at h
  cases h

/-- A tick draws the time of a round. -/
theorem drawnTime_game (t : Tick K) {g : Game K} (hst : g.state = .game) :
    drawnTime c t g = some g.gameTimer := by
  have hrecv : receiveStage c g = g := if_neg (by rw [hst]; nofun)
  have hplay : playStage c t g = .ok (g.inWorld (simulate c t)) := if_pos (Or.inl hst)
  have hsim : (g.inWorld (simulate c t)).state = .game := (state_simulate c t g.world).trans hst
  have hsend : sendStage (g.inWorld (simulate c t)) = g.inWorld (simulate c t) :=
    if_neg (by rw [hsim]; nofun)
  unfold drawnTime
  rw [hrecv, hplay]
  simp only [hsend, if_pos hsim]
  rfl

/-- A tick draws no other time. -/
theorem eq_of_drawnTime {t : Tick K} {g : Game K} {time : ℤ} (h : drawnTime c t g = some time) :
    g.state = .game ∧ time = g.gameTimer := by
  unfold drawnTime at h
  cases hplay : playStage c t (receiveStage c g) with
  | error f =>
    rw [hplay] at h
    cases h
  | ok p =>
    rw [hplay] at h
    dsimp only at h
    split at h
    · next hst =>
      cases h
      obtain ⟨hgame, hclock⟩ := playStage_game hplay hst
      exact ⟨hgame, congrArg Prod.fst hclock⟩
    · cases h

/-- A tick leaves a round with its whole time, or with the time that it has found. -/
theorem clock_tick {t : Tick K} {g g' : Game K}
    (h : gameHandler c t g = .ok g') (hst : g'.state = .game) :
    g'.gameTimer ≠ 0 ∧ (g'.clock = (roundTimer, 0) ∨ (g.state = .game ∧ g'.clock = g.clock)) := by
  obtain ⟨b, hb, hg'⟩ := gameHandler_ok h
  rw [hg'] at hst
  obtain ⟨hgame, hclock, hne⟩ := updateGameState_timed hst
  rw [← hg'] at hclock
  have hkeeps : KeepsTime g b := KeepsTime.beforeUpdate hb
  refine ⟨fun hzero => hne ((congrArg Prod.fst hclock).symm.trans hzero), ?_⟩
  rw [hclock]
  exact hkeeps hgame

theorem endsAtZero_iff (g : Game K) (i : GameInput K) : EndsAtZero c g i ↔ InTime g i := by
  cases i with
  | mouse pos lb desl => exact Iff.rfl
  | kbd k => exact Iff.rfl
  | recv e => exact Iff.rfl
  | rtc cause => exact Iff.rfl
  | tick t =>
    constructor
    · intro h hst
      exact h.2 g.gameTimer (drawnTime_game t (g := timerIntHandler g) hst)
    · intro h
      constructor
      · intro g' hg' hst'
        obtain ⟨hne, hround | ⟨hst, hkept⟩⟩ := clock_tick (gameHandler_of_tick hg') hst'
        · rw [show g'.gameTimer = roundTimer from congrArg Prod.fst hround]
          decide
        · have htimer : g'.gameTimer = g.gameTimer := congrArg Prod.fst hkept
          have hin : 0 ≤ g.gameTimer := h hst
          omega
      · intro time htime
        obtain ⟨hst, rfl⟩ := eq_of_drawnTime htime
        exact h hst

/-- **The round ends at zero as long as its ticks come in time.**  In every run, in any
order of the interrupts, every tick that goes on with a round leaves it time, and no
tick draws a negative time, if and only if no tick of a round finds the timer beyond
zero. -/
theorem ends_at_zero_iff (w : World K) (rtc : Rtc) (is : List (GameInput K)) :
    (gameMachine c).Along (EndsAtZero c) (Game.start w rtc) is ↔
      (gameMachine c).Along InTime (Game.start w rtc) is :=
  Machine.along_congr endsAtZero_iff _ is

/-! ### What may come between two ticks -/

/-- A periodic interrupt of the clock chip. -/
def IsPeriodic : GameInput K → Prop
  | .rtc cause => cause &&& rtcPf ≠ 0
  | _ => False

instance : ∀ i : GameInput K, Decidable (IsPeriodic i)
  | .rtc _ => inferInstanceAs (Decidable (_ ≠ _))
  | .tick _ => isFalse id
  | .mouse _ _ _ => isFalse id
  | .kbd _ => isFalse id
  | .recv _ => isFalse id

/-- No tick. -/
def Quiet (is : List (GameInput K)) : Prop := ∀ t, .tick t ∉ is

/-- The periodic interrupts among some inputs. -/
def beats (is : List (GameInput K)) : ℕ := is.countP fun i => IsPeriodic i

/-- Between two ticks of a round there come, with the one that has been counted, no more
periodic interrupts than two for every second that is left, and one. -/
def KeepsUp (c : Setting K) (g : Game K) (is : List (GameInput K)) : Prop :=
  ∀ pre t mid t' post g', is = pre ++ .tick t :: (mid ++ .tick t' :: post) → Quiet mid →
    (gameMachine c).run g (pre ++ [.tick t]) = some g' → g'.state = .game →
      g'.rtc.pieState + beats mid ≤ 2 * g'.gameTimer + 1

/-- The inputs come after a last tick, or there has been none. -/
theorem quiet_or_tick (is : List (GameInput K)) :
    Quiet is ∨ ∃ pre t mid, is = pre ++ .tick t :: mid ∧ Quiet mid := by
  induction is with
  | nil => exact Or.inl fun t h => by cases h
  | cons i is ih =>
    rcases ih with hquiet | ⟨pre, t, mid, rfl, hquiet⟩
    · by_cases htick : ∃ t, i = .tick t
      · obtain ⟨t, rfl⟩ := htick
        exact Or.inr ⟨[], t, is, rfl, hquiet⟩
      · refine Or.inl fun t ht => ?_
        rcases List.mem_cons.mp ht with rfl | ht
        · exact htick ⟨t, rfl⟩
        · exact hquiet t ht
    · exact Or.inr ⟨i :: pre, t, mid, rfl, hquiet⟩

/-- Half seconds that are left of a round. -/
def Game.halves (g : Game K) : ℤ := 2 * g.gameTimer - g.rtc.pieState

/-- A time is over when the halves are. -/
theorem timer_nonneg_iff {g : Game K} (hpie : g.rtc.pieState ≤ 1) :
    0 ≤ g.gameTimer ↔ -1 ≤ g.halves := by
  unfold Game.halves
  omega

theorem ne_exit_of_step {g g' : Game K} {i : GameInput K}
    (h : (gameMachine c).step g i = some g') : g.state ≠ .exit := by
  intro hexit
  simp only [gameMachine, if_pos hexit] at h
  cases h

/-- **The clock chip takes half a second** at every periodic interrupt, and nothing else
but a tick changes what is left. -/
theorem step_quiet {g : Game K} {i : GameInput K} (htick : ∀ t, i ≠ .tick t)
    (hexit : g.state ≠ .exit) :
    ∃ g', (gameMachine c).step g i = some g' ∧ g'.state = g.state ∧ (g.rtc.pieState ≤ 1 →
      g'.rtc.pieState ≤ 1 ∧ g'.halves + beats [i] = g.halves) := by
  have hquiet (i : GameInput K) (hi : ¬ IsPeriodic i) : g.halves + beats [i] = g.halves := by
    simp [beats, hi]
  simp only [gameMachine, if_neg hexit]
  cases i with
  | tick t => exact absurd rfl (htick t)
  | rtc cause =>
    refine ⟨_, rfl, ?_⟩
    by_cases hpf : IsPeriodic (.rtc cause : GameInput K)
    · have hbeat : beats [(.rtc cause : GameInput K)] = 1 := by simp [beats, hpf]
      rw [hbeat]
      unfold rtcIh Game.halves
      rw [if_pos (show cause &&& rtcPf ≠ 0 from hpf)]
      split
      · next hone =>
        exact ⟨rfl, fun _ => ⟨Nat.zero_le 1, by simp only [hone]; push_cast; ring⟩⟩
      · next hone =>
        refine ⟨rfl, fun hpie => ⟨?_, by push_cast; ring⟩⟩
        show g.rtc.pieState + 1 ≤ 1
        omega
    · rw [show rtcIh cause g = g from if_neg hpf]
      exact ⟨rfl, fun hpie => ⟨hpie, hquiet _ hpf⟩⟩
  | mouse pos lb desl => exact ⟨_, rfl, rfl, fun hpie => ⟨hpie, hquiet (.mouse pos lb desl) id⟩⟩
  | kbd k => exact ⟨_, rfl, rfl, fun hpie => ⟨hpie, hquiet (.kbd k) id⟩⟩
  | recv e => exact ⟨_, rfl, rfl, fun hpie => ⟨hpie, hquiet (.recv e) id⟩⟩

/-- The inputs between two ticks. -/
theorem run_quiet : ∀ (mid : List (GameInput K)) (g : Game K), Quiet mid → g.state ≠ .exit →
    ∃ g', (gameMachine c).run g mid = some g' ∧ g'.state = g.state ∧ (g.rtc.pieState ≤ 1 →
      g'.rtc.pieState ≤ 1 ∧ g'.halves + beats mid = g.halves) := by
  intro mid
  induction mid with
  | nil => intro g _ _; exact ⟨g, rfl, rfl, fun hpie => ⟨hpie, Int.add_zero _⟩⟩
  | cons i mid ih =>
    intro g hquiet hexit
    have hhead : ∀ t, i ≠ .tick t := fun t h => hquiet t (by rw [h]; exact List.mem_cons_self)
    have htail : Quiet mid := fun t h => hquiet t (List.mem_cons_of_mem _ h)
    obtain ⟨g₁, hg₁, hst₁, hpie₁⟩ := step_quiet (c := c) hhead hexit
    obtain ⟨g', hg', hst', hpie'⟩ := ih g₁ htail (hst₁ ▸ hexit)
    refine ⟨g', Machine.run_cons_eq_some.mpr ⟨g₁, hg₁, hg'⟩, hst'.trans hst₁, fun hpie => ?_⟩
    obtain ⟨hle₁, hhalves₁⟩ := hpie₁ hpie
    obtain ⟨hle', hhalves'⟩ := hpie' hle₁
    have hsplit : beats ([i] ++ mid) = beats [i] + beats mid := List.countP_append
    refine ⟨hle', ?_⟩
    rw [← List.singleton_append, ← hhalves₁, ← hhalves', hsplit]
    push_cast
    ring

/-- The interrupts that are counted in a round: none, or one. -/
theorem pieState_step {g g' : Game K} {i : GameInput K}
    (hg : g.state = .game → g.rtc.pieState ≤ 1) (h : (gameMachine c).step g i = some g') :
    g'.state = .game → g'.rtc.pieState ≤ 1 := by
  intro hst'
  by_cases htick : ∃ t, i = .tick t
  · obtain ⟨t, rfl⟩ := htick
    obtain ⟨-, hround | ⟨hst, hkept⟩⟩ := clock_tick (gameHandler_of_tick h) hst'
    · exact (congrArg Prod.snd hround).trans_le (Nat.zero_le 1)
    · exact (congrArg Prod.snd hkept).trans_le (hg hst)
  · obtain ⟨g₁, hg₁, hst₁, hpie₁⟩ :=
      step_quiet (c := c) (fun t hi => htick ⟨t, hi⟩) (ne_exit_of_step h)
    obtain rfl : g₁ = g' := Option.some.inj (hg₁.symm.trans h)
    exact (hpie₁ (hg (hst₁.symm.trans hst'))).1

/-- **The exact pace of the interrupts.**  A run from the start is in time if and only if
between any two ticks of a round there come, with the one that has been counted, no more
periodic interrupts than two for every second that is left, and one. -/
theorem inTime_iff_keepsUp (w : World K) (rtc : Rtc) (is : List (GameInput K)) :
    (gameMachine c).Along InTime (Game.start w rtc) is ↔ KeepsUp c (Game.start w rtc) is := by
  have hpie : ∀ (pre : List (GameInput K)) (g : Game K),
      (gameMachine c).run (Game.start w rtc) pre = some g → g.state = .game →
        g.rtc.pieState ≤ 1 := fun pre g hg =>
    Machine.run_invariant_of_step (J := fun g : Game K => g.state = .game → g.rtc.pieState ≤ 1)
      (fun _ _ _ hg h => pieState_step hg h) pre (fun h => by cases h) hg
  have hexit : ∀ g : Game K, g.state = .game → g.state ≠ .exit := fun g hst => by
    rw [hst]
    nofun
  rw [Machine.along_iff]
  constructor
  · intro h pre t mid t' post g' his hquiet hrun hst
    obtain ⟨g, hg, hst₁, hmid⟩ := run_quiet (c := c) mid g' hquiet (hexit g' hst)
    obtain ⟨hle, hhalves⟩ := hmid (hpie _ g' hrun hst)
    have hall : (gameMachine c).run (Game.start w rtc) ((pre ++ [.tick t]) ++ mid) = some g :=
      Machine.run_append_eq_some.mpr ⟨g', hrun, hg⟩
    have hin : InTime g (.tick t') := h _ (.tick t') post g (by rw [his]; simp) hall
    have hleft := (timer_nonneg_iff hle).mp (hin (hst₁.trans hst))
    unfold Game.halves at hleft hhalves
    omega
  · intro h pre i post g his hrun
    cases i with
    | tick t' =>
      intro hst
      rcases quiet_or_tick pre with hquiet | ⟨pre, t, mid, rfl, hquiet⟩
      · -- without a tick the menu has not been left
        obtain ⟨g₁, hg₁, hst₁, -⟩ := run_quiet (c := c) pre (Game.start w rtc) hquiet nofun
        rw [Option.some.inj (hrun.symm.trans hg₁), hst₁] at hst
        cases hst
      · rw [List.append_cons, Machine.run_append_eq_some] at hrun
        obtain ⟨g', hg', hrun⟩ := hrun
        have hexit' : g'.state ≠ .exit := by
          intro hexit'
          cases mid with
          | nil =>
            cases hrun
            rw [hexit'] at hst
            cases hst
          | cons i mid =>
            obtain ⟨u, hu, -⟩ := Machine.run_cons_eq_some.mp hrun
            exact ne_exit_of_step hu hexit'
        obtain ⟨g₁, hg₁, hst₁, hmid⟩ := run_quiet (c := c) mid g' hquiet hexit'
        obtain rfl : g = g₁ := Option.some.inj (hrun.symm.trans hg₁)
        have hst' : g'.state = .game := hst₁.symm.trans hst
        obtain ⟨hle, hhalves⟩ := hmid (hpie _ g' hg' hst')
        have hbeats := h pre t mid t' post g' (by rw [his]; simp) hquiet hg' hst'
        refine (timer_nonneg_iff hle).mpr ?_
        unfold Game.halves at hhalves ⊢
        omega
    | _ => trivial

/-! ### Interrupts that keep pace -/

/-- How many periodic interrupts may still come before the next tick. -/
def leftAfter (n : ℕ) : GameInput K → ℕ
  | .tick _ => 2
  | i => if IsPeriodic i then n - 1 else n

/-- At most two periodic interrupts come between two ticks, and at most `n` before the
next one. -/
def Paced : ℕ → List (GameInput K) → Prop
  | _, [] => True
  | n, i :: is => (IsPeriodic i → 0 < n) ∧ Paced (leftAfter n i) is

/-- The time of a round, with at most `n` periodic interrupts before the next tick: once
the timer stands at zero, the next one of them does not count. -/
def HasTime (n : ℕ) (g : Game K) : Prop :=
  g.state = .game → 0 < g.gameTimer ∨ (g.gameTimer = 0 ∧ (n = 0 ∨ (n = 1 ∧ g.rtc.pieState ≠ 1)))

/-- A periodic interrupt. -/
theorem HasTime.periodic {n : ℕ} {g : Game K} {cause : Byte} (hn : n ≤ 1)
    (hpf : cause &&& rtcPf ≠ 0) (h : HasTime (n + 1) g) : HasTime n (rtcIh cause g) := by
  intro hst
  unfold rtcIh at hst ⊢
  rw [if_pos hpf] at hst ⊢
  by_cases hpie : g.rtc.pieState = 1
  · rw [if_pos hpie] at hst ⊢
    rcases h hst with hpos | ⟨hzero, hlast | ⟨hlast, hskip⟩⟩
    · rcases Int.lt_or_eq_of_le (Int.le_sub_one_of_lt hpos) with hmore | hlast
      · exact Or.inl hmore
      · -- the count of the interrupts starts again
        refine Or.inr ⟨hlast.symm, ?_⟩
        rcases Nat.le_one_iff_eq_zero_or_eq_one.mp hn with rfl | rfl
        · exact Or.inl rfl
        · exact Or.inr ⟨rfl, Nat.zero_ne_one⟩
    · omega
    · exact absurd hpie hskip
  · rw [if_neg hpie] at hst ⊢
    rcases h hst with hpos | ⟨hzero, hlast | ⟨hlast, hskip⟩⟩
    · exact Or.inl hpos
    · omega
    · exact Or.inr ⟨hzero, Or.inl (by omega)⟩

theorem HasTime.inTime {n : ℕ} {g : Game K} (h : HasTime n g) (t : Tick K) :
    InTime g (.tick t) := by
  intro hst
  rcases h hst with hpos | ⟨hzero, -⟩
  · exact hpos.le
  · exact hzero.ge

/-- **One step** of a run that keeps pace. -/
theorem HasTime.step {n : ℕ} {g g' : Game K} {i : GameInput K} (hn : n ≤ 2) (hg : HasTime n g)
    (hi : IsPeriodic i → 0 < n) (h : (gameMachine c).step g i = some g') :
    HasTime (leftAfter n i) g' ∧ leftAfter n i ≤ 2 := by
  have hexit := ne_exit_of_step h
  have hstep := h
  simp only [gameMachine, if_neg hexit] at hstep
  cases i with
  | tick t =>
    refine ⟨fun hst => Or.inl ?_, le_rfl⟩
    exact ((endsAtZero_iff g (.tick t)).mpr (hg.inTime t)).1 g' h hst
  | rtc cause =>
    cases hstep
    by_cases hpf : cause &&& rtcPf ≠ 0
    · obtain ⟨k, rfl⟩ : ∃ k, n = k + 1 := Nat.exists_eq_succ_of_ne_zero (hi hpf).ne'
      rw [show leftAfter (k + 1) (.rtc cause : GameInput K) = k from if_pos hpf]
      exact ⟨hg.periodic (by omega) hpf, by omega⟩
    · rw [show rtcIh cause g = g from if_neg hpf,
        show leftAfter n (.rtc cause : GameInput K) = n from if_neg hpf]
      exact ⟨hg, hn⟩
  | mouse pos lb desl => cases hstep; exact ⟨hg, hn⟩
  | kbd k => cases hstep; exact ⟨hg, hn⟩
  | recv e => cases hstep; exact ⟨hg, hn⟩

/-- **Two periodic interrupts from tick to tick are not too many**: every run from the
start in which no more come is in time. -/
theorem inTime_of_paced (w : World K) (rtc : Rtc) (is : List (GameInput K)) (h : Paced 2 is) :
    (gameMachine c).Along InTime (Game.start w rtc) is := by
  have hruns : ∀ (is : List (GameInput K)) (n : ℕ) (g : Game K), n ≤ 2 → Paced n is →
      HasTime n g → (gameMachine c).Along InTime g is := by
    intro is
    induction is with
    | nil => intro n g _ _ _; trivial
    | cons i is ih =>
      intro n g hn hpaced hg
      constructor
      · cases i with
        | tick t => exact hg.inTime t
        | _ => trivial
      · cases hstep : (gameMachine c).step g i with
        | none => trivial
        | some g' =>
          obtain ⟨hg', hn'⟩ := hg.step hn hpaced.1 hstep
          exact ih _ g' hn' hpaced.2 hg'
  exact hruns is 2 (Game.start w rtc) le_rfl h nofun

/-! ### A round without an end -/

/-- `n` periodic interrupts. -/
def clockTicks (n : ℕ) : List (GameInput ℚ) := List.replicate n (.rtc rtcPf)

/-- A round is played until one second is left, and two seconds go by before the next
tick. -/
def overtime : List (GameInput ℚ) :=
  clickOn .single ++ clockTicks 318 ++ [silentTick] ++ clockTicks 4 ++ [silentTick]

/-- The round goes on. -/
theorem overtime_not_endsAtZero :
    ¬ (gameMachine scene).Along (EndsAtZero scene) sceneStart overtime := by
  rw [Machine.along_congr endsAtZero_iff]
  decide +kernel

end Model

end OperationMinix
