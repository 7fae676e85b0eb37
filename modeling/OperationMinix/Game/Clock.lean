import OperationMinix.Game.Discipline

/-!
# The interrupts of the clock chip

In the menu the clock chip interrupts when it has updated its time, and in a single
player game periodically, for the round timer; never both.  The enable bits of register
B are set and cleared one at a time in four functions, and one of them looks at the wrong
state: `set_state` sets the update interrupt when the main menu is left, where its comment
says that it is joined.

So a game that is started from the main menu runs with both interrupts, and a start that
fails leaves the menu with none.  A run in which no game is started from there has no
single player game in it at all, and keeps to the rule.

## Main definitions

* `Rtc.On` — an interrupt is enabled.
* `ClockFollows` — the interrupts are those of the state of the game.
* `StartsGame` — a tick that starts a game from the main menu.

## Main results

* `clock_follows` — **the interrupts follow the state of the game in the runs that start
  no game from the main menu**, and in no others.
-/

namespace OperationMinix

open Runs

set_option linter.unusedSectionVars false

/-! ### The enable bits -/

namespace Rtc

/-- A bit of register B is set. -/
def On (bit : Byte) (r : Rtc) : Prop := r.regB &&& bit ≠ 0

instance (bit : Byte) (r : Rtc) : Decidable (r.On bit) := inferInstanceAs (Decidable (_ ≠ _))

theorem on_enable (b bit : Byte) (r : Rtc) :
    (r.enable b).On bit ↔ r.On bit ∨ b &&& bit ≠ 0 := by
  have hor : (r.regB ||| b) &&& bit = (r.regB &&& bit) ||| (b &&& bit) := by
    ext i
    simp [Bool.and_or_distrib_right]
  show (r.regB ||| b) &&& bit ≠ 0 ↔ r.regB &&& bit ≠ 0 ∨ b &&& bit ≠ 0
  rw [hor, ne_eq, show (0 : Byte) = 0#8 from rfl, BitVec.or_eq_zero_iff, not_and_or]

theorem on_disable (b bit : Byte) (r : Rtc) :
    (r.disable b).On bit ↔ r.regB &&& (~~~b &&& bit) ≠ 0 := by
  show (r.regB &&& ~~~b) &&& bit ≠ 0 ↔ _
  rw [BitVec.and_assoc]

@[simp] theorem on_enable_uie (r : Rtc) : (r.enable rtcUie).On rtcUie := by
  rw [on_enable]
  exact Or.inr (by decide)

@[simp] theorem on_pie_enable_uie (r : Rtc) : (r.enable rtcUie).On rtcPie ↔ r.On rtcPie := by
  rw [on_enable, or_iff_left (by decide)]

@[simp] theorem on_enable_pie (r : Rtc) : (r.enable rtcPie).On rtcPie := by
  rw [on_enable]
  exact Or.inr (by decide)

@[simp] theorem on_uie_enable_pie (r : Rtc) : (r.enable rtcPie).On rtcUie ↔ r.On rtcUie := by
  rw [on_enable, or_iff_left (by decide)]

@[simp] theorem not_on_disable_uie (r : Rtc) : ¬ (r.disable rtcUie).On rtcUie := by
  rw [on_disable, show ~~~rtcUie &&& rtcUie = 0 by decide]
  simp

@[simp] theorem not_on_disable_pie (r : Rtc) : ¬ (r.disable rtcPie).On rtcPie := by
  rw [on_disable, show ~~~rtcPie &&& rtcPie = 0 by decide]
  simp

@[simp] theorem on_uie_disable_pie (r : Rtc) : (r.disable rtcPie).On rtcUie ↔ r.On rtcUie := by
  rw [on_disable, show ~~~rtcPie &&& rtcUie = rtcUie by decide]
  rfl

end Rtc

section Model

variable {K : Type*} [Field K] [LinearOrder K] [FloorRing K] (c : Setting K)

/-! ### Definitions -/

/-- The interrupts are those of the state of the game. -/
structure ClockFollows (g : Game K) : Prop where
  menu : g.state = .mainMenu → g.rtc.On rtcUie ∧ ¬ g.rtc.On rtcPie
  game : g.state = .game → ¬ g.rtc.On rtcUie ∧ g.rtc.On rtcPie

/-- The tick draws the main menu: the tick begins there, or the handshake gives up. -/
def ShowsMainMenu (t : Tick K) (g : Game K) : Prop :=
  g.state = .mainMenu ∨
    (g.state = .mpMenu ∧ ∃ n, uartSync t.polls g.net = .ok n ∧ n.state = .init)

/-- The tick starts a game from the main menu: it draws it while the left button is held
down over its first button. -/
def StartsGame (t : Tick K) (g : Game K) : Prop :=
  ShowsMainMenu t g ∧ g.world.player.movm.lbHeldDown = true ∧ g.mouseOver c .single = true

/-- The step starts no game from the main menu. -/
def StaysOut (g : Game K) : GameInput K → Prop
  | .tick t => ¬ StartsGame c t g
  | _ => True

instance (t : Tick K) (g : Game K) : Decidable (ShowsMainMenu t g) :=
  inferInstanceAs (Decidable (_ ∨ _))

instance (t : Tick K) (g : Game K) : Decidable (StartsGame c t g) :=
  inferInstanceAs (Decidable (_ ∧ _))

instance (g : Game K) : ∀ i : GameInput K, Decidable (StaysOut c g i)
  | .tick t => inferInstanceAs (Decidable (¬ StartsGame c t g))
  | .mouse _ _ _ => isTrue trivial
  | .kbd _ => isTrue trivial
  | .recv _ => isTrue trivial
  | .rtc _ => isTrue trivial

/-! ### Runs without a single player game -/

/-- The states with, or right after, a multiplayer game. -/
def ofMpGame : GameState → Bool
  | .mpGame => true
  | .endMGame => true
  | .winGame => true
  | .loseGame => true
  | _ => false

/-- The states of a single player level. -/
def inLevel : GameState → Bool
  | .game => true
  | .endSGame => true
  | _ => false

/-- No single player game has been started: the screen after a game leads back to the
lobby, and only the update interrupt is enabled. -/
structure MenuClock (g : Game K) : Prop where
  uie : g.rtc.On rtcUie
  pie : ¬ g.rtc.On rtcPie
  outside : inLevel g.state = false
  lobby : ofMpGame g.state = true → g.currLvl = -1

variable {c}

namespace MenuClock

variable {g g' : Game K} {s : GameState}

theorem clockFollows (h : MenuClock g) : ClockFollows g := by
  refine ⟨fun _ => ⟨h.uie, h.pie⟩, fun hst => ?_⟩
  have := h.outside
  rw [hst] at this
  cases this

theorem congr (h : MenuClock g) (hstate : g'.state = g.state) (hlvl : g'.currLvl = g.currLvl)
    (hrtc : g'.rtc.regB = g.rtc.regB) : MenuClock g' := by
  obtain ⟨uie, pie, outside, lobby⟩ := h
  unfold Rtc.On at uie pie
  rw [← hrtc] at uie pie
  rw [← hstate] at outside lobby
  rw [← hlvl] at lobby
  exact ⟨uie, pie, outside, lobby⟩

/-- Leaving the main menu enables what is enabled already. -/
theorem rtc_setState (h : MenuClock g) (s : GameState) :
    (g.setState s).rtc.On rtcUie ∧ ¬ (g.setState s).rtc.On rtcPie := by
  show Rtc.On rtcUie (if g.state = .mainMenu then g.rtc.enable rtcUie else g.rtc) ∧
    ¬ Rtc.On rtcPie (if g.state = .mainMenu then g.rtc.enable rtcUie else g.rtc)
  split
  · rw [Rtc.on_pie_enable_uie]
    exact ⟨Rtc.on_enable_uie _, h.pie⟩
  · exact ⟨h.uie, h.pie⟩

theorem setState (h : MenuClock g) (hs : inLevel s = false)
    (hlobby : ofMpGame s = true → g.currLvl = -1) : MenuClock (g.setState s) :=
  ⟨(h.rtc_setState s).1, (h.rtc_setState s).2, hs, hlobby⟩

theorem freeLevel (h : MenuClock g) : MenuClock (freeLevel g) :=
  ⟨(Rtc.on_uie_disable_pie _).mpr h.uie, Rtc.not_on_disable_pie _, h.outside, h.lobby⟩

theorem gmResetMpGame (h : MenuClock g) : MenuClock (gmResetMpGame g) := by
  have hnet : MenuClock (g.setNetworkState .cleanup) := h.congr rfl rfl rfl
  exact hnet.freeLevel.congr rfl rfl rfl

/-- The end of a multiplayer game. -/
theorem endMpGame (h : MenuClock g) (hst : ofMpGame g.state = true) (hs : inLevel s = false) :
    MenuClock (OperationMinix.gmResetMpGame (g.setState s)) :=
  (h.setState hs fun _ => h.lobby hst).gmResetMpGame

end MenuClock

/-! ### The stages of a tick -/

theorem MenuClock.receiveStage {g : Game K} (h : MenuClock g) : MenuClock (receiveStage c g) := by
  unfold OperationMinix.receiveStage
  split
  · next hst =>
    have hw : (uartReceiveData (driveEnemy c) g.net g.world).2.2.state = .mpGame :=
      uartReceiveData_replica (driveEnemy c)
        (fun pkt w h => (state_driveEnemy c pkt w).trans h) g.net hst
    generalize uartReceiveData (driveEnemy c) g.net g.world = out at *
    obtain ⟨res, n, w⟩ := out
    dsimp only at hw ⊢
    have hdriven : MenuClock { g with net := n, world := w } := h.congr (hw.trans hst.symm) rfl rfl
    have hmp : ofMpGame (Game.state { g with net := n, world := w }) = true := by
      rw [show Game.state { g with net := n, world := w } = .mpGame from hw]
      rfl
    -- the other peer may be given up after the result it has announced
    have hdisconnect : ∀ g' : Game K, MenuClock g' →
        MenuClock (if g'.net.state = .disconnected then g'.setState .disconnect else g') := by
      intro g' hg'
      split
      · exact hg'.setState rfl nofun
      · exact hg'
    apply hdisconnect
    cases res with
    | loseGameErr => exact hdriven.endMpGame (s := .loseGame) hmp rfl
    | winGameErr => exact hdriven.endMpGame (s := .winGame) hmp rfl
    | ok => exact hdriven
  · exact h

/-- The level of the multiplayer game is loaded, or is not. -/
theorem MenuClock.loadLevel {g : Game K} (h : MenuClock g) (player : ℕ) :
    MenuClock (loadLevel c 3 2 player g).2 := by
  unfold OperationMinix.loadLevel
  dsimp only
  split
  · exact h.congr rfl rfl rfl
  · exact ⟨(h.rtc_setState .mpGame).1, (h.rtc_setState .mpGame).2, rfl, fun _ => rfl⟩

/-- The ticks of the players, or the step of the handshake. -/
theorem MenuClock.playStage {t : Tick K} {g g' : Game K} (h : MenuClock g)
    (hg : playStage c t g = .ok g') : MenuClock g' := by
  rcases playStage_cases hg with ⟨-, rfl⟩ | ⟨-, n, -, rfl⟩ | ⟨-, rfl⟩
  · exact h.congr (state_simulate c t g.world) rfl rfl
  · have hnet : MenuClock { g with net := n } := h.congr rfl rfl rfl
    unfold afterSync
    split
    · exact (hnet.loadLevel _).congr rfl rfl rfl
    · split
      · exact (hnet.setState (s := .mainMenu) rfl nofun).congr rfl rfl rfl
      · exact hnet
  · exact h

theorem MenuClock.sendStage {g : Game K} (h : MenuClock g) : MenuClock (sendStage g) := by
  obtain ⟨cs, hsend⟩ := sendStage_eq g
  rw [hsend]
  exact h.congr rfl rfl rfl

theorem MenuClock.takeGun {g : Game K} (h : MenuClock g) (chosen : Option ℕ) :
    MenuClock (g.takeGun chosen) := by
  cases chosen <;> exact h.congr rfl rfl rfl

/-- Drawing the game: the end of the game may be asked for. -/
theorem MenuClock.renderGame {g : Game K} (h : MenuClock g) (hst : g.state = .mpGame) :
    MenuClock (renderGame c g) := by
  have hmenu : MenuClock (displayMenu c g) := by
    unfold displayMenu
    dsimp only
    generalize hopen : (if g.world.invMenu = .closed then _ else g) = g₁
    have hg₁ : MenuClock g₁ ∧ g₁.state = .mpGame := by
      rw [← hopen]
      split
      · exact ⟨h.congr rfl rfl rfl, hst⟩
      · exact ⟨h, hst⟩
    split
    · apply MenuClock.takeGun
      have htap : MenuClock (g₁.inControls fun m => { m with lbSingleTap := false }) :=
        hg₁.1.congr rfl rfl rfl
      split
      · have hmp : (g₁.inControls fun m => { m with lbSingleTap := false }).state = .mpGame := hg₁.2
        rw [if_pos hmp]
        exact htap.setState rfl fun _ => htap.lobby (by rw [hmp]; rfl)
      · exact htap
    · exact hg₁.1
  unfold OperationMinix.renderGame
  dsimp only
  split
  · exact h.congr rfl rfl rfl
  · split
    · exact hmenu.congr rfl rfl rfl
    · exact h

/-- The screens that are left with a click. -/
theorem MenuClock.onClick {g : Game K} (h : MenuClock g) {click : Game K → Game K}
    (hclick : g.world.player.movm.lbHeldDown = true → ∀ g' : Game K,
      g' = g.inControls (fun m => { m with lbHeldDown := false }) → MenuClock g' →
        MenuClock (click g')) :
    MenuClock (onClick click g) := by
  unfold OperationMinix.onClick
  split
  · next hlb => exact hclick hlb _ rfl (h.congr rfl rfl rfl)
  · exact h

/-- The screen after a multiplayer game leads to the main menu or the lobby. -/
theorem MenuClock.renderWinLoseScreen {g : Game K} (h : MenuClock g)
    (hst : ofMpGame g.state = true) : MenuClock (renderWinLoseScreen c g) := by
  have hlvl := h.lobby hst
  apply h.onClick
  rintro - g' hg' hclock
  have hlvl' : g'.currLvl = -1 := by
    rw [hg']
    exact hlvl
  have hst' : ofMpGame g'.state = true := by
    rw [hg']
    exact hst
  dsimp only
  split_ifs
  · exact hclock.setState rfl nofun
  · exact hclock.setState rfl nofun
  · next hnot hnext => exact absurd ⟨hlvl', hnext.2.2⟩ hnot
  · next hnot _ hagain => exact absurd ⟨hlvl', hagain.2⟩ hnot
  · exact hclock

theorem MenuClock.display {g : Game K} (h : MenuClock g)
    (hout : g.state = .mainMenu → g.world.player.movm.lbHeldDown = true →
      ¬ g.mouseOver c .single = true) :
    MenuClock (display c g) := by
  have houtside := h.outside
  have hexit : ∀ s : GameState, inLevel s = false → ofMpGame s = false →
      ∀ g' : Game K, MenuClock g' → MenuClock (g'.setState s) :=
    fun s hs hmp g' hg' => hg'.setState hs fun h => absurd (hmp.symm.trans h) (by decide)
  unfold OperationMinix.display
  split
  · next hst => rw [hst] at houtside; cases houtside
  · next hst => exact h.renderGame hst
  · next hst =>
    apply h.onClick
    rintro hlb g' hg' hclock
    rw [if_neg (by rw [hg']; exact hout hst hlb)]
    split_ifs
    · exact hexit .mpMenu rfl rfl _ hclock
    · exact hexit .exit rfl rfl _ hclock
    · exact hclock
  · apply h.onClick
    intro _ g' _ hclock
    split_ifs
    · exact (hexit .mainMenu rfl rfl _ hclock).congr rfl rfl rfl
    · exact hclock
  · next hst => exact h.renderWinLoseScreen (by rw [hst]; rfl)
  · next hst => exact h.renderWinLoseScreen (by rw [hst]; rfl)
  · apply h.onClick
    intro _ g' _ hclock
    split_ifs
    · exact hexit .mainMenu rfl rfl _ hclock
    · exact hclock
  · exact h

theorem MenuClock.updateGameState {g : Game K} (h : MenuClock g) :
    MenuClock (updateGameState g) := by
  have houtside := h.outside
  unfold OperationMinix.updateGameState
  split
  · next hst => rw [hst] at houtside; cases houtside
  · next hst =>
    have hmp : ofMpGame (OperationMinix.gmResetMpGame g).state = true := by
      rw [show (OperationMinix.gmResetMpGame g).state = .mpGame from hst]
      rfl
    dsimp only
    split_ifs
    · exact (h.gmResetMpGame.endMpGame (s := .loseGame) hmp rfl).congr rfl rfl rfl
    · exact (h.gmResetMpGame.endMpGame (s := .winGame) hmp rfl).congr rfl rfl rfl
    · exact h
  · next hst => rw [hst] at houtside; cases houtside
  · next hst => exact (h.endMpGame (s := .loseGame) (by rw [hst]; rfl) rfl).congr rfl rfl rfl
  · exact h

/-- What a tick that draws the main menu has done until then. -/
theorem playStage_of_shows {t : Tick K} {g : Game K} (h : ShowsMainMenu t g) :
    ∃ g₁, playStage c t (receiveStage c g) = .ok g₁ ∧ g₁.state = .mainMenu ∧
      g₁.world.player = g.world.player := by
  rcases h with hst | ⟨hst, n, hsync, hn⟩
  · have hrecv : receiveStage c g = g := if_neg (by rw [hst]; decide)
    refine ⟨g, ?_, hst, rfl⟩
    unfold playStage
    rw [hrecv, if_neg (by rw [hst]; decide), if_neg (by rw [hst]; decide)]
  · have hrecv : receiveStage c g = g := if_neg (by rw [hst]; decide)
    have hafter : afterSync c { g with net := n } =
        (Game.setState .mainMenu { g with net := n }).setNetworkState .cleanup := by
      unfold afterSync
      rw [if_neg (by rw [hn]; decide), if_pos hn]
    refine ⟨(Game.setState .mainMenu { g with net := n }).setNetworkState .cleanup, ?_, rfl, rfl⟩
    unfold playStage lobbyStage
    rw [hrecv, if_neg (by rw [hst]; decide), if_pos hst, hsync]
    exact congrArg Except.ok hafter

/-- A level that could not be loaded leaves the lobby as it is. -/
theorem loadLevel_state_ne {g : Game K} (hst : g.state = .mpMenu) (player : ℕ) :
    (loadLevel c 3 2 player g).2.state ≠ .mainMenu := by
  unfold loadLevel
  dsimp only
  split
  · show g.state ≠ .mainMenu
    rw [hst]
    decide
  · exact nofun

/-- **When a tick draws the main menu.** -/
theorem shows_of_playStage {t : Tick K} {g g₁ : Game K}
    (h : playStage c t (receiveStage c g) = .ok g₁) (hst₁ : g₁.state = .mainMenu) :
    ShowsMainMenu t g ∧ g₁.world.player = g.world.player := by
  have hrecv : receiveStage c g = g := by
    by_contra hne
    -- the packets of a game lead to no menu
    have hmp : g.state = .mpGame := by
      by_contra hmp
      exact hne (if_neg hmp)
    have hstates := state_receiveStage c hmp
    rcases playStage_cases h with ⟨-, rfl⟩ | ⟨hst, -⟩ | ⟨-, rfl⟩
    · have hmenu : (receiveStage c g).state = .mainMenu := (state_simulate c t _).symm.trans hst₁
      rw [hmenu] at hstates
      simp at hstates
    · rw [hst] at hstates
      simp at hstates
    · rw [hst₁] at hstates
      simp at hstates
  rw [hrecv] at h
  rcases playStage_cases h with ⟨hst, rfl⟩ | ⟨hst, n, hsync, rfl⟩ | ⟨-, rfl⟩
  · have hmenu : g.state = .mainMenu := (state_simulate c t g.world).symm.trans hst₁
    rw [hmenu] at hst
    simp at hst
  · unfold afterSync at hst₁ ⊢
    dsimp only at hst₁ ⊢
    split at hst₁
    · exact absurd hst₁ (loadLevel_state_ne (g := { g with net := n }) hst n.player)
    · next hc =>
      split at hst₁
      · next hn => exact ⟨Or.inr ⟨hst, n, hsync, hn⟩, by rw [if_neg hc, if_pos hn]; rfl⟩
      · exact absurd (hst.symm.trans hst₁) (by decide)
  · exact ⟨Or.inl hst₁, rfl⟩

/-- **One step** that starts no game from the main menu. -/
theorem MenuClock.step {g g' : Game K} {i : GameInput K} (hg : MenuClock g)
    (hi : StaysOut c g i) (h : (gameMachine c).step g i = some g') : MenuClock g' := by
  have hstep := h
  simp only [gameMachine] at h
  split at h
  · cases h
  · cases i with
    | mouse pos lb desl => cases h; exact hg.congr rfl rfl rfl
    | kbd k => cases h; exact hg.congr rfl rfl rfl
    | recv e => cases h; exact hg.congr rfl rfl rfl
    | rtc cause =>
      cases h
      unfold rtcIh
      split_ifs
      · exact hg.congr rfl rfl rfl
      · exact hg.congr rfl rfl rfl
      · exact hg
    | tick t =>
      have hclock : MenuClock (timerIntHandler g) := hg.congr rfl rfl rfl
      have hout : ¬ StartsGame c t (timerIntHandler g) := hi
      obtain ⟨b, hb, rfl⟩ := gameHandler_ok (gameHandler_of_tick hstep)
      obtain ⟨g₁, hplay, rfl⟩ := beforeUpdate_ok hb
      have hg₁ : MenuClock (OperationMinix.sendStage g₁) :=
        (hclock.receiveStage.playStage hplay).sendStage
      apply MenuClock.updateGameState
      refine (hg₁.display ?_).congr rfl rfl rfl
      intro hst hlb hover
      -- the menu is drawn with the mouse where it was at the start of the tick
      obtain ⟨cs, hsend⟩ := sendStage_eq g₁
      rw [hsend] at hst hlb hover
      obtain ⟨hshow, hplayer⟩ := shows_of_playStage hplay hst
      refine hout ⟨hshow, ?_, ?_⟩
      · rw [← hplayer]
        exact hlb
      · unfold Game.mouseOver
        rw [← hplayer]
        exact hover

/-! ### Games started from the main menu -/

/-- The bots are placed around the local player. -/
theorem placeBots_spec (l : Libm K) (fov : ℤ) : ∀ (bs : List (BotSpec K)) (d : Vec K) (w : World K),
    (placeBots l fov d bs w).player = w.player ∧ (placeBots l fov d bs w).map = w.map := by
  intro bs
  induction bs with
  | nil => intro d w; exact ⟨rfl, rfl⟩
  | cons b bs ih =>
    intro d w
    exact ih _ (initPlayer l fov (b.setup (b.direction.getD d)) w)

/-- The player of the first level stands alive on the cell `(2, 2)`. -/
theorem setupGame1_spec (w : World K) : (setupGame1 c w).map = w.map ∧
    (setupGame1 c w).player.health = 50 ∧ (setupGame1 c w).player.position = ⟨2, 2⟩ := by
  unfold setupGame1
  dsimp only
  obtain ⟨hplayer, hmap⟩ := placeBots_spec c.libm c.fov _ ⟨1, 2⟩ _
  rw [hplayer, hmap]
  exact ⟨rfl, rfl, rfl⟩

/-- `gm_init_game` called from the main menu: a game with both interrupts, or the menu with
no update interrupt. -/
theorem gmInitGame_menu {g : Game K} (hst : g.state = .mainMenu)
    (hportal : ∀ m, c.maps 1 = some m → m.cell (truncate (2 : K)) (truncate (2 : K)) ≠ -3) :
    let g' := gmInitGame c 1 1 1 g
    ¬ ClockFollows g' ∧ updateGameState (resetPlayerMouseMovm g') = resetPlayerMouseMovm g' := by
  have hmap : (1 : ℤ).toNat = 1 := rfl
  intro g'
  cases hm : c.maps 1 with
  | none =>
    have hg' : g'.state = .mainMenu ∧ ¬ g'.rtc.On rtcUie := by
      unfold g' gmInitGame loadLevel
      dsimp only
      rw [hmap, hm]
      exact ⟨hst, Rtc.not_on_disable_uie _⟩
    refine ⟨fun h => hg'.2 (h.menu hg'.1).1, ?_⟩
    unfold updateGameState
    rw [show (resetPlayerMouseMovm g').state = .mainMenu from hg'.1]
  | some m =>
    have hg' : g'.state = .game ∧ g'.rtc.On rtcUie ∧ g'.gameTimer = roundTimer ∧
        g'.world.map = m ∧ g'.world.player.health = 50 ∧ g'.world.player.position = ⟨2, 2⟩ := by
      unfold g' gmInitGame loadLevel
      dsimp only
      rw [hmap, hm]
      refine ⟨rfl, ?_, rfl, ?_⟩
      · -- `load_level` leaves the main menu, which enables what was disabled before
        refine (Rtc.on_uie_enable_pie _).mpr ?_
        show Rtc.On rtcUie (if g.state = .mainMenu then (g.rtc.disable rtcUie).enable rtcUie
          else g.rtc.disable rtcUie)
        rw [if_pos hst]
        exact Rtc.on_enable_uie _
      · exact setupGame1_spec _
    obtain ⟨hstate, huie, htimer, hmap, hhealth, hpos⟩ := hg'
    refine ⟨fun h => (h.game hstate).1 huie, ?_⟩
    have hfloor : (resetPlayerMouseMovm g').floorTexture =
        m.cell (truncate (2 : K)) (truncate (2 : K)) := by
      show g'.world.map.cell (truncate g'.world.player.position.x)
        (truncate g'.world.player.position.y) = _
      rw [hmap, hpos]
    unfold updateGameState
    rw [show (resetPlayerMouseMovm g').state = .game from hstate]
    dsimp only
    rw [if_neg, if_neg]
    · rw [hfloor]
      exact hportal m hm
    · show ¬ (g'.world.player.health ≤ 0 ∨ g'.gameTimer = 0)
      rw [hhealth, htimer]
      decide

/-- **A game started from the main menu breaks the rule at once.** -/
theorem step_startsGame {g : Game K} {t : Tick K} (h : StartsGame c t g)
    (hportal : ∀ m, c.maps 1 = some m → m.cell (truncate (2 : K)) (truncate (2 : K)) ≠ -3) :
    ∃ g', (gameMachine c).step g (.tick t) = some g' ∧ ¬ ClockFollows g' := by
  obtain ⟨hshow, hlb, hover⟩ := h
  have hexit : g.state ≠ .exit := by
    rcases hshow with hst | ⟨hst, -⟩ <;> rw [hst] <;> decide
  have hshow₀ : ShowsMainMenu t (timerIntHandler g) := hshow
  obtain ⟨g₁, hplay, hst, hplayer⟩ := playStage_of_shows (c := c) hshow₀
  have hsend : sendStage g₁ = g₁ := if_neg (by rw [hst]; decide)
  -- the menu is drawn, and its first button clicked
  have hdisplay : display c g₁ =
      gmInitGame c 1 1 1 (g₁.inControls fun m => { m with lbHeldDown := false }) := by
    have hover₁ : g₁.mouseOver c .single = true := by
      unfold Game.mouseOver
      rw [hplayer]
      exact hover
    have hlb₁ : g₁.world.player.movm.lbHeldDown = true := by
      rw [hplayer]
      exact hlb
    unfold display
    rw [hst]
    show renderMenu c g₁ = _
    unfold renderMenu onClick
    rw [if_pos hlb₁]
    exact if_pos hover₁
  obtain ⟨hbad, hupdate⟩ := gmInitGame_menu
    (g := g₁.inControls fun m => { m with lbHeldDown := false }) hst hportal
  have htick : gameHandler c t (timerIntHandler g) = .ok (resetPlayerMouseMovm
      (gmInitGame c 1 1 1 (g₁.inControls fun m => { m with lbHeldDown := false }))) := by
    unfold gameHandler beforeUpdate
    rw [hplay, ← hupdate, ← hdisplay]
    simp only [bind, Except.bind, hsend]
    rfl
  exact ⟨_, step_tick c hexit htick, fun h => hbad ⟨h.menu, h.game⟩⟩

/-- **The interrupts follow the state of the game**, when the clock starts without the
periodic interrupt, in the runs that start no game from the main menu.  In every other run
they do not, unless the first level begins on its exit. -/
theorem clock_follows (c : Setting K) (w : World K) (rtc : Rtc) (is : List (GameInput K)) :
    (¬ rtc.On rtcPie ∧ (gameMachine c).Along (StaysOut c) (Game.start w rtc) is →
      (gameMachine c).Always ClockFollows (Game.start w rtc) is) ∧
    ((∀ m, c.maps 1 = some m → m.cell (truncate (2 : K)) (truncate (2 : K)) ≠ -3) →
      (gameMachine c).Always ClockFollows (Game.start w rtc) is →
        ¬ rtc.On rtcPie ∧ (gameMachine c).Along (StaysOut c) (Game.start w rtc) is) := by
  have hstart : ¬ rtc.On rtcPie → MenuClock (Game.start w rtc) := fun hpie =>
    ⟨Rtc.on_enable_uie rtc, (Rtc.on_pie_enable_uie rtc).not.mpr hpie, rfl, nofun⟩
  constructor
  · rintro ⟨hpie, halong⟩
    exact Machine.always_of_along (fun g => MenuClock.clockFollows)
      (fun g i g' hg hi h => hg.step hi h) is _ (hstart hpie) halong
  · intro hportal halways
    have hpie : ¬ rtc.On rtcPie := fun hpie =>
      ((Machine.always_head halways).menu rfl).2 ((Rtc.on_pie_enable_uie rtc).mpr hpie)
    refine ⟨hpie, (Machine.always_iff_along (J := MenuClock) (fun g => MenuClock.clockFollows)
      (fun g i g' hg hi h => hg.step hi h) ?_ is _ (hstart hpie)).mp halways⟩
    intro g i _ hi
    cases i with
    | tick t => exact step_startsGame (not_not.mp hi) hportal
    | mouse pos lb desl => exact absurd trivial hi
    | kbd k => exact absurd trivial hi
    | recv e => exact absurd trivial hi
    | rtc cause => exact absurd trivial hi

end Model

/-- The lobby is entered and left again. -/
theorem clock_follows_lobby :
    (gameMachine scene).Always ClockFollows sceneStart (clickOn .multi ++ clickOn .exitScreen) ∧
      ¬ (gameMachine scene).Always ClockFollows sceneStart (clickOn .single) := by
  constructor
  · exact (clock_follows scene emptyWorld { regA := 0, regB := 0, pieState := 0 } _).1
      ⟨by decide, by decide +kernel⟩
  · intro h
    have halong := (clock_follows scene emptyWorld { regA := 0, regB := 0, pieState := 0 } _).2
      (by decide +kernel) h
    revert halong
    decide +kernel

/-- A single player game started from the main menu runs with the update interrupt. -/
theorem not_clock_follows_single :
    ∃ g, (gameMachine scene).run sceneStart (clickOn .single) = some g ∧ g.state = .game ∧
      g.rtc.On rtcUie ∧ ¬ ClockFollows g := by
  have hrun : ((gameMachine scene).run sceneStart (clickOn .single)).map (fun g =>
      (g.state, g.rtc.regB)) = some (.game, 0x50) := by decide +kernel
  obtain ⟨g, hg, hlook⟩ := Option.map_eq_some_iff.mp hrun
  obtain ⟨hstate, hreg⟩ := Prod.mk.inj hlook
  have huie : g.rtc.On rtcUie := by
    unfold Rtc.On
    rw [hreg]
    decide
  exact ⟨g, hg, hstate, huie, fun h => (h.game hstate).1 huie⟩

end OperationMinix
