import OperationMinix.Ai.EnemyController
import OperationMinix.Game.Discipline
import OperationMinix.Player.Trigger
import OperationMinix.Utils.Numbers
import OperationMinix.Utils.RayCast

/-!
# Shots nobody asked for

The trigger is pulled in `player_int_ih`, for the local player only when its button
asks for it, and for everybody else in every tick.  Two kinds of players are meant
not to shoot and do.

The replica of the other machine's player follows the packets, which say whether
that player shoots; nothing looks at what they say.  A bot that has died lets the
trigger go, stays on the map until its last picture has been shown, and makes its
ticks until then like the living.

## Main definitions

* `enemyCalls` — the calls of `player_int_ih` for an enemy in a tick.
* `DeathSpent`, `DeathFinal` — what an enemy must leave behind, and what its death is
  then worth.
* `campaign` — the program with its maps, on numbers that can be computed with.
* `walkToAmmo`, `shootBot` — a session of the multiplayer game and one of the first level.

## Main results

* `replica_spares_iff` — **the replica shoots whenever its gun is loaded.**
* `death_final` — **a dead enemy that is spent stays dead and harms nobody.**
* `walkToAmmo_run`, `shootBot_run` — the shots nobody asked for, on the maps of the game.
-/

namespace OperationMinix

open Runs

set_option linter.unusedSectionVars false

section Model

variable {K : Type*} [Field K] [LinearOrder K] [FloorRing K]

/-! ### The replica -/

/-- Beyond the enemies there is zeroed memory. -/
theorem World.valid_of_ne_zero {w : World K} {ref : PlayerRef} (h : w.get ref ≠ .zero) :
    w.Valid ref := by
  cases ref with
  | player => trivial
  | enemy i =>
    by_contra hi
    apply h
    simp [World.get, List.getD, List.getElem?_eq_none (Nat.le_of_not_lt hi)]

/-- **The replica shoots whenever its gun is loaded.**  For every world, a packet that
does not shoot drives the replica through a tick whose shot spends no bullet and
hurts nobody if and only if the gun that the packet leaves in the hands of the
replica is not loaded. -/
theorem replica_spares_iff (e : Env K) (ref : PlayerRef) (w : World K)
    (htype : (w.get ref).type = .networkPlayer) :
    ∀ pkt : NetworkPacket, pkt.shootDown = false →
      (Spares ref (atTrigger e ref (w.modify ref (decodePacket pkt)))
          (shoot e ref (atTrigger e ref (w.modify ref (decodePacket pkt)))).2 ↔
        ¬ Loaded (numberKeys (decodePacket pkt (w.get ref)))) := by
  intro pkt _
  have hr : w.Valid ref := by
    apply World.valid_of_ne_zero
    intro hzero
    rw [hzero] at htype
    cases htype
  have hr1 := World.valid_modify hr (decodePacket pkt)
  have htype1 : ((w.modify ref (decodePacket pkt)).get ref).type = .networkPlayer := by
    rw [World.get_modify_self hr]
    exact htype
  have htrigger := (atTrigger_type e hr1).trans htype1
  rw [shoot_eq_fire e (by simp [htrigger]), spares_fire_iff e (atTrigger_valid e hr1),
    loaded_atTrigger e hr1 (by simp [htype1]), World.get_modify_self hr]

/-- A replica that has just been created takes a packet in which nothing is pressed. -/
theorem replica_spares_iff_created :
    let w := initPlayer openField.libm 66 replicaSetup emptyWorld
    let pkt := decodeData [0xac, 0x00, 0x00]
    let trigger := atTrigger openField (.enemy 0) (w.modify (.enemy 0) (decodePacket pkt))
    pkt.shootDown = false ∧ (Spares (.enemy 0) trigger (shoot openField (.enemy 0) trigger).2 ↔
      ¬ Loaded (numberKeys (decodePacket pkt (w.get (.enemy 0))))) :=
  ⟨rfl, replica_spares_iff openField (.enemy 0) _ rfl (decodeData [0xac, 0x00, 0x00]) rfl⟩

/-! ### The shipped levels -/

/-- `map001.mxmap`. -/
def map001 : GameMap :=
  { lines := 11, columns := 22
    matrix :=
      [ [6, 6, 6, 6, 6, 6, 5, 5, 5, 5, 5, 5, 5, 5, 3, 3, 3, 3, 3, 0, 0, 0],
        [6, 0, 0, 0, 0, 6, 5, 5, 5, 5, 5, 0, 0, 0, 0, 0, 0, 0, 3, 5, 5, 5],
        [6, 0, 0, 0, 0, 6, 5, 5, 5, 5, 5, 0, 5, 5, 0, 0, 0, 0, 0, 0, 0, 5],
        [6, 0, 0, 0, 0, 0, 0, 0, 0, 0, 0, 0, 5, 5, 0, 0, 0, 0, 3, 5, 0, 5],
        [6, 6, 6, 6, 6, 6, 5, 5, 5, 5, 5, 5, 5, 5, 3, 3, 3, 3, 3, 5, 0, 5],
        [0, 0, 0, 0, 0, 4, 4, 4, 4, 4, 0, 3, 3, 3, 2, 2, 2, 2, 2, 2, 0, 2],
        [2, 0, 0, 0, 0, 1, -3, 0, 0, 0, 3, 3, 0, 0, 0, 0, 0, 0, 0, 0, 0, 2],
        [2, 0, 0, 0, 0, 1, -3, 0, 0, 0, 0, 0, 0, 3, 2, 0, 0, 0, 0, 0, 2, 2],
        [2, 0, 0, 0, 0, 4, 4, 4, 4, 4, 3, 3, 3, 2, 2, 0, 0, 0, 0, 0, 2, 2],
        [2, 0, 0, 0, 0, 4, 4, 4, 4, 4, 3, 3, 3, 2, 2, 0, 0, 0, 0, 0, 2, 2],
        [2, 2, 2, 2, 2, 4, 4, 4, 4, 4, 3, 3, 3, 2, 2, 2, 2, 2, 2, 2, 2, 2] ] }

/-- `map003.mxmap`. -/
def map003 : GameMap :=
  { lines := 20, columns := 42
    matrix :=
      [ [6, 6, 6, 6, 6, 6, 6, 6, 5, 5, 5, 5, 5, 5, 5, 5, 5, 5, 5, 5, 5, 5, 5, 5, 5, 5,
          5, 5, 5, 5, 5, 5, 5, 5, 5, 5, 5, 5, 5, 5, 5, 5],
        [6, 0, 0, 0, 0, 0, 0, 6, 0, 0, 0, 0, 0, 0, 0, 0, 0, 0, 4, 4, 0, 0, 0, 0, 0, 0,
          0, 0, 0, 0, 0, 0, 0, 0, 0, 0, 0, 0, 0, 0, 0, 5],
        [6, 0, 0, 0, 0, 0, 0, 6, 4, 4, 4, 4, 4, 4, 4, 4, 4, 4, 4, 4, 4, 4, 4, 4, 4, 4,
          4, 4, 4, 4, 4, 0, 0, 0, 0, 0, 0, 0, 0, 0, 0, 5],
        [6, 0, 0, 0, 0, 0, 0, 6, 4, 0, 0, 0, 0, 0, 0, 0, 0, 0, 0, 0, 0, 0, 4, 0, 0, 0,
          0, 0, 0, 0, 4, 0, 0, 0, 0, 0, 0, 0, 0, 0, 0, 5],
        [6, 6, 6, 0, 6, 6, 6, 6, 4, 4, 4, 4, 0, 4, 4, 4, 4, 4, 4, 4, 0, 0, 4, 0, 4, 4,
          4, 4, 4, 4, 4, 0, 0, 0, 0, 0, 0, 0, 0, 0, 0, 5],
        [5, 0, 0, 0, 0, 0, 0, 0, 4, 4, 4, 4, 0, 6, 6, 6, 6, 6, 4, 4, 0, 0, 4, 0, 0, 0,
          0, 0, 0, 0, 4, 4, 4, 4, 4, 4, 4, 0, 0, 0, 0, 5],
        [5, 0, 0, 0, 0, 0, 0, 0, 4, 4, 4, 4, 0, 0, 0, 0, 0, 0, 6, 4, 0, 0, 4, 4, 4, 4,
          4, 4, 0, 0, 0, 0, 0, 0, 0, 0, 4, 0, 0, 0, 0, 5],
        [5, 0, 0, 0, 0, 0, 0, 0, 4, 0, 0, 0, 0, 0, 0, 0, 0, 0, 6, 4, 0, 0, 4, 0, 0, 0,
          0, 0, 0, 0, 0, 0, 0, 0, 0, 0, 4, 0, 0, 0, 0, 5],
        [5, 0, 0, 0, 0, 4, 4, 4, 4, 0, 0, 0, 0, 0, 0, 0, 0, 0, 6, 4, 0, 0, 4, 0, 4, 4,
          4, 4, 0, 0, 4, 4, 4, 4, 0, 0, 4, 0, 0, 0, 0, 5],
        [5, 0, 0, 0, 0, 4, 0, 0, 0, 0, 0, 4, 0, 0, 0, 0, 0, 0, 6, 4, 0, 0, 4, 0, 0, 0,
          0, 4, 0, 0, 4, 0, 0, 4, 0, 4, 4, 0, 0, 0, 0, 5],
        [5, 0, 0, 0, 0, 4, 0, 0, 4, 0, 0, 4, 4, 4, 4, 4, 4, 4, 4, 4, 0, 0, 4, 4, 4, 4,
          4, 4, 0, 0, 4, 0, 0, 4, 0, 4, 0, 0, 0, 0, 0, 5],
        [5, 0, 0, 0, 0, 4, 0, 0, 4, 0, 0, 4, 4, 0, 0, 0, 0, 0, 0, 0, 0, 0, 0, 0, 0, 0,
          0, 0, 0, 0, 4, 0, 0, 4, 0, 4, 0, 0, 0, 0, 0, 5],
        [5, 0, 0, 0, 0, 4, 0, 0, 4, 0, 0, 0, 0, 0, 4, 4, 4, 4, 4, 4, 4, 4, 4, 0, 0, 0,
          0, 0, 0, 0, 4, 0, 0, 0, 0, 0, 0, 0, 0, 0, 0, 5],
        [5, 0, 0, 0, 0, 4, 0, 0, 4, 4, 4, 0, 0, 4, 0, 0, 0, 0, 0, 0, 0, 0, 4, 0, 4, 4,
          4, 0, 0, 4, 4, 0, 0, 0, 0, 0, 0, 0, 0, 0, 0, 5],
        [5, 0, 0, 0, 0, 4, 0, 0, 0, 0, 4, 0, 0, 4, 4, 4, 4, 0, 4, 0, 0, 0, 4, 0, 4, 0,
          4, 0, 0, 4, 0, 0, 0, 0, 0, 0, 0, 0, 0, 0, 0, 5],
        [5, 0, 0, 0, 0, 4, 4, 4, 4, 4, 4, 0, 0, 4, 4, 4, 4, 0, 4, 0, 0, 4, 4, 0, 4, 0,
          4, 0, 0, 4, 0, 0, 0, 0, 6, 6, 6, 6, 0, 6, 6, 6],
        [5, 0, 0, 0, 0, 0, 0, 0, 0, 0, 0, 0, 0, 0, 0, 0, 0, 0, 4, 0, 0, 0, 0, 0, 4, 0,
          4, 0, 0, 4, 0, 0, 0, 0, 6, 0, 0, 0, 0, 0, 0, 6],
        [5, 0, 0, 0, 0, 4, 4, 4, 4, 4, 4, 4, 4, 4, 4, 4, 4, 4, 4, 4, 4, 4, 4, 4, 4, 0,
          4, 4, 4, 4, 0, 0, 0, 0, 6, 0, 0, 0, 0, 0, 0, 6],
        [5, 0, 0, 0, 0, 0, 0, 0, 0, 0, 0, 0, 0, 0, 0, 0, 0, 0, 4, 4, 0, 0, 0, 0, 0, 0,
          0, 0, 0, 0, 0, 0, 0, 0, 6, 0, 0, 0, 0, 0, 0, 6],
        [5, 5, 5, 5, 5, 5, 5, 5, 5, 5, 5, 5, 5, 5, 5, 5, 5, 5, 5, 5, 5, 5, 5, 5, 5, 5,
          5, 5, 5, 5, 5, 5, 5, 5, 6, 6, 6, 6, 6, 6, 6, 6] ] }

/-- The ray cast in exact arithmetic. -/
def exactRay {K : Type*} [Field K] [LinearOrder K] [FloorRing K] (m : GameMap) (pos dir : Vec K)
    (range : K) : RayHit K :=
  match shootRay exact m pos.lift dir.lift (range : WithTop K) (m.lines + m.columns + 1) with
  | none => { hit := false, side := 0, mapPos := (0, 0), distance := 0 }
  | some v =>
    { hit := v.hit, side := v.side, mapPos := (v.mapPos.x.toNat, v.mapPos.y.toNat)
      distance := v.distance.untopD 0 }

section

attribute [local instance] quickField quickOrder quickFloor

/-- The program with the maps of its first level and of the multiplayer game. -/
def campaign : Setting ℚ :=
  { scene with
    libm := cutLibm
    maps := fun i => if i = 1 then some map001 else if i = 3 then some map003 else none
    shootRay := exactRay }

/-- The letters of a packet arrive: a turn of the mouse and the flags. -/
def packetOf (mouse flags : Byte) : List (GameInput ℚ) :=
  [0xa9, mouse, flags].map fun b => .recv (entry b)

/-- The game is joined as the second peer, which starts the handshake. -/
def joinSecond : List (GameInput ℚ) :=
  clickOn .multi ++ silentTick ::
    (List.replicate 6 uartAck ++ uartSyncResponse.take uartPasswordSize).flatMap fun b =>
      [.recv (entry b), silentTick]

/-- The replica turns, and runs for `n` ticks of ten packets. -/
def runReplica (n : ℕ) (mouse flags : Byte) : List (GameInput ℚ) :=
  packetOf mouse flags ++ silentTick ::
    (List.replicate n ((List.replicate 10 (packetOf 0 0x44)).flatten ++ [silentTick])).flatten

/-- The replica runs out of its room, down the corridor and on to the ammunition of the gun in
its hands; then it stands still until the gun is reloaded.  No packet ever shoots. -/
def walkToAmmo : List (GameInput ℚ) :=
  runReplica 4 132 0x44 ++ runReplica 18 58 0x44 ++ runReplica 17 190 0xc4 ++
    List.replicate 90 silentTick ++ (packetOf 0 0x00 ++ [silentTick])

/-- The gun of the replica before and after the tick of the next packet. -/
def nextShot (g : Game ℚ) : ℕ × ℕ :=
  let pkt := decodeData [0xa9, 0x00, 0x00]
  let trigger := atTrigger campaign.toEnv (.enemy 0) (g.world.modify (.enemy 0) (decodePacket pkt))
  (((trigger.get (.enemy 0)).gunAt 0).currAmmo,
    (((shoot campaign.toEnv (.enemy 0) trigger).2.get (.enemy 0)).gunAt 0).currAmmo)

set_option maxRecDepth 100000 in
theorem walkToAmmo_run :
    ((gameMachine campaign).run sceneStart (joinSecond ++ walkToAmmo)).map (fun g =>
      (g.state, nextShot g)) = some (.mpGame, 30, 29) := by
  decide +kernel

/-- The next packet in which nothing is pressed makes the replica shoot. -/
theorem not_replica_spares_standing :
    let pkt := decodeData [0xa9, 0x00, 0x00]
    ∃ g, (gameMachine campaign).run sceneStart (joinSecond ++ walkToAmmo) = some g ∧
      g.state = .mpGame ∧ pkt.shootDown = false ∧
      let trigger :=
        atTrigger campaign.toEnv (.enemy 0) (g.world.modify (.enemy 0) (decodePacket pkt))
      ¬ Spares (.enemy 0) trigger (shoot campaign.toEnv (.enemy 0) trigger).2 := by
  intro pkt
  obtain ⟨g, hg, hshot⟩ := Option.map_eq_some_iff.mp walkToAmmo_run
  simp only [nextShot, Prod.mk.injEq] at hshot
  obtain ⟨hstate, hbefore, hafter⟩ := hshot
  refine ⟨g, hg, hstate, rfl, fun hspares => ?_⟩
  have hkept := hspares.ammo 0
  rw [hbefore, hafter] at hkept
  cases hkept

end

/-! ### The ticks of the enemies -/

/-- The worlds in which `bot_int_ih`, on the enemies from `i` on, calls
`player_int_ih` for enemy `k`. -/
def botCalls (e : Env K) (k : ℕ) : ℕ → ℕ → World K → List (World K)
  | 0, _, _ => []
  | n + 1, i, w =>
    if (w.get (.enemy i)).shouldRender then
      (if i = k then [w] else []) ++ botCalls e k n (i + 1) (playerIntIh e (.enemy i) w)
    else botCalls e k n (i + 1) w

/-- Only players that exist are shown. -/
theorem valid_of_shouldRender {w : World K} {i : ℕ}
    (h : (w.get (.enemy i)).shouldRender = true) : w.Valid (.enemy i) := by
  apply World.valid_of_ne_zero
  intro hzero
  rw [hzero] at h
  cases h

theorem shouldRender_of_mem_botCalls (e : Env K) (k : ℕ) : ∀ (n i : ℕ) (w : World K),
    ∀ v ∈ botCalls e k n i w, (v.get (.enemy k)).shouldRender = true := by
  intro n
  induction n with
  | zero => intro i w v hv; cases hv
  | succ n ih =>
    intro i w v hv
    unfold botCalls at hv
    split at hv
    · next hshow =>
      rw [List.mem_append] at hv
      rcases hv with hv | hv
      · split at hv
        · next hik =>
          rw [List.mem_singleton.mp hv, ← hik]
          exact hshow
        · cases hv
      · exact ih (i + 1) _ v hv
    · exact ih (i + 1) w v hv

/-- **The ticks of the enemies do not change the health of a dead one** that is spent
whenever its own turn comes. -/
theorem health_botIntIh_dead (e : Env K) (k : ℕ) : ∀ (n i : ℕ) (w : World K),
    (∀ v ∈ botCalls e k n i w, (v.get (.enemy k)).health = 0 → Spent e (.enemy k) v) →
      (w.get (.enemy k)).health = 0 → ((botIntIh e n i w).get (.enemy k)).health = 0 := by
  intro n
  induction n with
  | zero => intro i w _ h; exact h
  | succ n ih =>
    intro i w hspent hdead
    unfold botIntIh
    unfold botCalls at hspent
    split at hspent
    · next hshow =>
      rw [if_pos hshow]
      refine ih (i + 1) _ (fun v hv => hspent v (List.mem_append_right _ hv)) ?_
      refine (health_playerIntIh_dead e (.enemy i) hdead.le ?_
        (valid_of_shouldRender hshow)).trans hdead
      intro hki
      obtain rfl : k = i := by injection hki
      exact (hspent w (List.mem_append_left _ (by simp)) hdead).2
    · next hshow =>
      rw [if_neg hshow]
      exact ih (i + 1) w hspent hdead

/-- An enemy that is dead when its turn comes is dead when all the others have had
theirs. -/
theorem health_botIntIh_of_mem (e : Env K) (k : ℕ) : ∀ (n i : ℕ) (w : World K),
    (∀ v ∈ botCalls e k n i w, (v.get (.enemy k)).health = 0 → Spent e (.enemy k) v) →
      ∀ v ∈ botCalls e k n i w, (v.get (.enemy k)).health = 0 →
        ((botIntIh e n i w).get (.enemy k)).health = 0 := by
  intro n
  induction n with
  | zero => intro i w _ v hv; cases hv
  | succ n ih =>
    intro i w hspent v hv hdead
    have hall := hspent
    unfold botCalls at hspent hv
    split at hspent
    · next hshow =>
      rw [if_pos hshow, List.mem_append] at hv
      rcases hv with hv | hv
      · -- the turn of the enemy is now
        have hvw : v = w := by
          split at hv
          · exact List.mem_singleton.mp hv
          · cases hv
        exact health_botIntIh_dead e k (n + 1) i w hall (hvw ▸ hdead)
      · unfold botIntIh
        rw [if_pos hshow]
        exact ih (i + 1) _ (fun v hv => hspent v (List.mem_append_right _ hv)) v hv hdead
    · next hshow =>
      rw [if_neg hshow] at hv
      unfold botIntIh
      rw [if_neg hshow]
      exact ih (i + 1) w hspent v hv hdead

/-! ### The enemies between the ticks of the players -/

theorem enemies_takeGun (chosen : Option ℕ) (g : Game K) :
    (g.takeGun chosen).world.enemies = g.world.enemies := by
  cases chosen <;> rfl

/-- Drawing a level touches no enemy. -/
theorem enemies_renderGame (c : Setting K) (g : Game K) :
    (renderGame c g).world.enemies = g.world.enemies := by
  have hmenu : (displayMenu c g).world.enemies = g.world.enemies := by
    unfold displayMenu
    dsimp only
    generalize hopen : (if g.world.invMenu = .closed then _ else g) = g₁
    have henemies : g₁.world.enemies = g.world.enemies := by
      rw [← hopen]
      split <;> rfl
    split
    · rw [enemies_takeGun, ← henemies]
      split <;> rfl
    · exact henemies
  unfold renderGame
  dsimp only
  split
  · rfl
  · split
    · exact hmenu
    · rfl

/-- The world in which the ticks of the enemies begin. -/
def botsTurn (c : Setting K) (t : Tick K) (w : World K) : World K :=
  playerIntIh c.toEnv .player (handleEnemies t.bots w)

/-- **A tick of a level that goes on**: the enemies are what `bot_int_ih` has made of
them. -/
theorem enemies_gameHandler {c : Setting K} {t : Tick K} {g g' : Game K} (hst : g.state = .game)
    (hst' : g'.state = .game) (h : gameHandler c t g = .ok g') :
    g'.world.enemies =
      (botIntIh c.toEnv (botsTurn c t g.world).enemies.length 0
        (botsTurn c t g.world)).enemies := by
  have hrecv : receiveStage c g = g := by
    apply if_neg
    rw [hst]
    decide
  have hplay : playStage c t g = .ok (g.inWorld (simulate c t)) := if_pos (Or.inl hst)
  have hstate : (g.inWorld (simulate c t)).state = .game := (state_simulate c t g.world).trans hst
  have hsend : sendStage (g.inWorld (simulate c t)) = g.inWorld (simulate c t) := by
    apply if_neg
    rw [hstate]
    decide
  have hdisplay : display c (g.inWorld (simulate c t)) =
      renderGame c (g.inWorld (simulate c t)) := by
    unfold display
    rw [hstate]
  unfold gameHandler beforeUpdate at h
  rw [hrecv, hplay] at h
  simp only [bind, Except.bind, hsend, hdisplay, Functor.map, Except.map, Except.ok.injEq] at h
  rw [← h] at hst' ⊢
  have hreset : ∀ f : Game K, (resetPlayerMouseMovm f).world.enemies = f.world.enemies :=
    fun _ => rfl
  have hworld : (g.inWorld (simulate c t)).world = simulate c t g.world := rfl
  rw [updateGameState_game hst', hreset, enemies_renderGame, hworld]
  have hturn : (botsTurn c t g.world).state = .game :=
    (state_playerIntIh c.toEnv .player _).trans hst
  unfold botsTurn at hturn ⊢
  unfold simulate
  dsimp only
  rw [if_pos hturn]
  rfl

/-! ### Dead enemies -/

variable (c : Setting K)

/-- The worlds in which a step calls `player_int_ih` for enemy `k` of a single player
level. -/
def enemyCalls (k : ℕ) (g : Game K) : GameInput K → List (World K)
  | .tick t =>
    if g.state = .game then
      let w := botsTurn c t (timerIntHandler g).world
      botCalls c.toEnv k w.enemies.length 0 w
    else []
  | _ => []

/-- If enemy `k` is dead when its turn comes, it has no loaded gun and no pickup to
take. -/
def DeathSpent (k : ℕ) (g : Game K) (i : GameInput K) : Prop :=
  ∀ w ∈ enemyCalls c k g i, (w.get (.enemy k)).health = 0 → Spent c.toEnv (.enemy k) w

instance (k : ℕ) (g : Game K) (i : GameInput K) : Decidable (DeathSpent c k g i) :=
  inferInstanceAs (Decidable (∀ _ ∈ _, _))

/-- If enemy `k` is dead when its turn comes, its tick harms nobody, and it is dead at
the end of the step. -/
def DeathFinal (k : ℕ) (g : Game K) (i : GameInput K) : Prop :=
  ∀ w ∈ enemyCalls c k g i, (w.get (.enemy k)).health = 0 →
    Harmless c.toEnv (.enemy k) w ∧
      ∀ g', (gameMachine c).step g i = some g' → (g'.world.get (.enemy k)).health = 0

variable {c}

theorem enemyCalls_tick {k : ℕ} {g : Game K} (hst : g.state = .game) (t : Tick K) :
    enemyCalls c k g (.tick t) =
      botCalls c.toEnv k (botsTurn c t (timerIntHandler g).world).enemies.length 0
        (botsTurn c t (timerIntHandler g).world) := if_pos hst

theorem World.get_enemy_congr {w v : World K} (h : v.enemies = w.enemies) (k : ℕ) :
    v.get (.enemy k) = w.get (.enemy k) := congrArg (fun ps => ps.getD k .zero) h

/-- A step of a level that goes on, as far as it is a tick. -/
theorem step_game {k : ℕ} {g g' : Game K} {i : GameInput K} (hst : g.state = .game)
    (hst' : g'.state = .game) (h : (gameMachine c).step g i = some g') :
    (enemyCalls c k g i = [] ∧ g'.world.enemies = g.world.enemies) ∨
      ∃ t, i = .tick t ∧ g'.world.enemies =
        (botIntIh c.toEnv (botsTurn c t (timerIntHandler g).world).enemies.length 0
          (botsTurn c t (timerIntHandler g).world)).enemies := by
  have hstep := h
  simp only [gameMachine, hst, reduceCtorEq, if_false] at h
  cases i with
  | mouse pos lb desl => cases h; exact Or.inl ⟨rfl, rfl⟩
  | kbd keys => cases h; exact Or.inl ⟨rfl, rfl⟩
  | recv entry => cases h; exact Or.inl ⟨rfl, rfl⟩
  | rtc cause =>
    cases h
    refine Or.inl ⟨rfl, ?_⟩
    unfold rtcIh
    split_ifs <;> rfl
  | tick t =>
    have hg := gameHandler_of_tick hstep
    exact Or.inr ⟨t, rfl, enemies_gameHandler (g := timerIntHandler g) hst hst' hg⟩

/-- The turn of the local player leaves the dead alone. -/
theorem health_botsTurn_dead {k : ℕ} {w : World K} (t : Tick K)
    (h : (w.get (.enemy k)).health = 0) : ((botsTurn c t w).get (.enemy k)).health = 0 := by
  have hbots : ((handleEnemies t.bots w).get (.enemy k)).health = 0 :=
    (health_handleEnemies t.bots w (.enemy k)).trans h
  exact (health_playerIntIh_dead c.toEnv .player hbots.le nofun trivial).trans hbots

/-- The dead stay dead in a step of a level that goes on. -/
theorem health_step_dead {k : ℕ} {g g' : Game K} {i : GameInput K} (hst : g.state = .game)
    (hst' : g'.state = .game) (hspent : DeathSpent c k g i)
    (hdead : (g.world.get (.enemy k)).health = 0)
    (h : (gameMachine c).step g i = some g') : (g'.world.get (.enemy k)).health = 0 := by
  rcases step_game (k := k) hst hst' h with ⟨-, henemies⟩ | ⟨t, rfl, henemies⟩
  · rw [World.get_enemy_congr henemies]
    exact hdead
  · unfold DeathSpent at hspent
    rw [enemyCalls_tick hst] at hspent
    rw [World.get_enemy_congr henemies]
    exact health_botIntIh_dead c.toEnv k _ 0 _ hspent
      (health_botsTurn_dead t (w := (timerIntHandler g).world) hdead)

/-- **One step** of a level that goes on: the death of a spent enemy is final. -/
theorem deathFinal_of_spent {k : ℕ} {g g' : Game K} {i : GameInput K} (hst : g.state = .game)
    (hst' : g'.state = .game) (hspent : DeathSpent c k g i)
    (h : (gameMachine c).step g i = some g') : DeathFinal c k g i := by
  intro w hw hdead
  rcases step_game (k := k) hst hst' h with ⟨hnone, -⟩ | ⟨t, rfl, henemies⟩
  · rw [hnone] at hw
    cases hw
  · unfold DeathSpent at hspent
    rw [enemyCalls_tick hst] at hspent hw
    have hshow := shouldRender_of_mem_botCalls c.toEnv k _ 0 _ w hw
    refine ⟨harmless_of_spent c.toEnv (valid_of_shouldRender hshow) (hspent w hw hdead), ?_⟩
    intro g₁ hg₁
    obtain rfl : g' = g₁ := Option.some.inj (h.symm.trans hg₁)
    rw [World.get_enemy_congr henemies]
    exact health_botIntIh_of_mem c.toEnv k _ 0 _ hspent w hw hdead

/-- **Death is final and harmless, of the spent.**  Take a run that stays in a single
player level, in which enemy `k`, whenever it is dead when its turn comes, has no
loaded gun in hand and touches no pickup that it can take.  An enemy that is dead
stays dead, and no tick of a dead enemy spends a bullet, takes health or armour from
another player, or removes a pickup. -/
theorem death_final (k : ℕ) {g g' : Game K} (is : List (GameInput K))
    (hlevel : (gameMachine c).Always (fun g => g.state = .game) g is)
    (hspent : (gameMachine c).Along (DeathSpent c k) g is)
    (hrun : (gameMachine c).run g is = some g') :
    ((g.world.get (.enemy k)).health = 0 → (g'.world.get (.enemy k)).health = 0) ∧
      (gameMachine c).Along (DeathFinal c k) g is := by
  constructor
  · intro hdead
    have hkeep := Machine.along_of_always
      (D := fun g i => (g.world.get (.enemy k)).health = 0 →
        ∀ g', (gameMachine c).step g i = some g' → (g'.world.get (.enemy k)).health = 0)
      (fun g i g' hst hst' hspent h hdead g₁ hg₁ =>
        health_step_dead hst (Option.some.inj (h.symm.trans hg₁) ▸ hst') hspent hdead hg₁)
      is g g' hlevel hspent hrun
    exact Machine.run_invariant (J := fun g => (g.world.get (.enemy k)).health = 0)
      (fun g i g' hdead hi h => hi hdead g' h) is g g' hdead hkeep hrun
  · exact Machine.along_of_always (P := fun g => g.state = .game)
      (fun g i g' hst hst' hspent h => deathFinal_of_spent hst hst' hspent h)
      is g g' hlevel hspent hrun

/-! ### A bot that shoots after its death -/

/-- A single player level with its first bot dead. -/
def fallen : Game ℚ :=
  (gmInitGame scene 1 1 1 sceneStart).inWorld fun w =>
    w.modify (.enemy 0) fun p => { p with health := 0 }

/-- The first bot has no ammunition and nothing to pick up. -/
theorem death_final_fallen : ∃ g', (gameMachine scene).run fallen [silentTick] = some g' ∧
    (g'.world.get (.enemy 0)).health = 0 ∧
      (gameMachine scene).Along (DeathFinal scene 0) fallen [silentTick] := by
  obtain ⟨g', hg'⟩ : ∃ g', (gameMachine scene).run fallen [silentTick] = some g' :=
    Option.isSome_iff_exists.mp (by decide +kernel)
  have hlevel : (gameMachine scene).Always (fun g => g.state = .game) fallen [silentTick] := by
    decide +kernel
  have hspent : (gameMachine scene).Along (DeathSpent scene 0) fallen [silentTick] := by
    decide +kernel
  obtain ⟨hdead, hfinal⟩ := death_final 0 [silentTick] hlevel hspent hg'
  exact ⟨g', hg', hdead (by decide +kernel), hfinal⟩

section

attribute [local instance] quickField quickOrder quickFloor

/-- `rand` of the C library, with its state. -/
def nextRand (seed : ℕ) : ℕ × ℕ :=
  let next := (seed * 1103515245 + 12345) % 2 ^ 31
  (next, next)

example : (nextRand 1).1 = 1103527590 := by decide +kernel

/-- The program at its start; `rand` is seeded with the time. -/
def campaignStart : LedGame ℚ ℕ := { game := sceneStart, ctrls := [], seed := 1624217430 }

/-- The keys to run forward, or none, with a number key. -/
def pressKeys (run : Bool) (num : ℕ) : GameInput ℚ :=
  .kbd { (Controls.zero : Controls ℚ).kbdState with
    xPos := run, sprint := run, numsPress := (List.replicate 10 false).set num true }

/-- The mouse is turned without a click, and ticks go by. -/
def turnMouse (steps : ℤ) (n : ℕ) : List (GameInput ℚ) :=
  .mouse scene.middle false (steps / 128) :: List.replicate n silentTick

/-- One shot of the second gun, and `n` ticks after it. -/
def shootOnce (n : ℕ) : List (GameInput ℚ) :=
  .mouse scene.middle true 0 :: silentTick :: turnMouse 0 n

/-- The second bot is shot dead: the player takes the ammunition of the second gun, runs out of
its room and along the corridor, reloading on the way, turns to the bot, and shoots four
times. -/
def shootBot : List (GameInput ℚ) :=
  clickOn .single ++ turnMouse (-83) 1 ++ pressKeys true 0 :: List.replicate 24 silentTick ++
    pressKeys true 2 :: List.replicate 21 silentTick ++ turnMouse (-64) 83 ++
    turnMouse (-154) 20 ++ turnMouse 159 33 ++ turnMouse 201 10 ++ pressKeys false 0 ::
    turnMouse (-204) 0 ++ (List.replicate 3 (shootOnce 15)).flatten ++ shootOnce 9

/-- The health of the bot when its turn comes in the next tick, and its gun before and after the
shot. -/
def partingShot (s : LedGame ℚ ℕ) : Option (ℤ × ℕ × ℕ) :=
  (enemyCalls campaign 1 s.game (s.decided campaign nextRand silentTick)).head?.map fun w =>
    let trigger := atTrigger campaign.toEnv (.enemy 1) w
    ((w.get (.enemy 1)).health, ((trigger.get (.enemy 1)).gunAt 0).currAmmo,
      (((shoot campaign.toEnv (.enemy 1) trigger).2.get (.enemy 1)).gunAt 0).currAmmo)

set_option maxRecDepth 100000 in
theorem shootBot_run :
    ((ledMachine campaign nextRand ⟨0, 0⟩).run campaignStart shootBot).map (fun s =>
      (decide (s.game.state = .game ∧ Leads s.ctrls s.game.world),
        (s.game.world.get (.enemy 1)).health, partingShot s)) =
      some (true, 0, some (0, 22, 21)) := by
  decide +kernel

/-- The bot, dead for a while, fires in the next tick.  What the bots do, in that tick too, is what
`handle_enemy` decides. -/
theorem not_death_final_parting :
    ∃ s, (ledMachine campaign nextRand ⟨0, 0⟩).run campaignStart shootBot = some s ∧
      (∃ is, (gameMachine campaign).run sceneStart is = some s.game) ∧
      Leads s.ctrls s.game.world ∧ s.game.state = .game ∧
      (s.game.world.get (.enemy 1)).health = 0 ∧
      ¬ DeathFinal campaign 1 s.game (s.decided campaign nextRand silentTick) := by
  obtain ⟨s, hs, hlook⟩ := Option.map_eq_some_iff.mp shootBot_run
  simp only [Prod.mk.injEq] at hlook
  obtain ⟨hlevel, hdead, hcall⟩ := hlook
  obtain ⟨hstate, hleads⟩ := of_decide_eq_true hlevel
  obtain ⟨w, hw, hshot⟩ := Option.map_eq_some_iff.mp hcall
  simp only [Prod.mk.injEq] at hshot
  obtain ⟨hstill, hbefore, hafter⟩ := hshot
  obtain ⟨is, his, -⟩ := (ledMachine_refines campaign nextRand ⟨0, 0⟩).run shootBot campaignStart s
    trivial hs
  refine ⟨s, hs, ⟨is, his⟩, hleads, hstate, hdead, fun hfinal => ?_⟩
  have hkept := (hfinal w (List.mem_of_mem_head? hw) hstill).1.bullets 0
  rw [hbefore, hafter] at hkept
  cases hkept

end

end Model

end OperationMinix
