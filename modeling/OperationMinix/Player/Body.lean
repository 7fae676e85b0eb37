import OperationMinix.Player.Collision
import OperationMinix.Player.Trigger

/-!
# Where a player stands and looks

The position and the direction of a player depend on little of it: the movement it is asked
for, the mouse, two keys, its size and its kind.  A tick of the player steps this part of it
forward by a function of the part alone, and no tick of another player, no shot, no pickup and
no gun reaches it.

So what concerns positions can be said of the part, and a replica of it that is given the same
controls follows exactly.

## Main definitions

* `Body` — the part, and `Body.step`, what a tick makes of it.
* `World.SameBodies` — nobody has moved.

## Main results

* `body_playerIntIh` — **a tick steps the body of its own player, and leaves all others
  alone.**
-/

namespace OperationMinix

set_option linter.unusedSectionVars false

/-- The part of a player that decides where it stands and looks. -/
structure Body (K : Type*) where
  type : PlayerType
  position : Vec K
  direction : Vec K
  cameraPlane : Vec K
  radius : K
  movement : Vec K
  mouseDesl : K
  /-- The movement that the keys ask for. -/
  asked : Vec K
  crouch : Bool
  sprint : Bool

section Model

variable {K : Type*} [Field K] [LinearOrder K] [FloorRing K]

/-- The body of a player. -/
def PlayerInfo.body (p : PlayerInfo K) : Body K where
  type := p.type
  position := p.position
  direction := p.direction
  cameraPlane := p.cameraPlane
  radius := p.radius
  movement := p.movm.movement
  mouseDesl := p.movm.mouseDesl
  asked := keyMovement p.movm.kbdState
  crouch := p.movm.kbdState.crouch
  sprint := p.movm.kbdState.sprint

/-- What `turn` makes of a body. -/
def Body.turn (l : Libm K) (b : Body K) : Body K :=
  let b := if b.type = .networkPlayer then { b with movement := b.asked } else b
  if b.type = .player ∨ b.type = .networkPlayer then
    { b with
      direction := rotate l (turnAngle b.mouseDesl) b.direction
      cameraPlane := rotate l (turnAngle b.mouseDesl) b.cameraPlane }
  else b

/-- How fast a body is, crouching and sprinting. -/
def Body.speed (b : Body K) : K :=
  1 - (if b.crouch then 1 / 2 else 0) + (if b.sprint then 1 / 2 else 0)

/-- The displacement of a body. -/
def Body.stride (b : Body K) : Vec K where
  x := b.speed * (1 / 20 * b.movement.x * b.direction.x + 1 / 40 * b.movement.y * -b.direction.y)
  y := b.speed * (1 / 20 * b.movement.x * b.direction.y + 1 / 40 * b.movement.y * b.direction.x)

/-- What `move` makes of a body. -/
def Body.move (l : Libm K) (m : GameMap) (b : Body K) : Body K :=
  { b with position := playerWallCollision l m b.radius (displaced b.position b.stride) }

/-- What a tick makes of the body of its player. -/
def Body.step (l : Libm K) (m : GameMap) (b : Body K) : Body K := (b.turn l).move l m

/-! ### A step -/

/-- The type of a body stays. -/
@[simp] theorem Body.type_step (l : Libm K) (m : GameMap) (b : Body K) :
    (b.step l m).type = b.type := by
  unfold Body.step Body.move Body.turn
  dsimp only
  split_ifs <;> rfl

/-- Nor does its size change. -/
@[simp] theorem Body.radius_step (l : Libm K) (m : GameMap) (b : Body K) :
    (b.step l m).radius = b.radius := by
  unfold Body.step Body.move Body.turn
  dsimp only
  split_ifs <;> rfl

/-- What the tick of the body of a player does. -/
theorem Body.step_player (l : Libm K) (m : GameMap) {b : Body K} (h : b.type = .player) :
    b.step l m = ({ b with
      direction := rotate l (turnAngle b.mouseDesl) b.direction
      cameraPlane := rotate l (turnAngle b.mouseDesl) b.cameraPlane } : Body K).move l m := by
  simp [Body.step, Body.turn, h]

/-- What the tick of the body of a replica does. -/
theorem Body.step_networkPlayer (l : Libm K) (m : GameMap) {b : Body K}
    (h : b.type = .networkPlayer) :
    b.step l m = ({ b with
      movement := b.asked
      direction := rotate l (turnAngle b.mouseDesl) b.direction
      cameraPlane := rotate l (turnAngle b.mouseDesl) b.cameraPlane } : Body K).move l m := by
  simp [Body.step, Body.turn, h]

/-! ### What reaches a body -/

section Player

variable (p : PlayerInfo K)

theorem body_turn (l : Libm K) : (turn l p).body = p.body.turn l := by
  unfold turn Body.turn
  by_cases hnet : p.type = .networkPlayer
  · simp [PlayerInfo.body, hnet]
  · by_cases hplayer : p.type = .player
    · simp [PlayerInfo.body, hplayer]
    · simp [PlayerInfo.body, hnet, hplayer]

theorem body_move (l : Libm K) (m : GameMap) : (move l m p).body = p.body.move l m := rfl

/-- Choosing a gun does not reach the body. -/
@[simp] theorem body_switchGun (i : ℕ) : (switchGun i p).body = p.body := by
  unfold switchGun
  split
  · rfl
  · rfl

@[simp] theorem body_numberKeys : (numberKeys p).body = p.body := by
  unfold numberKeys
  split
  · rfl
  · next i _ => exact body_switchGun _ (i - 1)

@[simp] theorem body_updatePlayerControls : (updatePlayerControls p).body = p.body := by
  unfold updatePlayerControls
  dsimp only
  split
  · split <;> rfl
  · split <;> rfl

@[simp] theorem body_modifyGun (f : GunInstance → GunInstance) : (p.modifyGun f).body = p.body :=
  rfl

@[simp] theorem body_hurt (damage : ℤ) : (hurt damage p).body = p.body := by
  obtain ⟨health, armor, h⟩ := Wounded.hurt damage p
  rw [h]
  rfl

@[simp] theorem body_pickupIndex (i : ℕ) (s : PickupStore K) :
    (pickupIndex p i s).1.body = p.body := by
  unfold pickupIndex
  split
  · rfl
  · next pickup _ =>
    show (pickupHandler pickup.details p).2.body = p.body
    cases pickup.details <;> rfl

@[simp] theorem body_animate (t : ℕ) (shot : Bool) : (animate t shot p).body = p.body := by
  unfold animate
  split
  · rfl
  · rfl

/-- **The first half of a tick** steps the body. -/
theorem body_steer (l : Libm K) (m : GameMap) : (steer l m p).body = p.body.step l m := by
  have hmoved : (move l m (turn l p)).body = p.body.step l m := by
    rw [body_move, body_turn]
    rfl
  unfold steer
  dsimp only
  split
  · exact hmoved
  · rw [body_updatePlayerControls, body_numberKeys]
    exact hmoved

end Player

/-! ### Nobody moves -/

/-- The same bodies on the same map. -/
structure World.SameBodies (w v : World K) : Prop where
  bodies : ∀ s, (v.get s).body = (w.get s).body
  enemies : v.enemies.length = w.enemies.length
  map : v.map = w.map

@[simp] theorem World.map_modify (w : World K) (r : PlayerRef)
    (f : PlayerInfo K → PlayerInfo K) : (w.modify r f).map = w.map := by
  cases r <;> rfl

namespace World.SameBodies

variable {w v u : World K} {ref : PlayerRef}

theorem refl (w : World K) : w.SameBodies w := ⟨fun _ => rfl, rfl, rfl⟩

theorem trans (h : w.SameBodies v) (h' : v.SameBodies u) : w.SameBodies u :=
  ⟨fun s => (h'.bodies s).trans (h.bodies s), h'.enemies.trans h.enemies, h'.map.trans h.map⟩

theorem valid (h : w.SameBodies v) (hr : w.Valid ref) : v.Valid ref := by
  cases ref with
  | player => trivial
  | enemy i => exact hr.trans_eq h.enemies.symm

/-- Besides the players and the map, the world may be anything. -/
theorem congr (h : w.SameBodies v) (hplayer : u.player = v.player) (henemies : u.enemies = v.enemies)
    (hmap : u.map = v.map) : w.SameBodies u := by
  refine ⟨fun s => ?_, (congrArg List.length henemies).trans h.enemies, hmap.trans h.map⟩
  have hget : u.get s = v.get s := by
    cases s with
    | player => exact hplayer
    | enemy i => rw [World.get, World.get, henemies]
  rw [hget]
  exact h.bodies s

/-- Two changes of one player that make the same body of it. -/
theorem modify_modify {f g : PlayerInfo K → PlayerInfo K}
    (h : (g (w.get ref)).body = (f (w.get ref)).body) :
    (w.modify ref f).SameBodies (w.modify ref g) := by
  refine ⟨fun s => ?_, ?_, by simp⟩
  · by_cases hr : w.Valid ref
    · by_cases hs : s = ref
      · rw [hs, get_modify_self hr, get_modify_self hr]
        exact h
      · rw [get_modify_of_ne hs, get_modify_of_ne hs]
    · rw [modify_of_not_valid hr, modify_of_not_valid hr]
  · rw [enemies_length_modify, enemies_length_modify]

/-- A change that keeps the body of its player. -/
theorem modify {f : PlayerInfo K → PlayerInfo K} (h : (f (w.get ref)).body = (w.get ref).body) :
    w.SameBodies (w.modify ref f) := by
  have hid : w.modify ref id = w := by
    cases ref with
    | player => rfl
    | enemy i => simp [World.modify, List.modify_id]
  have hsame : (w.modify ref id).SameBodies (w.modify ref f) := modify_modify h
  rwa [hid] at hsame

theorem pickUp (ref : PlayerRef) (w : World K) : w.SameBodies (pickUp ref w) := by
  unfold OperationMinix.pickUp
  dsimp only
  split
  · have h : w.SameBodies (w.modify ref fun _ =>
        (pickupIndex (w.get ref) (checkPlayerPickupCollision w.pickups (w.get ref)) w.pickups).1) :=
      modify (body_pickupIndex _ _ _)
    exact h.congr rfl rfl rfl
  · exact refl w

theorem strike (damage : ℤ) (hit : Bool) (target : Option PlayerRef) (w : World K) :
    w.SameBodies (strike damage hit target w) := by
  unfold OperationMinix.strike
  split
  · cases target with
    | some r => exact modify (body_hurt _ damage)
    | none => exact (refl w).congr rfl rfl rfl
  · exact refl w

theorem fireLoop (e : Env K) (ref : PlayerRef) : ∀ (n i : ℕ) (w : World K),
    w.SameBodies (fireLoop e ref n i w) := by
  intro n
  induction n with
  | zero => intro i w; exact refl w
  | succ n ih =>
    intro i w
    unfold OperationMinix.fireLoop
    split
    · exact ((strike _ _ _ w).trans (modify (body_modifyGun _ _))).trans (ih (i + 1) _)
    · exact refl w

theorem shoot (e : Env K) (ref : PlayerRef) (w : World K) : w.SameBodies (shoot e ref w).2 := by
  unfold OperationMinix.shoot fire
  dsimp only
  split_ifs
  · exact refl w
  · exact (modify (body_modifyGun _ _)).trans (fireLoop e ref _ _ _)
  · exact refl w

theorem finishTick (ref : PlayerRef) (shot : Bool) (w : World K) :
    w.SameBodies (finishTick ref shot w) := by
  have hanim : w.SameBodies (w.modify ref (animate w.timeCounter shot)) :=
    modify (body_animate _ _ _)
  have hgun : ∀ (v : World K) (g : GunInstance),
      v.SameBodies (v.modify ref fun p => p.modifyGun fun _ => g) :=
    fun v g => modify (body_modifyGun _ _)
  refine hanim.trans ?_
  unfold OperationMinix.finishTick
  dsimp only
  exact (hgun _ _).congr rfl rfl rfl

end World.SameBodies

/-- After its first half a tick moves nobody. -/
theorem sameBodies_playerIntIh (e : Env K) (ref : PlayerRef) (w : World K) :
    (w.modify ref (steer e.libm w.map)).SameBodies (playerIntIh e ref w) :=
  ((World.SameBodies.pickUp ref _).trans (World.SameBodies.shoot e ref _)).trans
    (World.SameBodies.finishTick ref _ _)

/-- **A tick steps the body of its own player, and leaves all others alone.** -/
theorem body_playerIntIh (e : Env K) {ref : PlayerRef} {w : World K} (hr : w.Valid ref)
    (s : PlayerRef) : ((playerIntIh e ref w).get s).body =
      if s = ref then (w.get s).body.step e.libm w.map else (w.get s).body := by
  rw [(sameBodies_playerIntIh e ref w).bodies s]
  split
  · next hs =>
    rw [hs, World.get_modify_self hr, body_steer]
  · next hs =>
    rw [World.get_modify_of_ne hs]

end Model

/-! ### Standing still -/

section Exact

variable {K : Type*} [Field K] [LinearOrder K] [IsStrictOrderedRing K] [FloorRing K]

/-- A player that is far enough from every wall is not pushed. -/
theorem playerWallCollision_of_clear {l : Libm K} {m : GameMap} {radius : K} {p : Vec K}
    (hclear : Clear m radius p) : playerWallCollision l m radius p = p := by
  unfold playerWallCollision
  split
  · rfl
  · next hon =>
    simp only [not_or, not_lt, not_le, ge_iff_le] at hon
    obtain ⟨hx, hy, hy', hx'⟩ := hon
    have hmem : ∀ c ∈ (neighbourhood p.x m.columns).flatMap fun x =>
        (neighbourhood p.y m.lines).map fun y => (x, y), pushOut l m radius p c = p := by
      rintro ⟨x, y⟩ hxy
      have hpair : x ∈ neighbourhood p.x m.columns ∧ y ∈ neighbourhood p.y m.lines :=
        List.pair_mem_product.mp hxy
      rw [mem_neighbourhood, mem_neighbourhood] at hpair
      obtain ⟨⟨hnx, -⟩, hny, -⟩ := hpair
      unfold pushOut
      dsimp only
      split
      · rfl
      · next hwall =>
        have hfar := hclear x y ⟨⟨hnx, hny⟩, not_le.mp hwall⟩
        have hdist : vecMagSquared (circleRectDistance ⟨p, radius⟩ (unitCell x y)) =
            wallDistance p x y := rfl
        rw [hdist, ← sq, if_pos hfar]
    generalize (neighbourhood p.x m.columns).flatMap _ = cells at hmem ⊢
    induction cells with
    | nil => rfl
    | cons c cells ih =>
      rw [List.foldl_cons, hmem c List.mem_cons_self]
      exact ih fun c' hc' => hmem c' (List.mem_cons_of_mem c hc')

instance (m : GameMap) (x y : ℤ) : Decidable (IsWall m x y) :=
  inferInstanceAs (Decidable (_ ∧ _))

/-- A corner is clear when none of the four cells around it is a wall. -/
theorem clear_corner {m : GameMap} {radius : K} (hradius : 0 ≤ radius ∧ radius ≤ 1) {n k : ℤ}
    (h : ∀ x ∈ [n - 1, n], ∀ y ∈ [k - 1, k], ¬ IsWall m x y) : Clear m radius ⟨n, k⟩ := by
  have hone : radius ^ 2 ≤ 1 := pow_le_one₀ hradius.1 hradius.2
  have hfar : ∀ {a b : ℤ}, b ∉ [a - 1, a] → (1 : K) ≤ gap (a : K) b ^ 2 := by
    intro a b hb
    simp only [List.mem_cons, List.not_mem_nil, or_false, not_or] at hb
    by_cases hnear : |b - a| ≤ 1
    · obtain rfl : b = a + 1 := by
        rw [abs_le] at hnear
        omega
      rw [gap_after (by linarith)]
      norm_num
    · exact one_le_gap_sq hnear le_rfl (by linarith)
  intro x y hwall
  by_cases hx : x ∈ [n - 1, n]
  · by_cases hy : y ∈ [k - 1, k]
    · exact absurd hwall (h x hx y hy)
    · exact (hone.trans (hfar hy)).trans (le_add_of_nonneg_left (sq_nonneg _))
  · exact (hone.trans (hfar hx)).trans (le_add_of_nonneg_right (sq_nonneg _))

/-! ### Directions -/

section Directions

variable {l : Libm K}

/-- Turning does not change how long a vector is. -/
theorem vecMagSquared_rotate (htrig : ∀ a, l.cos a ^ 2 + l.sin a ^ 2 = 1) (angle : K)
    (v : Vec K) : vecMagSquared (rotate l angle v) = vecMagSquared v := by
  have hsplit : vecMagSquared (rotate l angle v) =
      (l.cos angle ^ 2 + l.sin angle ^ 2) * vecMagSquared v := by
    simp only [vecMagSquared, rotate]
    ring
  rw [hsplit, htrig, one_mul]

/-- A vector is normalised to length one. -/
theorem vecMagSquared_normalize (hsqrt : ∀ x, 0 ≤ x → 0 ≤ l.sqrt x ∧ l.sqrt x * l.sqrt x = x)
    {v : Vec K} (hv : 0 < vecMagSquared v) : vecMagSquared (normalize l v) = 1 := by
  have hmag : vecMag l v ^ 2 = vecMagSquared v := by
    rw [sq]
    exact (hsqrt _ hv.le).2
  have hne : vecMag l v ^ 2 ≠ 0 := by rw [hmag]; exact hv.ne'
  show (v.x / vecMag l v) ^ 2 + (v.y / vecMag l v) ^ 2 = 1
  rw [div_pow, div_pow, ← add_div, div_eq_one_iff_eq hne, hmag]
  rfl

/-- The keys ask for at most one step either way. -/
theorem abs_keyMovement (k : KbdCtrlState) :
    |(keyMovement k : Vec K).x| ≤ 1 ∧ |(keyMovement k : Vec K).y| ≤ 1 := by
  have hkeys : ∀ pos neg : Bool,
      |(if pos then (1 : K) else 0) - (if neg then 1 else 0)| ≤ 1 := by
    intro pos neg
    cases pos <;> cases neg <;> simp
  exact ⟨hkeys _ _, hkeys _ _⟩

/-- **A step is shorter than the radius** of the players of the game. -/
theorem vecMagSquared_stride_lt {b : Body K} (hunit : vecMagSquared b.direction = 1)
    (hx : |b.movement.x| ≤ 1) (hy : |b.movement.y| ≤ 1) :
    vecMagSquared b.stride < (1 / 5 : K) ^ 2 := by
  have hspeed : b.speed ^ 2 ≤ (3 / 2) ^ 2 := by
    unfold Body.speed
    cases b.crouch <;> cases b.sprint <;> norm_num
  have hxsq : b.movement.x ^ 2 ≤ 1 := (sq_le_one_iff_abs_le_one _).mpr hx
  have hysq : b.movement.y ^ 2 ≤ 1 := (sq_le_one_iff_abs_le_one _).mpr hy
  have hsplit : vecMagSquared b.stride = b.speed ^ 2 *
      ((1 / 20 * b.movement.x) ^ 2 + (1 / 40 * b.movement.y) ^ 2) * vecMagSquared b.direction := by
    simp only [vecMagSquared, Body.stride]
    ring
  have hkeys : (1 / 20 * b.movement.x) ^ 2 + (1 / 40 * b.movement.y) ^ 2 ≤ 1 / 320 := by
    rw [mul_pow, mul_pow]
    linarith
  rw [hsplit, hunit, mul_one]
  calc b.speed ^ 2 * ((1 / 20 * b.movement.x) ^ 2 + (1 / 40 * b.movement.y) ^ 2)
      ≤ (3 / 2) ^ 2 * (1 / 320) :=
        mul_le_mul hspeed hkeys (by positivity) (by positivity)
    _ < (1 / 5) ^ 2 := by norm_num

end Directions

end Exact

end OperationMinix
