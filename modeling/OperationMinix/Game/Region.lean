import OperationMinix.Game.Bodies

/-!
# The local player stays in its region

A map is drawn so that its walls enclose the rooms of a level, and `update_game_state` reads the
cell under the local player without asking whether it lies on the map.  That is safe because the
player cannot leave the room it starts in.

A move is shorter than the radius of the player, and the player is at least its radius away from
every wall.  So the point it moves to lies in none of the walls around its cell; nor does it lie
behind one, since the way to a cell at the corner leads past a side that is as near.  Being
pushed out of walls afterwards does not change the cell.  The cell of the player follows a path
of neighbours that are not walls, and a set of cells that no such path leaves holds it forever.

## Main definitions

* `Sealed` — a set of cells on the map that only walls are next to.
* `Hosts` — the starts of a level lie in such a set, clear of the walls.

## Main results

* `Sealed.displaced` — **a move shorter than the radius stays in the set.**
* `player_stays_sealed` — **in every run the local player stays in the set, clear of all
  walls**, and the cell under it is on the map.
-/

namespace OperationMinix

open Runs

set_option linter.unusedSectionVars false

/-- The cells with a side in common. -/
def Adjacent (x y x' y' : ℤ) : Prop :=
  (|x' - x| = 1 ∧ y' = y) ∨ (x' = x ∧ |y' - y| = 1)

/-- A set of cells on the map, with walls at all its sides. -/
structure Sealed (m : GameMap) (R : ℤ → ℤ → Prop) : Prop where
  onMap : ∀ x y, R x y → (0 ≤ x ∧ x < m.columns) ∧ (0 ≤ y ∧ y < m.lines)
  closed : ∀ x y x' y', R x y → Adjacent x y x' y' → R x' y' ∨ IsWall m x' y'

section Model

variable {K : Type*} [Field K] [LinearOrder K] [FloorRing K]

/-- The set of cells is sealed, and a player that starts at `p` starts in it, clear of the
walls. -/
structure Hosts (m : GameMap) (R : ℤ → ℤ → Prop) (p : Vec K) : Prop where
  isSealed : Sealed m R
  cell : R ⌊p.x⌋ ⌊p.y⌋
  clear : Clear m playerRadius p

/-- The local player is in the set, clear of all walls. -/
structure InRegion (m : GameMap) (R : ℤ → ℤ → Prop) (p : Vec K) : Prop where
  cell : R ⌊p.x⌋ ⌊p.y⌋
  clear : Clear m playerRadius p
  /-- The cell that `update_game_state` reads. -/
  read : ∃ x y : ℕ, truncate p.x = x ∧ truncate p.y = y ∧ x < m.columns ∧ y < m.lines

end Model

section Exact

variable {K : Type*} [Field K] [LinearOrder K] [IsStrictOrderedRing K] [FloorRing K]

/-! ### One move -/

/-- A point displaced by less than one is in the same column of cells, or in one next to it. -/
theorem floor_displaced {c v : K} (h : |v| < 1) : ⌊c + v⌋ = ⌊c⌋ ∨ |⌊c + v⌋ - ⌊c⌋| = 1 := by
  obtain ⟨hlow, hhigh⟩ := abs_lt.mp h
  have hup : ⌊c + v⌋ < ⌊c⌋ + 2 := by
    rw [Int.floor_lt]
    push_cast
    linarith [Int.lt_floor_add_one c]
  have hdown : ⌊c⌋ - 1 ≤ ⌊c + v⌋ := by
    rw [Int.le_floor]
    push_cast
    linarith [Int.floor_le c]
  obtain h | h | h : ⌊c + v⌋ = ⌊c⌋ ∨ ⌊c + v⌋ = ⌊c⌋ + 1 ∨ ⌊c + v⌋ = ⌊c⌋ - 1 := by omega
  · exact Or.inl h
  · exact Or.inr (by rw [h]; norm_num)
  · exact Or.inr (by rw [h]; norm_num)

/-- The way to the column of cells that a move ends in is not longer than the move. -/
theorem gap_floor_sq_le (c v : K) : gap c ⌊c + v⌋ ^ 2 ≤ v ^ 2 := by
  have hle := closestOn_sq_le (c := c) (Int.floor_le (c + v)) (Int.lt_floor_add_one (c + v)).le
  rw [add_sub_cancel_left] at hle
  unfold gap
  rw [← neg_sq, neg_sub]
  exact hle

/-- There is no way to the column of cells one is in. -/
theorem gap_floor (c : K) : gap c ⌊c⌋ = 0 :=
  gap_here (Int.floor_le c) (Int.lt_floor_add_one c).le

/-- **A move shorter than the radius stays in a sealed set.** -/
theorem Sealed.displaced {m : GameMap} {R : ℤ → ℤ → Prop} (h : Sealed m R) {radius : K}
    (hradius : 0 < radius ∧ radius ≤ 1 / 2) {p v : Vec K} (hclear : Clear m radius p)
    (hshort : vecMagSquared v < radius ^ 2) (hcell : R ⌊p.x⌋ ⌊p.y⌋) :
    R ⌊(displaced p v).x⌋ ⌊(displaced p v).y⌋ := by
  have hsq : v.x ^ 2 + v.y ^ 2 < radius ^ 2 := hshort
  have hone : radius ^ 2 ≤ 1 := pow_le_one₀ hradius.1.le (by linarith)
  have hx : |v.x| < 1 := by
    rw [← sq_lt_one_iff_abs_lt_one]
    linarith [sq_nonneg v.y]
  have hy : |v.y| < 1 := by
    rw [← sq_lt_one_iff_abs_lt_one]
    linarith [sq_nonneg v.x]
  -- the cells on the way are nearer than the radius, so they are no walls
  have hopen : ∀ y', gap p.y y' ^ 2 ≤ v.y ^ 2 → ¬ IsWall m ⌊p.x + v.x⌋ y' := by
    intro y' hy' hwall
    have hfar := hclear _ _ hwall
    have hnear : wallDistance p ⌊p.x + v.x⌋ y' ≤ v.x ^ 2 + v.y ^ 2 :=
      add_le_add (gap_floor_sq_le p.x v.x) hy'
    linarith
  have hbeside : R ⌊p.x + v.x⌋ ⌊p.y⌋ := by
    rcases floor_displaced (c := p.x) hx with hsame | hnext
    · rw [hsame]
      exact hcell
    · refine (h.closed _ _ _ _ hcell (Or.inl ⟨hnext, rfl⟩)).resolve_right (hopen _ ?_)
      rw [gap_floor]
      nlinarith [sq_nonneg v.y]
  show R ⌊p.x + v.x⌋ ⌊p.y + v.y⌋
  rcases floor_displaced (c := p.y) hy with hsame | hnext
  · rw [hsame]
    exact hbeside
  · exact (h.closed _ _ _ _ hbeside (Or.inr ⟨rfl, hnext⟩)).resolve_right
      (hopen _ (gap_floor_sq_le p.y v.y))

/-! ### Every run -/

/-- What the local player keeps: it looks in a direction of length one, is asked for at most one
step, and stands in the set of cells, clear of the walls. -/
structure Confined (R : GameMap → ℤ → ℤ → Prop) (m : GameMap) (b : Body K) : Prop where
  isSealed : Sealed m (R m)
  type : b.type = .player
  radius : b.radius = playerRadius
  unit : vecMagSquared b.direction = 1
  movement : |b.movement.x| ≤ 1 ∧ |b.movement.y| ≤ 1
  cell : R m ⌊b.position.x⌋ ⌊b.position.y⌋
  clear : Clear m playerRadius b.position

theorem playerRadius_range : 0 < (playerRadius : K) ∧ (playerRadius : K) ≤ 1 / 2 := by
  constructor <;> norm_num [playerRadius]

/-- The floor of a point in a cell. -/
theorem InCell.floor {x y : ℤ} {p : Vec K} (h : InCell x y p) : ⌊p.x⌋ = x ∧ ⌊p.y⌋ = y :=
  ⟨Int.floor_eq_iff.mpr h.1, Int.floor_eq_iff.mpr h.2⟩

/-- A point whose cell is on the map. -/
theorem onMap_of_cell {m : GameMap} {p : Vec K}
    (h : (0 ≤ ⌊p.x⌋ ∧ ⌊p.x⌋ < m.columns) ∧ (0 ≤ ⌊p.y⌋ ∧ ⌊p.y⌋ < m.lines)) :
    OnMap m.columns m.lines p := by
  obtain ⟨⟨hx, hx'⟩, hy, hy'⟩ := h
  refine ⟨⟨Int.floor_nonneg.mp hx, ?_⟩, Int.floor_nonneg.mp hy, ?_⟩
  · exact_mod_cast Int.floor_lt.mp hx'
  · exact_mod_cast Int.floor_lt.mp hy'

section Keeps

variable {R : GameMap → ℤ → ℤ → Prop} {l : Libm K}
  (hsqrt : ∀ x, 0 ≤ x → 0 ≤ l.sqrt x ∧ l.sqrt x * l.sqrt x = x)
  (htrig : ∀ a, l.cos a ^ 2 + l.sin a ^ 2 = 1)

include hsqrt

/-- A start of a level. -/
theorem Hosts.confined {m : GameMap} {p d : Vec K} (h : Hosts m (R m) p)
    (hd : 0 < vecMagSquared d) (fov : ℤ) : Confined R m (startBody l fov p d) :=
  ⟨h.isSealed, rfl, rfl, vecMagSquared_normalize hsqrt hd,
    by simp [startBody, newPlayer, PlayerInfo.body, PlayerInfo.zero, Controls.zero], h.cell,
    h.clear⟩

include htrig

/-- **A step.** -/
theorem Confined.step {m : GameMap} {b : Body K} (h : Confined R m b) :
    Confined R m (b.step l m) := by
  obtain ⟨hsealed, htype, hradius, hunit, hmovement, hcell, hclear⟩ := h
  obtain ⟨hpos, hhalf⟩ := playerRadius_range (K := K)
  rw [Body.step_player l m htype]
  -- the turn comes first, and leaves everything but the two directions
  generalize hturned : ({ b with
    direction := rotate l (turnAngle b.mouseDesl) b.direction
    cameraPlane := rotate l (turnAngle b.mouseDesl) b.cameraPlane } : Body K) = b'
  have hunit' : vecMagSquared b'.direction = 1 := by
    rw [← hturned]
    exact (vecMagSquared_rotate htrig _ _).trans hunit
  have hposition : b'.position = b.position := by rw [← hturned]
  have hshort : vecMagSquared b'.stride < playerRadius ^ 2 := by
    rw [← hturned] at hunit' ⊢
    exact vecMagSquared_stride_lt hunit' hmovement.1 hmovement.2
  rw [← hposition] at hcell hclear
  -- the stride is shorter than the radius, so it does not leave the set of cells
  have hthere := hsealed.displaced ⟨hpos, hhalf⟩ hclear hshort hcell
  obtain ⟨hin, hclear'⟩ := playerWallCollision_clear hsqrt hpos hhalf
    (onMap_of_cell (hsealed.onMap _ _ hthere))
    fun x y hwall => wallDistance_displaced_pos hclear hshort hwall
  obtain ⟨hx, hy⟩ := hin.floor
  have hradius' : b'.radius = playerRadius := by rw [← hturned]; exact hradius
  have hmoved : (b'.move l m).position =
      playerWallCollision l m playerRadius (displaced b'.position b'.stride) := by
    rw [← hradius']
    rfl
  refine ⟨hsealed, ?_, hradius', hunit', ?_, ?_, ?_⟩
  · show b'.type = .player
    rw [← hturned]
    exact htype
  · show |b'.movement.x| ≤ 1 ∧ |b'.movement.y| ≤ 1
    rw [← hturned]
    exact hmovement
  · rw [hmoved, hx, hy]
    exact hthere
  · rw [hmoved]
    exact hclear'

end Keeps

omit [IsStrictOrderedRing K] in
/-- What it keeps says where it is. -/
theorem Confined.inRegion {R : GameMap → ℤ → ℤ → Prop} {m : GameMap} {b : Body K}
    (h : Confined R m b) : InRegion m (R m) b.position := by
  obtain ⟨⟨hx, hx'⟩, hy, hy'⟩ := h.isSealed.onMap _ _ h.cell
  refine ⟨h.cell, h.clear, ⌊b.position.x⌋.toNat, ⌊b.position.y⌋.toNat, ?_, ?_, ?_, ?_⟩
  · rw [truncate_of_nonneg (Int.floor_nonneg.mp hx)]
    exact (Int.toNat_of_nonneg hx).symm
  · rw [truncate_of_nonneg (Int.floor_nonneg.mp hy)]
    exact (Int.toNat_of_nonneg hy).symm
  · exact (Int.toNat_lt hx).mpr hx'
  · exact (Int.toNat_lt hy).mpr hy'

/-- **The local player stays in its region.**  Let the starts of the three levels lie in sets of
cells that only walls are next to.  Then in every state of every run of the program in which a
game is on, the local player is in the set of its level, at least its radius away from every
wall, and the cell under it is on the map. -/
theorem player_stays_sealed {c : Setting K}
    (hsqrt : ∀ x, 0 ≤ x → 0 ≤ c.libm.sqrt x ∧ c.libm.sqrt x * c.libm.sqrt x = x)
    (htrig : ∀ a, c.libm.cos a ^ 2 + c.libm.sin a ^ 2 = 1) (R : GameMap → ℤ → ℤ → Prop)
    (hsingle : ∀ n ∈ [1, 2], ∀ m, c.maps n = some m → Hosts m (R m) (⟨2, 2⟩ : Vec K))
    (hmulti : ∀ m, c.maps 3 = some m → ∀ first, Hosts m (R m) (spawnPosition first : Vec K))
    (w : World K) (rtc : Rtc) (is : List (GameInput K)) :
    (gameMachine c).Always (fun g => Playing g →
      InRegion g.world.map (R g.world.map) g.world.player.position) (Game.start w rtc) is := by
  have hrule : BodyRule c (Confined R) := by
    refine ⟨fun m b k h => ?_, fun m b desl h => ?_, fun m b h => h.step hsqrt htrig,
      fun n hn m hm => ?_, fun m hm first => ?_⟩
    · exact ⟨h.isSealed, h.type, h.radius, h.unit, abs_keyMovement k, h.cell, h.clear⟩
    · exact ⟨h.isSealed, h.type, h.radius, h.unit, h.movement, h.cell, h.clear⟩
    · exact (hsingle n hn m hm).confined hsqrt (by norm_num [vecMagSquared]) c.fov
    · refine (hmulti m hm first).confined hsqrt ?_ c.fov
      cases first <;> norm_num [vecMagSquared, spawnDirection]
  exact body_always hrule (fun g h => h.inRegion) w rtc is

end Exact

/-! ### A walled hall -/

/-- The program on the reals, with the walled arena for each of its levels. -/
noncomputable def hall : Setting ℝ where
  libm := realLibm
  shootRay _ _ _ _ := { hit := false, side := 0, mapPos := (0, 0), distance := 0 }
  unassignedHit _ _ := false
  fov := 66
  maps _ := some arena
  layout _ := (⟨0, 0⟩, ⟨0, 0⟩)
  middle := ⟨576, 432⟩
  slot :=
    { details := .ammo 0 0, pickedUp := false, collider := ⟨⟨0, 0⟩, 0⟩
      animation := pickupAnimation (.ammo 0 0) }

/-- The cells within the walls of the arena. -/
def InHall (x y : ℤ) : Prop := (1 ≤ x ∧ x ≤ 40) ∧ (1 ≤ y ∧ y ≤ 18)

theorem sealed_arena : Sealed arena InHall := by
  have hborder : ∀ x ∈ List.range 42, ∀ y ∈ List.range 20,
      (x = 0 ∨ x = 41 ∨ y = 0 ∨ y = 19) → IsWall arena x y := by decide +kernel
  refine ⟨fun x y h => ?_, fun x y x' y' h hnext => ?_⟩
  · obtain ⟨⟨hx, hx'⟩, hy, hy'⟩ := h
    show (0 ≤ x ∧ x < 42) ∧ (0 ≤ y ∧ y < 20)
    omega
  · obtain ⟨⟨hx, hx'⟩, hy, hy'⟩ := h
    have hnear : (0 ≤ x' ∧ x' ≤ 41) ∧ (0 ≤ y' ∧ y' ≤ 19) := by
      rcases hnext with ⟨hdx, rfl⟩ | ⟨rfl, hdy⟩
      · rw [abs_eq (by norm_num)] at hdx
        omega
      · rw [abs_eq (by norm_num)] at hdy
        omega
    by_cases hin : InHall x' y'
    · exact Or.inl hin
    · have hedge := hborder x'.toNat (List.mem_range.mpr (by omega)) y'.toNat
        (List.mem_range.mpr (by omega)) (by unfold InHall at hin; omega)
      rw [Int.toNat_of_nonneg hnear.1.1, Int.toNat_of_nonneg hnear.2.1] at hedge
      exact Or.inr hedge

/-- A corner within the walls is a start. -/
theorem hosts_corner {n k : ℤ} (hcell : InHall n k)
    (hopen : ∀ x ∈ [n - 1, n], ∀ y ∈ [k - 1, k], ¬ IsWall arena x y) :
    Hosts arena InHall (⟨n, k⟩ : Vec ℝ) :=
  ⟨sealed_arena, by rw [Int.floor_intCast, Int.floor_intCast]; exact hcell,
    clear_corner ⟨playerRadius_range.1.le, playerRadius_range.2.trans (by norm_num)⟩ hopen⟩

/-- A player that starts the first level, walks ahead and turns. -/
theorem player_stays_sealed_hall : (gameMachine hall).Always (fun g => Playing g →
    InRegion g.world.map InHall g.world.player.position)
      (Game.start { player := .zero, enemies := [], pickups := ⟨[], initCollisionTable 0 0⟩
                    map := ⟨[], 0, 0⟩, gunAnims := [], timeCounter := 0, state := .mainMenu
                    invMenu := .closed, nullTarget := false }
        { regA := 0, regB := 0, pieState := 0 })
      [.mouse ⟨0, 0⟩ true 0, .tick { polls := [], bots := fun _ => none },
        .kbd { (Controls.zero : Controls ℝ).kbdState with xPos := true },
        .mouse ⟨0, 0⟩ false (1 / 2), .tick { polls := [], bots := fun _ => none }] := by
  refine player_stays_sealed (fun x hx => ⟨Real.sqrt_nonneg x, Real.mul_self_sqrt hx⟩)
    Real.cos_sq_add_sin_sq (fun _ => InHall) (fun n _ m hm => ?_) (fun m hm first => ?_) _ _ _
  · obtain rfl : arena = m := Option.some.inj hm
    have hstart : Hosts arena InHall (⟨(2 : ℤ), (2 : ℤ)⟩ : Vec ℝ) :=
      hosts_corner (by unfold InHall; omega) (by decide +kernel)
    exact_mod_cast hstart
  · obtain rfl : arena = m := Option.some.inj hm
    refine hosts_corner ?_ (by cases first <;> decide +kernel)
    cases first
    · show InHall 39 17
      unfold InHall
      omega
    · show InHall 2 2
      unfold InHall
      omega

end OperationMinix
