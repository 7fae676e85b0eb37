import Mathlib.Analysis.SpecialFunctions.Complex.Arg
import OperationMinix.Player.PickupLookup

/-!
# Walking along walls

`player_wall_collision` goes through the nine cells around the new position, one after the
other, and pushes the player out of every wall that its circle reaches into.  Between two of
them the player has been moved, so what counts is that a push does not bring the circle into
another wall.

A push never leaves the cell the player is in.  On each axis it leads away from one side of
the cell, and no farther than the radius.  The other side is then still as far away as the
radius, because the radius is at most one half.  So a wall is either farther away than before
or far enough, in whatever order the cells come.

## Main definitions

* `Clear` — no wall of the map is closer than the radius.
* `stride`, `walk` — the moves of a player that are shorter than the radius.

## Main results

* `wallDistance_pushOut` — a push brings the player closer to no wall, but for those that are
  far enough.
* `walking_stays_clear` — **walking never enters a wall.**
-/

namespace OperationMinix

open Runs

set_option linter.unusedSectionVars false

section Model

variable {K : Type*} [Field K] [LinearOrder K] [FloorRing K]

/-! ### Definitions -/

/-- The way from a coordinate to the closest one of cell `x`. -/
def gap (c : K) (x : ℤ) : K := closestOn c x 1 - c

/-- The squared distance from a point to cell `(x, y)`. -/
def wallDistance (p : Vec K) (x y : ℤ) : K := gap p.x x ^ 2 + gap p.y y ^ 2

/-- A wall of the map. -/
def IsWall (m : GameMap) (x y : ℤ) : Prop :=
  ((0 ≤ x ∧ x < m.columns) ∧ (0 ≤ y ∧ y < m.lines)) ∧ 0 < m.cell x y

/-- **No wall of the map is closer than the radius.** -/
def Clear (m : GameMap) (radius : K) (p : Vec K) : Prop :=
  ∀ x y, IsWall m x y → radius ^ 2 ≤ wallDistance p x y

/-- The displacement that `player_int_ih` computes from the keys. -/
def stride (ply : PlayerInfo K) : Vec K :=
  let dir := ply.direction
  let perpDir : Vec K := ⟨-dir.y, dir.x⟩
  let mov := ply.movm.movement
  let speedMult : K := 1 - (if ply.movm.kbdState.crouch then 1 / 2 else 0) +
    (if ply.movm.kbdState.sprint then 1 / 2 else 0)
  { x := speedMult * (1 / 20 * mov.x * dir.x + 1 / 40 * mov.y * perpDir.x)
    y := speedMult * (1 / 20 * mov.x * dir.y + 1 / 40 * mov.y * perpDir.y) }

/-- The point a displacement away. -/
def displaced (p v : Vec K) : Vec K := ⟨p.x + v.x, p.y + v.y⟩

theorem move_position (l : Libm K) (m : GameMap) (ply : PlayerInfo K) : (move l m ply).position =
    playerWallCollision l m ply.radius (displaced ply.position (stride ply)) := rfl

/-- The moves of a player that are shorter than its radius and stay on the map.  The input is
the player as it is turned and steered before the move. -/
def walk (l : Libm K) (m : GameMap) : Machine (PlayerInfo K) (PlayerInfo K) where
  step ply steered :=
    let ply := { steered with position := ply.position, radius := ply.radius }
    if vecMagSquared (stride ply) < ply.radius ^ 2 ∧
        OnMap m.columns m.lines (displaced ply.position (stride ply)) then
      some (move l m ply)
    else none

/-- The point lies in a cell. -/
def InCell (x y : ℤ) (p : Vec K) : Prop := (x ≤ p.x ∧ p.x < x + 1) ∧ (y ≤ p.y ∧ p.y < y + 1)

/-- What a push needs and keeps: the player is in its cell and inside no wall around it. -/
structure Outside (m : GameMap) (cx cy : ℤ) (p : Vec K) : Prop where
  inCell : InCell cx cy p
  pos : ∀ x y, |x - cx| ≤ 1 → |y - cy| ≤ 1 → IsWall m x y → 0 < wallDistance p x y

end Model

section Exact

variable {K : Type*} [Field K] [LinearOrder K] [IsStrictOrderedRing K] [FloorRing K]

/-! ### One axis -/

/-- The way to the cell before. -/
theorem gap_before {n : ℤ} {c : K} (h : n ≤ c) : gap c (n - 1) = n - c := by
  unfold gap closestOn
  push_cast
  rw [if_neg (by linarith), sub_add_cancel]
  split
  · rfl
  · linarith

/-- There is no way to the cell itself. -/
theorem gap_here {n : ℤ} {c : K} (hlow : n ≤ c) (hhigh : c ≤ n + 1) : gap c n = 0 := by
  unfold gap closestOn
  push_cast
  rw [if_neg (by linarith), if_neg (by linarith), sub_self]

/-- The way to the cell after it. -/
theorem gap_after {n : ℤ} {c : K} (h : c ≤ n + 1) : gap c (n + 1) = n + 1 - c := by
  unfold gap closestOn
  push_cast
  split
  · rfl
  · rw [if_neg (by linarith)]
    linarith

theorem near_cases {n x : ℤ} (hx : |x - n| ≤ 1) : x = n - 1 ∨ x = n ∨ x = n + 1 := by
  rw [abs_le] at hx
  omega

/-- Cells farther away are at least a whole cell away. -/
theorem one_le_gap_sq {n x : ℤ} (hx : ¬ |x - n| ≤ 1) {c : K} (hlow : n ≤ c) (hhigh : c ≤ n + 1) :
    1 ≤ gap c x ^ 2 := by
  rw [abs_le, not_and_or, not_le, not_le] at hx
  unfold gap closestOn
  rw [Int.cast_one]
  rcases hx with hx | hx
  · have hcast : (x : K) + 2 ≤ n := by exact_mod_cast (by omega : x + 2 ≤ n)
    rw [if_neg (by linarith), if_pos (by linarith)]
    nlinarith
  · have hcast : (n : K) + 2 ≤ x := by exact_mod_cast (by omega : n + 2 ≤ x)
    rw [if_pos (by linarith)]
    nlinarith

/-- Within a cell, what leads away from the side before is farther away from it, and the side
after is still the radius away. -/
theorem gap_sq_right {n : ℤ} {c c' radius : K} (hc : n ≤ c) (hc' : c ≤ c')
    (hradius : 0 ≤ radius ∧ radius ≤ 1 / 2) (hfar : c' ≤ n + radius) :
    ∀ x', |x' - n| ≤ 1 → gap c x' ^ 2 ≤ gap c' x' ^ 2 ∨ radius ^ 2 ≤ gap c' x' ^ 2 := by
  intro x' hx'
  rcases near_cases hx' with rfl | rfl | rfl
  · rw [gap_before hc, gap_before (hc.trans hc')]
    exact .inl (by nlinarith)
  · rw [gap_here hc (by linarith), gap_here (hc.trans hc') (by linarith)]
    exact .inl le_rfl
  · rw [gap_after (by linarith : c' ≤ n + 1)]
    exact .inr (by nlinarith)

/-- The same away from the side after. -/
theorem gap_sq_left {n : ℤ} {c c' radius : K} (hc : c ≤ n + 1) (hc' : c' ≤ c)
    (hradius : 0 ≤ radius ∧ radius ≤ 1 / 2) (hfar : n + 1 - radius ≤ c') :
    ∀ x', |x' - n| ≤ 1 → gap c x' ^ 2 ≤ gap c' x' ^ 2 ∨ radius ^ 2 ≤ gap c' x' ^ 2 := by
  intro x' hx'
  rcases near_cases hx' with rfl | rfl | rfl
  · rw [gap_before (by linarith : (n : K) ≤ c')]
    exact .inr (by nlinarith)
  · rw [gap_here (by linarith) hc, gap_here (by linarith) (hc'.trans hc)]
    exact .inl le_rfl
  · rw [gap_after hc, gap_after (hc'.trans hc)]
    exact .inl (by nlinarith)

/-- **A push along one axis.**  The player stays in the cell, and every side of it is at least
as far away as before, or as the radius. -/
theorem gap_push {n x : ℤ} (hx : |x - n| ≤ 1) {c factor radius : K} (hc : n ≤ c ∧ c < n + 1)
    (hfactor : 1 ≤ factor) (hle : |factor * gap c x| ≤ radius) (hhalf : radius ≤ 1 / 2) :
    let c' := c + (gap c x - factor * gap c x)
    (n ≤ c' ∧ c' < n + 1) ∧ gap c' x = factor * gap c x ∧
      ∀ x', |x' - n| ≤ 1 → gap c x' ^ 2 ≤ gap c' x' ^ 2 ∨ radius ^ 2 ≤ gap c' x' ^ 2 := by
  have hradius : 0 ≤ radius ∧ radius ≤ 1 / 2 := ⟨(abs_nonneg _).trans hle, hhalf⟩
  dsimp only
  rcases near_cases hx with rfl | rfl | rfl
  · -- away from the side before: the way grows from `c - n` to `way`
    rw [gap_before hc.1] at hle ⊢
    obtain ⟨way, hway⟩ : ∃ way, way = factor * (c - n) := ⟨_, rfl⟩
    have hgrow : c - n ≤ way := by
      rw [hway]
      exact le_mul_of_one_le_left (sub_nonneg.mpr hc.1) hfactor
    have hfar : way ≤ radius := by
      rw [hway]
      linarith only [(abs_le.mp hle).1]
    have hc' : c + (n - c - factor * (n - c)) = n + way := by
      rw [hway]
      ring
    rw [hc']
    refine ⟨⟨by linarith, by linarith⟩, ?_, gap_sq_right hc.1 (by linarith) hradius (by linarith)⟩
    rw [gap_before (by linarith), hway]
    ring
  · -- the cell is not left on this axis
    rw [gap_here hc.1 hc.2.le, mul_zero, sub_zero, add_zero]
    exact ⟨hc, gap_here hc.1 hc.2.le, fun x' _ => .inl le_rfl⟩
  · -- away from the side after
    rw [gap_after hc.2.le] at hle ⊢
    obtain ⟨way, hway⟩ : ∃ way, way = factor * (n + 1 - c) := ⟨_, rfl⟩
    have hgrow : n + 1 - c ≤ way := by
      rw [hway]
      exact le_mul_of_one_le_left (by linarith) hfactor
    have hfar : way ≤ radius := by
      rw [hway]
      exact (abs_le.mp hle).2
    have hc' : c + (n + 1 - c - factor * (n + 1 - c)) = n + 1 - way := by
      rw [hway]
      ring
    rw [hc']
    refine ⟨⟨by linarith, by linarith⟩, ?_, gap_sq_left hc.2.le (by linarith) hradius (by linarith)⟩
    rw [gap_after (by linarith), hway]
    ring

/-! ### One wall -/

section

variable {l : Libm K} (hsqrt : ∀ x, 0 ≤ x → 0 ≤ l.sqrt x ∧ l.sqrt x * l.sqrt x = x)
  {m : GameMap} {radius : K}

include hsqrt

/-- **What one cell does to the player**: nothing when its wall is far enough, and else it
scales the way to it up to the radius. -/
theorem pushOut_cases (hradius : 0 < radius) {p : Vec K} {x y : ℤ} (hwall : 0 < m.cell x y)
    (hpos : 0 < wallDistance p x y) :
    (radius ^ 2 ≤ wallDistance p x y ∧ pushOut l m radius p (x, y) = p) ∨
      ∃ factor, 1 ≤ factor ∧ factor ^ 2 * wallDistance p x y = radius ^ 2 ∧
        pushOut l m radius p (x, y) =
          ⟨p.x + (gap p.x x - factor * gap p.x x), p.y + (gap p.y y - factor * gap p.y y)⟩ := by
  have hdist : vecMagSquared (circleRectDistance ⟨p, radius⟩ (unitCell x y)) =
      wallDistance p x y := rfl
  unfold pushOut
  dsimp only
  rw [if_neg (not_le.mpr hwall), hdist, ← sq]
  by_cases hfar : wallDistance p x y ≥ radius ^ 2
  · rw [if_pos hfar]
    exact .inl ⟨hfar, rfl⟩
  · rw [if_neg hfar, if_neg hpos.ne']
    rw [ge_iff_le, not_le] at hfar
    obtain ⟨hnonneg, hmul⟩ := hsqrt (radius ^ 2 / wallDistance p x y) (by positivity)
    refine .inr ⟨_, ?_, ?_, rfl⟩
    · have hone : 1 ≤ radius ^ 2 / wallDistance p x y := (one_le_div hpos).mpr hfar.le
      rw [← hmul, ← sq] at hone
      exact (one_le_sq_iff₀ hnonneg).mp hone
    · rw [sq (l.sqrt _), hmul, div_mul_cancel₀ _ hpos.ne']

/-- **A push brings the player closer to no wall**, but for those that are far enough, and it
makes way for its own wall. -/
theorem wallDistance_pushOut (hradius : 0 < radius) (hhalf : radius ≤ 1 / 2) {p : Vec K}
    {cx cy x y : ℤ} (hp : InCell cx cy p) (hx : |x - cx| ≤ 1) (hy : |y - cy| ≤ 1)
    (hwall : 0 < m.cell x y) (hpos : 0 < wallDistance p x y) :
    InCell cx cy (pushOut l m radius p (x, y)) ∧
      radius ^ 2 ≤ wallDistance (pushOut l m radius p (x, y)) x y ∧
      ∀ x' y', |x' - cx| ≤ 1 → |y' - cy| ≤ 1 →
        wallDistance p x' y' ≤ wallDistance (pushOut l m radius p (x, y)) x' y' ∨
          radius ^ 2 ≤ wallDistance (pushOut l m radius p (x, y)) x' y' := by
  rcases pushOut_cases hsqrt hradius hwall hpos with ⟨hfar, heq⟩ | ⟨factor, hfactor, hreach, heq⟩
  · rw [heq]
    exact ⟨hp, hfar, fun _ _ _ _ => .inl le_rfl⟩
  · rw [heq]
    have hscaled : (factor * gap p.x x) ^ 2 + (factor * gap p.y y) ^ 2 = radius ^ 2 := by
      rw [← hreach, wallDistance]
      ring
    have hlex : |factor * gap p.x x| ≤ radius := by
      refine abs_le_of_sq_le_sq ?_ hradius.le
      linarith only [hscaled, sq_nonneg (factor * gap p.y y)]
    have hley : |factor * gap p.y y| ≤ radius := by
      refine abs_le_of_sq_le_sq ?_ hradius.le
      linarith only [hscaled, sq_nonneg (factor * gap p.x x)]
    obtain ⟨hinx, hgapx, hkeepx⟩ := gap_push hx hp.1 hfactor hlex hhalf
    obtain ⟨hiny, hgapy, hkeepy⟩ := gap_push hy hp.2 hfactor hley hhalf
    refine ⟨⟨hinx, hiny⟩, ?_, fun x' y' hx' hy' => ?_⟩
    · rw [wallDistance, hgapx, hgapy, hscaled]
    · unfold wallDistance
      rcases hkeepx x' hx' with hkx | hkx
      · rcases hkeepy y' hy' with hky | hky
        · exact .inl (add_le_add hkx hky)
        · exact .inr (hky.trans (le_add_of_nonneg_left (sq_nonneg _)))
      · exact .inr (hkx.trans (le_add_of_nonneg_right (sq_nonneg _)))

/-! ### The cells around the player -/

variable (hradius : 0 < radius) (hhalf : radius ≤ 1 / 2) {cx cy : ℤ}

include hradius hhalf

/-- **What one cell does**: its wall is far enough afterwards, and so is every wall that was
far enough before. -/
theorem outside_pushOut {p : Vec K} (hp : Outside m cx cy p) {x y : ℤ} (hx : |x - cx| ≤ 1)
    (hy : |y - cy| ≤ 1)
    (hmap : (0 ≤ x ∧ x < m.columns) ∧ (0 ≤ y ∧ y < m.lines)) :
    Outside m cx cy (pushOut l m radius p (x, y)) ∧
      (0 < m.cell x y → radius ^ 2 ≤ wallDistance (pushOut l m radius p (x, y)) x y) ∧
      ∀ x' y', |x' - cx| ≤ 1 → |y' - cy| ≤ 1 → radius ^ 2 ≤ wallDistance p x' y' →
        radius ^ 2 ≤ wallDistance (pushOut l m radius p (x, y)) x' y' := by
  by_cases hwall : 0 < m.cell x y
  · obtain ⟨hin, hown, hkeep⟩ := wallDistance_pushOut hsqrt hradius hhalf hp.inCell hx hy hwall
      (hp.pos x y hx hy ⟨hmap, hwall⟩)
    refine ⟨⟨hin, fun x' y' hx' hy' hwall' => ?_⟩, fun _ => hown, fun x' y' hx' hy' hfar => ?_⟩
    · rcases hkeep x' y' hx' hy' with hle | hfar
      · exact (hp.pos x' y' hx' hy' hwall').trans_le hle
      · exact (pow_pos hradius 2).trans_le hfar
    · rcases hkeep x' y' hx' hy' with hle | hfar'
      · exact hfar.trans hle
      · exact hfar'
  · have hskip : pushOut l m radius p (x, y) = p := if_pos (not_lt.mp hwall)
    rw [hskip]
    exact ⟨hp, fun h => absurd h hwall, fun _ _ _ _ hfar => hfar⟩

/-- The cells one after the other: after all of them, every wall among them is far enough. -/
theorem outside_foldl : ∀ (cells : List (ℤ × ℤ)) (p : Vec K),
    (∀ c ∈ cells, (|c.1 - cx| ≤ 1 ∧ |c.2 - cy| ≤ 1) ∧
      (0 ≤ c.1 ∧ c.1 < m.columns) ∧ (0 ≤ c.2 ∧ c.2 < m.lines)) →
    Outside m cx cy p →
      Outside m cx cy (cells.foldl (pushOut l m radius) p) ∧
        (∀ c ∈ cells, 0 < m.cell c.1 c.2 →
          radius ^ 2 ≤ wallDistance (cells.foldl (pushOut l m radius) p) c.1 c.2) ∧
        ∀ x' y', |x' - cx| ≤ 1 → |y' - cy| ≤ 1 → radius ^ 2 ≤ wallDistance p x' y' →
          radius ^ 2 ≤ wallDistance (cells.foldl (pushOut l m radius) p) x' y' := by
  intro cells
  induction cells with
  | nil =>
    intro p _ hp
    exact ⟨hp, nofun, fun _ _ _ _ hfar => hfar⟩
  | cons c cells ih =>
    intro p hcells hp
    obtain ⟨⟨hx, hy⟩, hmap⟩ := hcells c List.mem_cons_self
    obtain ⟨hout, hown, hkeep⟩ := outside_pushOut hsqrt hradius hhalf hp hx hy hmap
    obtain ⟨hout', hown', hkeep'⟩ :=
      ih _ (fun c' hc' => hcells c' (List.mem_cons_of_mem c hc')) hout
    refine ⟨hout', fun c' hc' hwall => ?_, fun x' y' hx' hy' hfar => ?_⟩
    · rcases List.mem_cons.mp hc' with rfl | hc'
      · exact hkeep' _ _ hx hy (hown hwall)
      · exact hown' c' hc' hwall
    · exact hkeep' x' y' hx' hy' (hkeep x' y' hx' hy' hfar)

/-- **From a position inside no wall, the player is pushed out of all of them**, and it stays
in its cell. -/
theorem playerWallCollision_clear {q : Vec K} (hq : OnMap m.columns m.lines q)
    (hpos : ∀ x y, IsWall m x y → 0 < wallDistance q x y) :
    InCell ⌊q.x⌋ ⌊q.y⌋ (playerWallCollision l m radius q) ∧
      Clear m radius (playerWallCollision l m radius q) := by
  obtain ⟨⟨hx, hx'⟩, hy, hy'⟩ := id hq
  have hon : ¬ (q.x < 0 ∨ q.y < 0 ∨ q.y ≥ m.lines ∨ q.x ≥ m.columns) := by
    simp only [not_or, not_lt, not_le, ge_iff_le]
    exact ⟨hx, hy, hy', hx'⟩
  have hcell : InCell ⌊q.x⌋ ⌊q.y⌋ q :=
    ⟨⟨Int.floor_le _, Int.lt_floor_add_one _⟩, Int.floor_le _, Int.lt_floor_add_one _⟩
  unfold playerWallCollision
  rw [if_neg hon]
  have hmem : ∀ x y, (x, y) ∈ ((neighbourhood q.x m.columns).flatMap fun x =>
      (neighbourhood q.y m.lines).map fun y => (x, y)) ↔
        ((0 ≤ x ∧ x < m.columns) ∧ |x - ⌊q.x⌋| ≤ 1) ∧ (0 ≤ y ∧ y < m.lines) ∧ |y - ⌊q.y⌋| ≤ 1 := by
    intro x y
    rw [← truncate_of_nonneg hx, ← truncate_of_nonneg hy, ← mem_neighbourhood, ← mem_neighbourhood]
    exact List.pair_mem_product
  obtain ⟨hout, hown, -⟩ := outside_foldl hsqrt hradius hhalf _ q
    (fun c hc => by
      obtain ⟨⟨hcx, hnx⟩, hcy, hny⟩ := (hmem c.1 c.2).mp hc
      exact ⟨⟨hnx, hny⟩, hcx, hcy⟩)
    ⟨hcell, fun x y _ _ hwall => hpos x y hwall⟩
  refine ⟨hout.inCell, fun x y hwall => ?_⟩
  obtain ⟨⟨hinx, hinx'⟩, hiny, hiny'⟩ := hout.inCell
  have hone : radius ^ 2 ≤ 1 := pow_le_one₀ hradius.le (by linarith)
  by_cases hnx : |x - ⌊q.x⌋| ≤ 1
  · by_cases hny : |y - ⌊q.y⌋| ≤ 1
    · exact hown (x, y) ((hmem x y).mpr ⟨⟨hwall.1.1, hnx⟩, hwall.1.2, hny⟩) hwall.2
    · exact hone.trans ((one_le_gap_sq hny hiny hiny'.le).trans
        (le_add_of_nonneg_left (sq_nonneg _)))
  · exact hone.trans ((one_le_gap_sq hnx hinx hinx'.le).trans
      (le_add_of_nonneg_right (sq_nonneg _)))

end

/-! ### Moves -/

/-- No point of a cell is closer than the cell. -/
theorem wallDistance_le {p q : Vec K} {x y : ℤ} (hx : gap q.x x = 0) (hy : gap q.y y = 0) :
    wallDistance p x y ≤ (q.x - p.x) ^ 2 + (q.y - p.y) ^ 2 := by
  have hin : ∀ {c : K} {n : ℤ}, gap c n = 0 → (n : K) ≤ c ∧ c ≤ n + 1 := by
    intro c n h
    unfold gap closestOn at h
    rw [Int.cast_one] at h
    split at h
    · exact ⟨by linarith, by linarith⟩
    · split at h
      · exact ⟨by linarith, by linarith⟩
      · exact ⟨by linarith, by linarith⟩
  have hsq : ∀ {c d : K} {n : ℤ}, gap d n = 0 → gap c n ^ 2 ≤ (d - c) ^ 2 := by
    intro c d n h
    rw [gap, ← neg_sq, neg_sub]
    exact closestOn_sq_le (hin h).1 (hin h).2
  exact add_le_add (hsq hx) (hsq hy)

/-- A move that is shorter than the radius does not end inside a wall. -/
theorem wallDistance_displaced_pos {m : GameMap} {radius : K} {p v : Vec K}
    (hclear : Clear m radius p) (hshort : vecMagSquared v < radius ^ 2) {x y : ℤ}
    (hwall : IsWall m x y) : 0 < wallDistance (displaced p v) x y := by
  refine lt_of_le_of_ne (add_nonneg (sq_nonneg _) (sq_nonneg _)) fun hzero => ?_
  obtain ⟨hx, hy⟩ := (add_eq_zero_iff_of_nonneg (sq_nonneg _) (sq_nonneg _)).mp hzero.symm
  have hle := wallDistance_le (p := p) (pow_eq_zero_iff two_ne_zero |>.mp hx)
    (pow_eq_zero_iff two_ne_zero |>.mp hy)
  have hv : (p.x + v.x - p.x) ^ 2 + (p.y + v.y - p.y) ^ 2 = vecMagSquared v := by
    rw [add_sub_cancel_left, add_sub_cancel_left, vecMagSquared]
  exact absurd ((hclear x y hwall).trans (hle.trans_eq hv)) (not_le.mpr hshort)

/-- **A move that is shorter than the radius** ends on the map, at least the radius away from
every wall. -/
theorem playerWallCollision_displaced {l : Libm K}
    (hsqrt : ∀ x, 0 ≤ x → 0 ≤ l.sqrt x ∧ l.sqrt x * l.sqrt x = x) {m : GameMap} {radius : K}
    (hradius : 0 < radius) (hhalf : radius ≤ 1 / 2) {p v : Vec K} (hclear : Clear m radius p)
    (hshort : vecMagSquared v < radius ^ 2) (hq : OnMap m.columns m.lines (displaced p v)) :
    OnMap m.columns m.lines (playerWallCollision l m radius (displaced p v)) ∧
      Clear m radius (playerWallCollision l m radius (displaced p v)) := by
  obtain ⟨⟨⟨hx, hx'⟩, hy, hy'⟩, hclear'⟩ := playerWallCollision_clear hsqrt hradius hhalf hq
    fun x y hwall => wallDistance_displaced_pos hclear hshort hwall
  obtain ⟨⟨hqx, hqx'⟩, hqy, hqy'⟩ := hq
  have hlow : ∀ {c : K}, 0 ≤ c → (0 : K) ≤ ⌊c⌋ := by
    intro c hc
    exact_mod_cast Int.floor_nonneg.mpr hc
  have hhigh : ∀ {c : K} {n : ℕ}, c < n → (⌊c⌋ : K) + 1 ≤ n := by
    intro c n hc
    have hfloor : ⌊c⌋ < n := Int.floor_lt.mpr (by exact_mod_cast hc)
    exact_mod_cast Int.add_one_le_of_lt hfloor
  exact ⟨⟨⟨(hlow hqx).trans hx, hx'.trans_le (hhigh hqx')⟩,
    (hlow hqy).trans hy, hy'.trans_le (hhigh hqy')⟩, hclear'⟩

/-- **Walking never enters a wall.**  With a radius of at most one half, a player that is on the
map and at least its radius away from every wall is so again after each move shorter than its
radius, wherever it leads on the map, and throughout every run of such moves. -/
theorem walking_stays_clear (l : Libm K)
    (hsqrt : ∀ x, 0 ≤ x → 0 ≤ l.sqrt x ∧ l.sqrt x * l.sqrt x = x) (m : GameMap)
    (ply : PlayerInfo K) (hradius : 0 < ply.radius) (hhalf : ply.radius ≤ 1 / 2)
    (hmap : OnMap m.columns m.lines ply.position) (hclear : Clear m ply.radius ply.position) :
    (∀ v, vecMagSquared v < ply.radius ^ 2 → OnMap m.columns m.lines (displaced ply.position v) →
      Clear m ply.radius (playerWallCollision l m ply.radius (displaced ply.position v))) ∧
    ∀ steered : List (PlayerInfo K),
      (walk l m).Always (fun ply => Clear m ply.radius ply.position) ply steered := by
  have hstep := fun {radius : K} (hr : 0 < radius ∧ radius ≤ 1 / 2) {p v : Vec K} =>
    playerWallCollision_displaced (l := l) hsqrt (m := m) (p := p) (v := v) hr.1 hr.2
  refine ⟨fun v hshort hq => (hstep ⟨hradius, hhalf⟩ hclear hshort hq).2, fun steered => ?_⟩
  refine Machine.always_of_step
    (J := fun q : PlayerInfo K => (0 < q.radius ∧ q.radius ≤ 1 / 2) ∧
      OnMap m.columns m.lines q.position ∧ Clear m q.radius q.position)
    (fun _ hq => hq.2.2) ?_ steered ⟨⟨hradius, hhalf⟩, hmap, hclear⟩
  rintro q i q' ⟨hr, -, hq⟩ hwalk
  dsimp only [walk] at hwalk
  split at hwalk
  · next hmove =>
    obtain rfl := Option.some.inj hwalk
    exact ⟨hr, hstep hr hq hmove.1 hmove.2⟩
  · cases hwalk

end Exact

/-! ### In a chamber -/

/-- The functions of `math.h` over the reals. -/
noncomputable def realLibm : Libm ℝ where
  sqrt := Real.sqrt
  cos := Real.cos
  sin := Real.sin
  tan := Real.tan
  atan2 y x := Complex.arg ⟨x, y⟩
  pi := Real.pi

/-- One empty cell with walls around it. -/
def chamber : GameMap where
  matrix := [[1, 1, 1], [1, 0, 1], [1, 1, 1]]
  lines := 3
  columns := 3

/-- A step towards a corner of the chamber. -/
theorem walking_stays_clear_chamber :
    Clear chamber (2 / 5 : ℝ) (playerWallCollision realLibm chamber (2 / 5)
      (displaced ⟨3 / 2, 3 / 2⟩ ⟨1 / 5, 1 / 5⟩)) := by
  have hgap : ∀ z : ℤ, 0 ≤ z → z < 3 → z ≠ 1 → (2 / 5 : ℝ) ^ 2 ≤ gap (3 / 2) z ^ 2 := by
    intro z hz hz' hne
    obtain rfl | rfl : z = 1 - 1 ∨ z = 1 + 1 := by omega
    · rw [gap_before (by norm_num)]
      norm_num
    · rw [gap_after (by norm_num)]
      norm_num
  have hclear : Clear chamber (2 / 5 : ℝ) ⟨3 / 2, 3 / 2⟩ := by
    rintro x y ⟨⟨⟨hx, hx'⟩, hy, hy'⟩, hwall⟩
    by_cases hx1 : x = 1
    · have hy1 : y ≠ 1 := by
        rintro rfl
        subst hx1
        exact absurd hwall (by decide)
      exact (hgap y hy hy' hy1).trans (le_add_of_nonneg_left (sq_nonneg _))
    · exact (hgap x hx hx' hx1).trans (le_add_of_nonneg_right (sq_nonneg _))
  have hsqrt : ∀ x : ℝ, 0 ≤ x → 0 ≤ realLibm.sqrt x ∧ realLibm.sqrt x * realLibm.sqrt x = x :=
    fun x hx => ⟨Real.sqrt_nonneg x, Real.mul_self_sqrt hx⟩
  have hmap : ∀ a b : ℝ, 0 ≤ a → a < 3 → 0 ≤ b → b < 3 →
      OnMap chamber.columns chamber.lines (⟨a, b⟩ : Vec ℝ) :=
    fun a b ha ha' hb hb' => ⟨⟨ha, ha'⟩, hb, hb'⟩
  refine (walking_stays_clear realLibm hsqrt chamber
    { (PlayerInfo.zero : PlayerInfo ℝ) with position := ⟨3 / 2, 3 / 2⟩, radius := 2 / 5 }
    (by norm_num) (by norm_num) (hmap _ _ (by norm_num) (by norm_num) (by norm_num) (by norm_num))
    hclear).1 ⟨1 / 5, 1 / 5⟩ ?_ ?_
  · norm_num [vecMagSquared]
  · exact hmap _ _ (by norm_num) (by norm_num) (by norm_num) (by norm_num)

end OperationMinix
