import Mathlib.Logic.Function.Basic
import OperationMinix.Runs.Raster
import OperationMinix.Utils.Geometry

/-!
# Loading a map

`load_map` allocates the rows of the matrix one by one, inside of the loop over the cells:
when a row is full, the next one is allocated and its address is stored behind it.  The
last row is followed by none, but the address of one more is stored all the same, behind
the end of the block of row pointers.

The memory is that of the matrix: the row pointers from `matrix` on, those behind the end
of the block included, and the rows that they point to.  A write to a place that has not
been allocated is carried out and recorded.

## Main definitions

* `RawMap`, `mallocRow`, `setCell` — the matrix in memory, and the writes to it.
* `loadMap` — the loader, given what `fscanf` finds in the file.
* `Loads` — what is to be expected of it.

## Main results

* `loadMap_spec` — a map whose size fits the counters is loaded, with one stray write.
* `loadableMaps_spec` — the map that the game gets has the size and the cells of its file.
* `loadMap_strays` — **no map is loaded without a stray write.**
-/

namespace OperationMinix

open Runs

/-- A place of the matrix. -/
inductive MapPlace where
  /-- `&matrix[i]`. -/
  | row (i : ℕ)
  /-- `&matrix[i][j]`. -/
  | cell (i j : ℕ)
  deriving DecidableEq, Repr

/-- `map_t` in memory. -/
structure RawMap where
  lines : ℕ
  columns : ℕ
  /-- What `matrix[i]` points to; `none` where no pointer has been stored.  A cell is `none`
  until it is written. -/
  matrix : ℕ → Option (List (Option (BitVec 32)))
  /-- The places written to that had not been allocated, in order. -/
  stray : List MapPlace

/-- The value of a cell, if it has one. -/
def RawMap.cell (m : RawMap) (i j : ℕ) : Option (BitVec 32) :=
  ((m.matrix i).bind fun row => row[j]?).join

/-- The map the game reads. -/
def RawMap.gameMap (m : RawMap) : GameMap :=
  { lines := m.lines, columns := m.columns
    matrix := (List.range m.lines).map fun i =>
      (List.range m.columns).map fun j => ((m.cell i j).getD 0).toInt }

/-- `map->matrix[i] = malloc(map->columns * sizeof(int32_t))`; the block at `matrix` has
room for `lines` pointers. -/
def mallocRow (i : ℕ) (m : RawMap) : RawMap :=
  { m with
    matrix := Function.update m.matrix i (some (List.replicate m.columns none))
    stray := if i < m.lines then m.stray else m.stray ++ [.row i] }

/-- `map->matrix[i][j] = num`. -/
def setCell (i j : ℕ) (num : BitVec 32) (m : RawMap) : RawMap :=
  match m.matrix i with
  | some row =>
    if j < row.length then
      { m with matrix := Function.update m.matrix i (some (row.set j (some num))) }
    else { m with stray := m.stray ++ [.cell i j] }
  | none => { m with stray := m.stray ++ [.cell i j] }

/-- `fscanf` of one integer into a variable of `w` bits: the file is the integers in it, up
to what is none.  The variable keeps its value when there are no more. -/
def scanInt {w : ℕ} (file : List ℤ) (old : BitVec w) : BitVec w × List ℤ :=
  match file with
  | [] => (old, [])
  | z :: rest => (BitVec.ofInt w z, rest)

/-- The loop over the cells; the first number bounds the passes. -/
def loadCells : ℕ → List ℤ → BitVec 32 → ℕ → ℕ → RawMap → Option RawMap
  | 0, _, _, _, _, _ => none
  | n + 1, file, num, curLine, curCol, m =>
    if curLine < m.lines then
      let r := scanInt file num
      let m := setCell curLine curCol r.1 m
      let curCol := (curCol + 1) % 2 ^ 16
      if curCol ≥ m.columns then
        -- the row is allocated before it is known whether there is one
        let curLine := (curLine + 1) % 2 ^ 16
        loadCells n r.2 r.1 curLine 0 (mallocRow curLine m)
      else loadCells n r.2 r.1 curLine curCol m
    else some m

/-- The return values of `load_map`. -/
inductive LoadResult where
  | ok
  | badFile
  deriving DecidableEq, Repr

/-- `load_map`; the file is `none` when it cannot be opened.  Memory does not run out. -/
def loadMap (file : Option (List ℤ)) (m : RawMap) : Option (LoadResult × RawMap) :=
  match file with
  | none => some (.badFile, m)
  | some file =>
    let lines := scanInt file (BitVec.ofNat 16 m.lines)
    let columns := scanInt lines.2 (BitVec.ofNat 16 m.columns)
    let m : RawMap :=
      { lines := lines.1.toNat, columns := columns.1.toNat, matrix := fun _ => none, stray := [] }
    (loadCells (m.lines * (m.columns + 1) + 1) columns.2 0 0 0 (mallocRow 0 m)).map (.ok, ·)

/-! ### One write -/

section Writes

variable {i j i' j' : ℕ} {num : BitVec 32} {m : RawMap}

@[simp] theorem mallocRow_lines : (mallocRow i m).lines = m.lines := rfl

@[simp] theorem mallocRow_columns : (mallocRow i m).columns = m.columns := rfl

@[simp] theorem mallocRow_matrix_self :
    (mallocRow i m).matrix i = some (List.replicate m.columns none) := Function.update_self ..

theorem mallocRow_matrix_of_ne (h : i' ≠ i) : (mallocRow i m).matrix i' = m.matrix i' :=
  Function.update_of_ne h ..

@[simp] theorem setCell_lines : (setCell i j num m).lines = m.lines := by
  unfold setCell
  split
  · split <;> rfl
  · rfl

@[simp] theorem setCell_columns : (setCell i j num m).columns = m.columns := by
  unfold setCell
  split
  · split <;> rfl
  · rfl

/-- A row that is allocated has no values yet, and the other rows are left alone. -/
theorem mallocRow_cell :
    (mallocRow i m).cell i' j' = if i' = i then none else m.cell i' j' := by
  unfold RawMap.cell
  split
  · next h =>
    rw [h, mallocRow_matrix_self]
    simp only [Option.bind_some, List.getElem?_replicate]
    split <;> rfl
  · next h => rw [mallocRow_matrix_of_ne h]

/-- A write to a row that is there. -/
theorem setCell_eq {row : List (Option (BitVec 32))} (hrow : m.matrix i = some row)
    (hj : j < row.length) :
    setCell i j num m =
      { m with matrix := Function.update m.matrix i (some (row.set j (some num))) } := by
  unfold setCell
  rw [hrow]
  exact if_pos hj

/-- **A write to a cell that is there** gives it its value, and is no stray write. -/
theorem setCell_cell {row : List (Option (BitVec 32))} (hrow : m.matrix i = some row)
    (hj : j < row.length) :
    (setCell i j num m).cell i' j' = if i' = i ∧ j' = j then some num else m.cell i' j' := by
  rw [setCell_eq hrow hj]
  unfold RawMap.cell
  dsimp only
  by_cases hi : i' = i
  · subst hi
    rw [Function.update_self, hrow]
    by_cases hjj : j' = j
    · simp [hjj, hj]
    · simp [hjj, List.getElem?_set_ne (Ne.symm hjj)]
  · rw [Function.update_of_ne hi, if_neg fun h => hi h.1]

end Writes

/-! ### The loop -/

/-- What holds at the top of the loop: the cells before the next one have their values, the
row of the next one is there, and only when no cell is left has there been a stray write. -/
structure Loading (L C : ℕ) (ints : List ℤ) (curLine curCol : ℕ) (m : RawMap) : Prop where
  lines : m.lines = L
  columns : m.columns = C
  col_lt : curCol < C
  row : ∃ row, m.matrix curLine = some row ∧ row.length = C
  cells : ∀ i j, j < C → j + i * C < curCol + curLine * C →
    m.cell i j = ints[j + i * C]?.map (BitVec.ofInt 32)
  stray : m.stray = if curLine < L then [] else [.row L]

section Loop

variable {L C : ℕ} {ints : List ℤ} {curLine curCol : ℕ} {m : RawMap}

/-- The next cell gets the next integer. -/
theorem Loading.setCell_cells (h : Loading L C ints curLine curCol m) {z : ℤ}
    (hz : ints[curCol + curLine * C]? = some z) :
    ∀ i j, j < C → j + i * C < curCol + curLine * C + 1 →
      (setCell curLine curCol (BitVec.ofInt 32 z) m).cell i j =
        ints[j + i * C]?.map (BitVec.ofInt 32) := by
  intro i j hj hlt
  obtain ⟨row, hrow, hlen⟩ := h.row
  rw [setCell_cell hrow (hlen ▸ h.col_lt)]
  split
  · next hij =>
    rw [hij.1, hij.2, hz]
    rfl
  · next hij =>
    have hne : j + i * C ≠ curCol + curLine * C := fun heq =>
      hij ((Raster.index_inj hj h.col_lt heq).symm)
    exact h.cells i j hj (by omega)

/-- A pass inside of a row. -/
theorem Loading.next_cell (h : Loading L C ints curLine curCol m) {z : ℤ}
    (hz : ints[curCol + curLine * C]? = some z) (hcol : curCol + 1 < C) :
    Loading L C ints curLine (curCol + 1) (setCell curLine curCol (BitVec.ofInt 32 z) m) := by
  obtain ⟨row, hrow, hlen⟩ := h.row
  refine ⟨by simpa using h.lines, by simpa using h.columns, hcol, ?_, ?_, ?_⟩
  · rw [setCell_eq hrow (hlen ▸ h.col_lt)]
    exact ⟨_, Function.update_self .., by simpa using hlen⟩
  · intro i j hj hlt
    exact h.setCell_cells hz i j hj (by omega)
  · rw [setCell_eq hrow (hlen ▸ h.col_lt)]
    exact h.stray

/-- A pass that ends a row. -/
theorem Loading.next_row (h : Loading L C ints curLine curCol m) {z : ℤ}
    (hz : ints[curCol + curLine * C]? = some z) (hcol : curCol + 1 = C) (hline : curLine < L) :
    Loading L C ints (curLine + 1) 0
      (mallocRow (curLine + 1) (setCell curLine curCol (BitVec.ofInt 32 z) m)) := by
  obtain ⟨row, hrow, hlen⟩ := h.row
  have hend : curCol + curLine * C + 1 = 0 + (curLine + 1) * C := by
    rw [Nat.succ_mul]
    omega
  refine ⟨by simpa using h.lines, by simpa using h.columns, by omega, ?_, ?_, ?_⟩
  · exact ⟨_, mallocRow_matrix_self, by simp [h.columns]⟩
  · intro i j hj hlt
    have hi : i ≠ curLine + 1 := by
      rintro rfl
      omega
    rw [mallocRow_cell, if_neg hi]
    exact h.setCell_cells hz i j hj (hend ▸ hlt)
  · have hstray : m.stray = [] := h.stray.trans (if_pos hline)
    rw [setCell_eq hrow (hlen ▸ h.col_lt)]
    simp only [mallocRow, h.lines, hstray, List.nil_append]
    split
    · rfl
    · next hlast => rw [show curLine + 1 = L by omega]

/-- **The loop reads the cells that are left.** -/
theorem Loading.loop (hL : L < 2 ^ 16) (hC : C < 2 ^ 16) (hints : L * C ≤ ints.length) :
    ∀ (n fuel curLine curCol : ℕ) (num : BitVec 32) (m : RawMap),
      Loading L C ints curLine curCol m → curCol + curLine * C + n = L * C → n < fuel →
      ∃ m', loadCells fuel (ints.drop (curCol + curLine * C)) num curLine curCol m = some m' ∧
        Loading L C ints L 0 m' := by
  intro n
  induction n with
  | zero =>
    intro fuel curLine curCol num m h hn hfuel
    -- no cell is left: the row of the next one is the one behind the last
    obtain ⟨rfl, rfl⟩ : curCol = 0 ∧ curLine = L :=
      Raster.index_inj h.col_lt (Nat.zero_lt_of_lt h.col_lt) (by omega)
    obtain ⟨fuel, rfl⟩ := Nat.exists_eq_succ_of_ne_zero (by omega : fuel ≠ 0)
    exact ⟨m, by rw [loadCells, if_neg (by rw [h.lines]; omega)], h⟩
  | succ n ih =>
    intro fuel curLine curCol num m h hn hfuel
    obtain ⟨fuel, rfl⟩ := Nat.exists_eq_succ_of_ne_zero (by omega : fuel ≠ 0)
    have hline : curLine < L := by
      by_contra hge
      have hmul := Nat.mul_le_mul_right C (Nat.le_of_not_lt hge)
      omega
    have hlt : curCol + curLine * C < ints.length := by omega
    have hz : ints[curCol + curLine * C]? = some ints[curCol + curLine * C] :=
      List.getElem?_eq_getElem hlt
    rw [loadCells, if_pos (by rw [h.lines]; exact hline), List.drop_eq_getElem_cons hlt]
    simp only [scanInt, setCell_columns, h.columns]
    have hcol := h.col_lt
    rw [Nat.mod_eq_of_lt (by omega : curCol + 1 < 2 ^ 16),
      Nat.mod_eq_of_lt (by omega : curLine + 1 < 2 ^ 16)]
    split
    · next hge =>
      have hend : curCol + curLine * C + 1 = 0 + (curLine + 1) * C := by
        rw [Nat.succ_mul]
        omega
      rw [hend]
      exact ih fuel _ _ _ _ (h.next_row hz (by omega) hline) (by omega) (by omega)
    · next hge =>
      rw [show curCol + curLine * C + 1 = curCol + 1 + curLine * C by omega]
      exact ih fuel _ _ _ _ (h.next_cell hz (by omega)) (by omega) (by omega)

end Loop

/-- What `load_map` sets the size to. -/
theorem ofInt_toNat {n : ℕ} (h : n < 2 ^ 16) : (BitVec.ofInt 16 (n : ℤ)).toNat = n := by
  rw [BitVec.ofInt_natCast, BitVec.toNat_ofNat, Nat.mod_eq_of_lt h]

/-- **A map whose size fits the counters is loaded**: the loader comes to its end, the cells
have their values, and the only stray write is that of one more row pointer. -/
theorem loadMap_spec {L C : ℕ} (hL : 1 ≤ L) (hC : 1 ≤ C) (hL' : L < 2 ^ 16) (hC' : C < 2 ^ 16)
    {ints : List ℤ} (hints : L * C ≤ ints.length) (m : RawMap) :
    ∃ m', loadMap (some ((L : ℤ) :: (C : ℤ) :: ints)) m = some (.ok, m') ∧
      Loading L C ints L 0 m' := by
  let start : RawMap := { lines := L, columns := C, matrix := fun _ => none, stray := [] }
  have hstart : Loading L C ints 0 0 (mallocRow 0 start) := by
    refine ⟨rfl, rfl, hC, ⟨_, mallocRow_matrix_self, List.length_replicate ..⟩, ?_, ?_⟩
    · intro i j _ hlt
      omega
    · simp only [mallocRow, start]
      rw [if_pos (by omega), if_pos (by omega)]
  have hfuel : L * C < L * (C + 1) + 1 := by
    rw [Nat.mul_succ]
    omega
  obtain ⟨m', hloop, hend⟩ := Loading.loop hL' hC' hints _ _ 0 0 0 _ hstart (by omega) hfuel
  refine ⟨m', ?_, hend⟩
  rw [Nat.zero_mul, Nat.add_zero, List.drop_zero] at hloop
  simp only [loadMap, scanInt, ofInt_toNat hL', ofInt_toNat hC']
  rw [hloop]
  rfl

/-- The map the game reads has the integers of the file in its cells. -/
theorem Loading.gameMap_cell {L C : ℕ} {ints : List ℤ} {m : RawMap} (h : Loading L C ints L 0 m)
    {x y : ℕ} (hx : x < C) (hy : y < L) :
    m.gameMap.cell x y = ((ints[x + y * C]?.map (BitVec.ofInt 32)).getD 0).toInt := by
  have hcell := h.cells y x hx (by
    have := Raster.index_lt hx hy
    rw [Nat.mul_comm C L] at this
    omega)
  unfold GameMap.cell RawMap.gameMap
  simp [h.lines, h.columns, hx, hy, hcell]

/-- The maps that can be loaded, given the files. -/
def loadableMaps (files : ℕ → Option (List ℤ)) (m : RawMap) (mapNumber : ℕ) : Option GameMap :=
  match loadMap (files mapNumber) m with
  | some (.ok, m) => some m.gameMap
  | _ => none

/-- **A map that can be loaded has the size and the cells of its file.** -/
theorem loadableMaps_spec {files : ℕ → Option (List ℤ)} {mapNumber L C : ℕ} {ints : List ℤ}
    (hfile : files mapNumber = some ((L : ℤ) :: (C : ℤ) :: ints)) (hL : 1 ≤ L) (hC : 1 ≤ C)
    (hL' : L < 2 ^ 16) (hC' : C < 2 ^ 16) (hints : L * C ≤ ints.length) (m : RawMap) :
    ∃ map, loadableMaps files m mapNumber = some map ∧ map.lines = L ∧ map.columns = C ∧
      ∀ x < C, ∀ y < L,
        map.cell x y = ((ints[x + y * C]?.map (BitVec.ofInt 32)).getD 0).toInt := by
  obtain ⟨m', heq, h⟩ := loadMap_spec hL hC hL' hC' hints m
  refine ⟨m'.gameMap, ?_, h.lines, h.columns, fun x hx y hy => h.gameMap_cell hx hy⟩
  rw [loadableMaps, hfile, heq]

/-! ### Values outside of the map -/

/-- Only cells of the map have values. -/
structure RawMap.Within (m : RawMap) : Prop where
  rows : ∀ i row, m.matrix i = some row → row.length = m.columns
  cells : ∀ i j, (m.cell i j).isSome → i < m.lines ∧ j < m.columns

theorem RawMap.Within.mallocRow {m : RawMap} (h : m.Within) (i : ℕ) : (mallocRow i m).Within := by
  refine ⟨fun i' row hrow => ?_, fun i' j' hcell => ?_⟩
  · by_cases hi : i' = i
    · rw [hi, mallocRow_matrix_self, Option.some.injEq] at hrow
      simp [← hrow]
    · rw [mallocRow_matrix_of_ne hi] at hrow
      exact h.rows i' row hrow
  · rw [mallocRow_cell] at hcell
    split at hcell
    · cases hcell
    · exact h.cells i' j' hcell

theorem RawMap.Within.setCell {m : RawMap} (h : m.Within) {i : ℕ} (hi : i < m.lines) (j : ℕ)
    (num : BitVec 32) : (setCell i j num m).Within := by
  have hstray : ∀ s, RawMap.Within { m with stray := s } := fun s => ⟨h.rows, h.cells⟩
  cases hrow : m.matrix i with
  | none =>
    have heq : OperationMinix.setCell i j num m = { m with stray := m.stray ++ [.cell i j] } := by
      rw [OperationMinix.setCell, hrow]
    exact heq ▸ hstray _
  | some row =>
    by_cases hj : j < row.length
    · refine ⟨fun i' row' hrow' => ?_, fun i' j' hcell => ?_⟩
      · rw [setCell_eq hrow hj] at hrow' ⊢
        dsimp only at hrow' ⊢
        by_cases hii : i' = i
        · rw [hii] at hrow'
          simp only [Function.update_self, Option.some.injEq] at hrow'
          rw [← hrow', List.length_set]
          exact h.rows i row hrow
        · exact h.rows i' row' (by rwa [Function.update_of_ne hii] at hrow')
      · rw [setCell_lines, setCell_columns]
        rw [setCell_cell hrow hj] at hcell
        split at hcell
        · next hij => exact ⟨hij.1 ▸ hi, hij.2 ▸ h.rows i row hrow ▸ hj⟩
        · exact h.cells i' j' hcell
    · have heq : OperationMinix.setCell i j num m = { m with stray := m.stray ++ [.cell i j] } := by
        rw [OperationMinix.setCell, hrow]
        exact if_neg hj
      exact heq ▸ hstray _

/-- The loop gives values to cells of the map only, and leaves its size alone. -/
theorem loadCells_within : ∀ (n : ℕ) (file : List ℤ) (num : BitVec 32) (curLine curCol : ℕ)
    (m m' : RawMap), m.Within → loadCells n file num curLine curCol m = some m' →
    m'.Within ∧ m'.lines = m.lines ∧ m'.columns = m.columns := by
  intro n
  induction n with
  | zero => intro file num curLine curCol m m' _ h; cases h
  | succ n ih =>
    intro file num curLine curCol m m' hm h
    rw [loadCells] at h
    split at h
    · next hline =>
      have hset := hm.setCell hline curCol (scanInt file num).1
      dsimp only at h
      split at h
      · obtain ⟨hw, hl, hc⟩ := ih _ _ _ _ _ _ (hset.mallocRow _) h
        exact ⟨hw, by simpa using hl, by simpa using hc⟩
      · obtain ⟨hw, hl, hc⟩ := ih _ _ _ _ _ _ hset h
        exact ⟨hw, by simpa using hl, by simpa using hc⟩
    · cases h
      exact ⟨hm, rfl, rfl⟩

/-- The size of a map that has been loaded fits its counters, and no other cell has a value. -/
theorem loadMap_within {file : List ℤ} {m m' : RawMap} {r : LoadResult}
    (h : loadMap (some file) m = some (r, m')) :
    m'.Within ∧ m'.lines < 2 ^ 16 ∧ m'.columns < 2 ^ 16 := by
  obtain ⟨m₁, hloop, heq⟩ := Option.map_eq_some_iff.mp h
  cases heq
  have hempty : ∀ l c : ℕ,
      RawMap.Within { lines := l, columns := c, matrix := fun _ => none, stray := [] } := by
    intro l c
    exact ⟨fun i row hrow => (by cases hrow), fun i j hcell => (by cases hcell)⟩
  obtain ⟨hw, hl, hc⟩ := loadCells_within _ _ _ _ _ _ _ ((hempty _ _).mallocRow 0) hloop
  exact ⟨hw, hl ▸ BitVec.isLt _, hc ▸ BitVec.isLt _⟩

/-! ### What is to be expected -/

/-- The loader has come to its end with `OK` and without a stray write, and every cell of the
`L` rows of `C` cells has its integer. -/
def Loads (L C : ℕ) (ints : List ℤ) (r : Option (LoadResult × RawMap)) : Prop :=
  ∃ m, r = some (.ok, m) ∧ m.stray = [] ∧
    ∀ i < L, ∀ j < C, m.cell i j = ints[i * C + j]?.map (BitVec.ofInt 32)

/-- **No map is loaded without a stray write.**  When its size fits the counters, the row
pointer behind the last is the only one, and all else is as expected. -/
theorem loadMap_strays {L C : ℕ} (hL : 1 ≤ L) (hC : 1 ≤ C) {ints : List ℤ}
    (hints : L * C ≤ ints.length) (m : RawMap) :
    ¬ Loads L C ints (loadMap (some ((L : ℤ) :: (C : ℤ) :: ints)) m) ∧
      (L < 2 ^ 16 → C < 2 ^ 16 →
        ∃ m', loadMap (some ((L : ℤ) :: (C : ℤ) :: ints)) m = some (.ok, m') ∧
          m'.stray = [.row L] ∧
          ∀ i < L, ∀ j < C, m'.cell i j = ints[i * C + j]?.map (BitVec.ofInt 32)) := by
  have hfits : L < 2 ^ 16 → C < 2 ^ 16 →
      ∃ m', loadMap (some ((L : ℤ) :: (C : ℤ) :: ints)) m = some (.ok, m') ∧
        m'.stray = [.row L] ∧
        ∀ i < L, ∀ j < C, m'.cell i j = ints[i * C + j]?.map (BitVec.ofInt 32) := by
    intro hL' hC'
    obtain ⟨m', heq, h⟩ := loadMap_spec hL hC hL' hC' hints m
    refine ⟨m', heq, h.stray.trans (if_neg (Nat.lt_irrefl L)), fun i hi j hj => ?_⟩
    have hlt := Raster.index_lt hj hi
    rw [Nat.mul_comm C L] at hlt
    rw [Nat.add_comm (i * C) j]
    exact h.cells i j hj (by omega)
  refine ⟨?_, hfits⟩
  rintro ⟨m', heq, hstray, hcells⟩
  -- the last cell has its value, so the size fits the counters
  obtain ⟨hw, hlines, hcolumns⟩ := loadMap_within heq
  have hindex := Raster.index_lt (show C - 1 < C by omega) (show L - 1 < L by omega)
  have hlast : (m'.cell (L - 1) (C - 1)).isSome := by
    rw [hcells (L - 1) (by omega) (C - 1) (by omega), Option.isSome_map,
      List.getElem?_eq_getElem (by rw [Nat.mul_comm C L] at hindex; omega)]
    rfl
  obtain ⟨hl, hc⟩ := hw.cells _ _ hlast
  -- and then the row pointer behind the last has been stored
  obtain ⟨m₁, heq₁, hstray₁, -⟩ := hfits (by omega) (by omega)
  rw [heq₁, Option.some.injEq, Prod.mk.injEq] at heq
  rw [← heq.2, hstray₁] at hstray
  cases hstray

/-- `map` before a map is loaded, a static variable. -/
def RawMap.zero : RawMap := { lines := 0, columns := 0, matrix := fun _ => none, stray := [] }

theorem loadMap_strays_twoRows :
    ¬ Loads 2 3 [6, 6, 6, 6, 0, -3]
        (loadMap (some (((2 : ℕ) : ℤ) :: ((3 : ℕ) : ℤ) :: [6, 6, 6, 6, 0, -3])) .zero) ∧
      (2 < 2 ^ 16 → 3 < 2 ^ 16 →
        ∃ m', loadMap (some (((2 : ℕ) : ℤ) :: ((3 : ℕ) : ℤ) :: [6, 6, 6, 6, 0, -3])) .zero =
            some (.ok, m') ∧ m'.stray = [.row 2] ∧
          ∀ i < 2, ∀ j < 3, m'.cell i j =
            ([6, 6, 6, 6, 0, -3] : List ℤ)[i * 3 + j]?.map (BitVec.ofInt 32)) :=
  loadMap_strays (by decide) (by decide) (by decide) .zero

/-- A map of one cell: the pointer to a second row is stored. -/
theorem oneCell_not_loads : ¬ Loads 1 1 [7] (loadMap (some [1, 1, 7]) .zero) := by
  rintro ⟨m, heq, hstray, -⟩
  have hrun : (loadMap (some [1, 1, 7]) .zero).map (fun r => r.2.stray) = some [.row 1] := by
    decide
  rw [heq, Option.map_some, hstray] at hrun
  cases hrun

end OperationMinix
