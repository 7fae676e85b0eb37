import Mathlib.Data.Fintype.Sum
import Mathlib.Tactic.DeriveFintype
import OperationMinix.Controls.Mouse

/-!
# The keyboard

The keyboard sends a scan code when a key is pressed and the same code with bit 7 when it is
released.  Some keys send two bytes for a code; the first is remembered until the second comes,
but only the second says which key it was, so the two keys that share it are one to the game.

A control is a flag that one key sets and clears.  The game itself only clears them: when a
level is loaded or left, and when a number key has been taken.

## Main definitions

* `Keyboard`, `kbcIh`, `handleKbdEvt` — the static variables, and one interrupt.
* `Control`, `Control.key` — the flags and their keys.
* `Keyboard.codes`, `isDown` — the scan codes that have come, and the keys that are down.

## Main results

* `KbdCtrlState.parse_eq` — a scan code sets the control of its key and no other.
* `handleKbdEvt_spec` — **one interrupt**: it stays inside of `nums_press`, and the controls are
  on that were, but for the one whose key it was.
* `Down.scans` — **no control is on whose key is up**, after one more scan code.
-/

namespace OperationMinix

set_option linter.unusedSectionVars false

/-! ### Scan codes -/

/-- What the controller answers in one interrupt of the keyboard. -/
abbrev KbdIrq := MouseIrq

/-- `KBC_DOUBLE_BYTE`. -/
def kbcDoubleByte : Byte := 0xe0

/-- `KBC_BREAK_CODE`. -/
def kbcBreakCode : Byte := 0x80

/-- `BREAKCODE_ESC`. -/
def breakcodeEsc : Byte := 0x81

/-- `PARSE_BREAK_CODE`. -/
def parseBreakCode (x : Byte) : Byte := x &&& ~~~kbcBreakCode

/-- `PT_1`. -/
def pt1 : Byte := 0x02

/-- `PT_0`. -/
def pt0 : Byte := 0x0b

/-- A control of the keyboard. -/
inductive Control where
  /-- `x_pos`. -/
  | xPos
  /-- `x_neg`. -/
  | xNeg
  /-- `y_pos`. -/
  | yPos
  /-- `y_neg`. -/
  | yNeg
  /-- `sprint`. -/
  | sprint
  /-- `crouch`. -/
  | crouch
  /-- `gun_menu`. -/
  | gunMenu
  /-- `nums_press[i]`. -/
  | num (i : Fin 10)
  deriving DecidableEq, Repr, Fintype

/-- The key of a control: `W_KEY`, `S_KEY`, `D_KEY`, `A_KEY`, `PT_SHIFT`, `PT_CTRL`, `Q_KEY` and
the number keys. -/
def Control.key : Control → Byte
  | .xPos => 0x11
  | .xNeg => 0x1f
  | .yPos => 0x20
  | .yNeg => 0x1e
  | .sprint => 0x2a
  | .crouch => 0x1d
  | .gunMenu => 0x10
  | .num i => if i = 0 then pt0 else BitVec.ofNat 8 (i + 1)

/-- The flag of a control. -/
def KbdCtrlState.isOn (k : KbdCtrlState) : Control → Bool
  | .xPos => k.xPos
  | .xNeg => k.xNeg
  | .yPos => k.yPos
  | .yNeg => k.yNeg
  | .sprint => k.sprint
  | .crouch => k.crouch
  | .gunMenu => k.gunMenu
  | .num i => k.numsPress.getD i false

/-- The flag of a control is set to `make`. -/
def KbdCtrlState.set (ctl : Control) (make : Bool) (k : KbdCtrlState) : KbdCtrlState :=
  match ctl with
  | .xPos => { k with xPos := make }
  | .xNeg => { k with xNeg := make }
  | .yPos => { k with yPos := make }
  | .yNeg => { k with yNeg := make }
  | .sprint => { k with sprint := make }
  | .crouch => { k with crouch := make }
  | .gunMenu => { k with gunMenu := make }
  | .num i => { k with numsPress := k.numsPress.set i make }

/-- `nums_press[i] = make`; it is `none` behind the array. -/
def KbdCtrlState.setNum (i : ℕ) (make : Bool) (k : KbdCtrlState) : Option KbdCtrlState :=
  if h : i < 10 then some (k.set (.num ⟨i, h⟩) make) else none

/-- `kbd_parse_data`, as far as the flags go. -/
def KbdCtrlState.parse (bytes : List Byte) (make : Bool) (k : KbdCtrlState) :
    Option KbdCtrlState :=
  let key := parseBreakCode (bytes.getLastD 0)
  if Control.xPos.key = key then some (k.set .xPos make)
  else if Control.xNeg.key = key then some (k.set .xNeg make)
  else if Control.yPos.key = key then some (k.set .yPos make)
  else if Control.yNeg.key = key then some (k.set .yNeg make)
  else if Control.sprint.key = key then some (k.set .sprint make)
  else if Control.crouch.key = key then some (k.set .crouch make)
  else if Control.gunMenu.key = key then some (k.set .gunMenu make)
  else if key ≥ pt1 ∧ key ≤ pt0 then
    if key = pt0 then k.setNum 0 make else k.setNum (key.toNat - 1) make
  else some k

/-- The static variables of the keyboard, and the history of the scan codes. -/
structure Keyboard where
  validKbByte : Bool
  lastKbByte : Byte
  lastDoubleByte : Bool
  /-- The arguments of `kbd_parse_data` so far, oldest first, without the first of two bytes. -/
  codes : List Byte
  deriving DecidableEq, Repr

/-- The static variables before the first interrupt. -/
def Keyboard.init : Keyboard :=
  { validKbByte := false, lastKbByte := 0, lastDoubleByte := false, codes := [] }

/-- `kbc_ih`. -/
def kbcIh (irq : KbdIrq) (k : Keyboard) : Keyboard :=
  let k := { k with lastKbByte := 0, validKbByte := false }
  if irq.sb &&& kbcOutBufferFull ≠ 0 then
    match irq.data with
    | some byte =>
      if irq.sb &&& mouseMask = 0 then { k with lastKbByte := byte, validKbByte := true } else k
    | none => k
  else k

section Model

variable {K : Type*} [Field K] [LinearOrder K]

/-- `handle_kbd_evt`; it is `none` when it indexes `nums_press` outside. -/
def handleKbdEvt (irq : KbdIrq) (k : Keyboard) (g : Game K) : Option (Keyboard × Game K) :=
  let k := kbcIh irq k
  if k.validKbByte = false then some (k, g)
  else if k.lastKbByte = kbcDoubleByte then some ({ k with lastDoubleByte := true }, g)
  else
    let make : Bool := k.lastKbByte &&& kbcBreakCode = 0
    let bytes :=
      if k.lastDoubleByte then [kbcDoubleByte, k.lastKbByte] else [k.lastKbByte]
    (g.world.player.movm.kbdState.parse bytes make).map fun keys =>
      ({ k with lastDoubleByte := false, codes := k.codes ++ [k.lastKbByte] }, kbdParseData keys g)

end Model

/-! ### Keys that are down -/

/-- The last scan code of the key, if there is one, says that it was pressed. -/
def isDown (codes : List Byte) (key : Byte) : Bool :=
  match (codes.filter fun b => parseBreakCode b = key).getLast? with
  | some b => b &&& kbcBreakCode = 0
  | none => false

/-- No control is on whose key is up. -/
structure Down (codes : List Byte) (k : KbdCtrlState) : Prop where
  nums : k.numsPress.length = 10
  on : ∀ ctl, k.isOn ctl → isDown codes ctl.key

/-- The keys of `k`, some of them released. -/
structure KbdCtrlState.Below (k' k : KbdCtrlState) : Prop where
  nums : k'.numsPress.length = k.numsPress.length
  on : ∀ ctl, k'.isOn ctl → k.isOn ctl

theorem Down.below {codes : List Byte} {k k' : KbdCtrlState} (h : Down codes k)
    (hbelow : k'.Below k) : Down codes k' :=
  ⟨hbelow.nums.trans h.nums, fun ctl hon => h.on ctl (hbelow.on ctl hon)⟩

@[refl] theorem KbdCtrlState.Below.refl (k : KbdCtrlState) : k.Below k := ⟨rfl, fun _ h => h⟩

/-- A number key is released. -/
theorem KbdCtrlState.Below.release (k : KbdCtrlState) (i : ℕ) :
    KbdCtrlState.Below { k with numsPress := k.numsPress.set i false } k := by
  refine ⟨List.length_set, fun ctl hon => ?_⟩
  cases ctl with
  | num j =>
    simp only [isOn, List.getD_eq_getElem?_getD, List.getElem?_set] at hon ⊢
    split at hon
    · split at hon <;> cases hon
    · exact hon
  | _ => exact hon

theorem isDown_append (codes : List Byte) (b key : Byte) :
    isDown (codes ++ [b]) key =
      if parseBreakCode b = key then decide (b &&& kbcBreakCode = 0) else isDown codes key := by
  unfold isDown
  rw [List.filter_append]
  split_ifs with hkey
  · rw [List.filter_cons_of_pos (by simpa using hkey)]
    simp
  · rw [List.filter_cons_of_neg (by simpa using hkey)]
    simp

/-! ### One scan code -/

/-- No two controls share a key. -/
theorem Control.key_inj : ∀ a b : Control, a.key = b.key ↔ a = b := by decide

/-- The number keys lie in a row, and every key of the row is one. -/
theorem Control.num_key : (∀ i : Fin 10, (Control.num i).key ≥ pt1 ∧ (Control.num i).key ≤ pt0) ∧
    ∀ key : Byte, key ≥ pt1 ∧ key ≤ pt0 → ∃ i : Fin 10, (Control.num i).key = key ∧
      i.val = if key = pt0 then 0 else key.toNat - 1 := by
  decide

theorem KbdCtrlState.isOn_set {k : KbdCtrlState} (hlen : k.numsPress.length = 10)
    (ctl' ctl : Control) (make : Bool) :
    (k.set ctl' make).isOn ctl = if ctl = ctl' then make else k.isOn ctl := by
  cases ctl' with
  | num i =>
    cases ctl with
    | num j =>
      have hi : i.val < k.numsPress.length := by omega
      simp only [set, isOn, List.getD_eq_getElem?_getD, List.getElem?_set, Control.num.injEq,
        Fin.ext_iff, eq_comm (a := j.val), if_pos hi]
      split <;> rfl
    | _ => simp [set, isOn]
  | _ => cases ctl <;> simp [set, isOn]

theorem KbdCtrlState.length_set (ctl : Control) (make : Bool) (k : KbdCtrlState) :
    (k.set ctl make).numsPress.length = k.numsPress.length := by
  cases ctl <;> simp [set]

/-- **A scan code sets the control of its key**, if there is one. -/
theorem KbdCtrlState.parse_eq (bytes : List Byte) (make : Bool) (k : KbdCtrlState) :
    (∃ ctl : Control, ctl.key = parseBreakCode (bytes.getLastD 0) ∧
        k.parse bytes make = some (k.set ctl make)) ∨
      (∀ ctl : Control, ctl.key ≠ parseBreakCode (bytes.getLastD 0)) ∧
        k.parse bytes make = some k := by
  unfold KbdCtrlState.parse
  dsimp only
  generalize parseBreakCode (bytes.getLastD 0) = key
  split_ifs with hxp hxn hyp hyn hsprint hcrouch hmenu hnum hzero
  · exact Or.inl ⟨_, hxp, rfl⟩
  · exact Or.inl ⟨_, hxn, rfl⟩
  · exact Or.inl ⟨_, hyp, rfl⟩
  · exact Or.inl ⟨_, hyn, rfl⟩
  · exact Or.inl ⟨_, hsprint, rfl⟩
  · exact Or.inl ⟨_, hcrouch, rfl⟩
  · exact Or.inl ⟨_, hmenu, rfl⟩
  · obtain ⟨i, hi, hplace⟩ := Control.num_key.2 key hnum
    rw [if_pos hzero] at hplace
    refine Or.inl ⟨.num i, hi, ?_⟩
    rw [setNum, dif_pos (by decide), show (⟨0, by decide⟩ : Fin 10) = i from Fin.ext hplace.symm]
  · obtain ⟨i, hi, hplace⟩ := Control.num_key.2 key hnum
    rw [if_neg hzero] at hplace
    have hlt : key.toNat - 1 < 10 := hplace ▸ i.isLt
    refine Or.inl ⟨.num i, hi, ?_⟩
    rw [setNum, dif_pos hlt, show (⟨key.toNat - 1, hlt⟩ : Fin 10) = i from Fin.ext hplace.symm]
  · refine Or.inr ⟨fun ctl hctl => ?_, rfl⟩
    cases ctl with
    | num i => exact hnum (hctl ▸ Control.num_key.1 i)
    | _ => contradiction

/-! ### One interrupt -/

/-- The byte that an interrupt yields. -/
def KbdIrq.scanned (irq : KbdIrq) : Option Byte :=
  if irq.sb &&& kbcOutBufferFull ≠ 0 ∧ irq.sb &&& mouseMask = 0 then irq.data else none

/-- `kbc_ih` leaves what the interrupt yields in its two variables, and writes no other. -/
theorem kbcIh_eq (irq : KbdIrq) (k : Keyboard) :
    kbcIh irq k = { k with
      validKbByte := irq.scanned.isSome, lastKbByte := irq.scanned.getD 0 } := by
  unfold kbcIh KbdIrq.scanned
  dsimp only
  by_cases hfull : irq.sb &&& kbcOutBufferFull ≠ 0
  · rw [if_pos hfull]
    by_cases hmask : irq.sb &&& mouseMask = 0
    · rw [if_pos ⟨hfull, hmask⟩]
      cases irq.data <;> simp [hmask]
    · rw [if_neg fun h => hmask h.2]
      cases irq.data with
      | none => rfl
      | some byte => exact if_neg hmask
  · rw [if_neg hfull, if_neg fun h => hfull h.1]
    rfl

/-- What the scan code `b` makes of the controls. -/
def KbdCtrlState.Scans (b : Byte) (k k' : KbdCtrlState) : Prop :=
  (∃ ctl : Control, ctl.key = parseBreakCode b ∧ k' = k.set ctl (b &&& kbcBreakCode = 0)) ∨
    (∀ ctl : Control, ctl.key ≠ parseBreakCode b) ∧ k' = k

/-- **No control is on whose key is up**, after one more scan code. -/
theorem Down.scans {codes : List Byte} {b : Byte} {k k' : KbdCtrlState} (h : Down codes k)
    (hscans : k.Scans b k') : Down (codes ++ [b]) k' := by
  rcases hscans with ⟨ctl', hkey', rfl⟩ | ⟨hnone, rfl⟩
  · refine ⟨(KbdCtrlState.length_set _ _ k).trans h.nums, fun ctl hon => ?_⟩
    rw [KbdCtrlState.isOn_set h.nums] at hon
    rw [isDown_append, ← hkey']
    by_cases heq : ctl = ctl'
    · rw [if_pos heq] at hon
      rw [if_pos (by rw [heq])]
      exact hon
    · rw [if_neg heq] at hon
      rw [if_neg fun hkey => heq ((Control.key_inj ctl ctl').mp hkey.symm)]
      exact h.on ctl hon
  · refine ⟨h.nums, fun ctl hon => ?_⟩
    rw [isDown_append, if_neg fun hkey => hnone ctl hkey.symm]
    exact h.on ctl hon

section Model

variable {K : Type*} [Field K] [LinearOrder K]

/-- **One interrupt of the keyboard** stays inside of `nums_press`.  Either it gives no scan code
and the game does not see it, or the controls are what the scan code makes of them. -/
theorem handleKbdEvt_spec (irq : KbdIrq) (k : Keyboard) (g : Game K) :
    ∃ k' g', handleKbdEvt irq k g = some (k', g') ∧ k'.lastKbByte = irq.scanned.getD 0 ∧
      (k'.codes = k.codes ∧ g' = g ∨
        ∃ b keys, irq.scanned = some b ∧ k'.codes = k.codes ++ [b] ∧
          g.world.player.movm.kbdState.Scans b keys ∧ g' = kbdParseData keys g) := by
  unfold handleKbdEvt
  rw [kbcIh_eq]
  dsimp only
  cases hscan : irq.scanned with
  | none => exact ⟨_, _, rfl, rfl, Or.inl ⟨rfl, rfl⟩⟩
  | some b =>
    rw [if_neg (by simp), Option.getD_some]
    split
    · exact ⟨_, _, rfl, rfl, Or.inl ⟨rfl, rfl⟩⟩
    · -- the first of two bytes does not matter
      have hlast : (if k.lastDoubleByte then [kbcDoubleByte, b] else [b]).getLastD 0 = b := by
        split <;> rfl
      rcases KbdCtrlState.parse_eq (if k.lastDoubleByte then [kbcDoubleByte, b] else [b])
        (b &&& kbcBreakCode = 0) g.world.player.movm.kbdState with
        ⟨ctl, hkey, hparse⟩ | ⟨hno, hparse⟩
      · rw [hlast] at hkey
        rw [hparse]
        exact ⟨_, _, rfl, rfl, Or.inr ⟨b, _, rfl, rfl, Or.inl ⟨ctl, hkey, rfl⟩, rfl⟩⟩
      · rw [hlast] at hno
        rw [hparse]
        exact ⟨_, _, rfl, rfl, Or.inr ⟨b, _, rfl, rfl, Or.inr ⟨hno, rfl⟩, rfl⟩⟩

end Model

end OperationMinix
