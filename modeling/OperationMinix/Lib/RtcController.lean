import Mathlib.Algebra.Group.Nat.Defs
import Mathlib.Logic.Function.Basic
import OperationMinix.Lib.Uart

/-!
# Reading the date

`rtc_set_date` reads the date from the clock chip.  While it does, register A holds the value
that was found in it when the program started, so that the periodic interrupt is off.  When the
chip is about to change the date, the function gives up; by then it has cleared the date that it
was given, and the handler of the update interrupt does not look at its result.

## Main definitions

* `RtcChip` — the registers of the chip, and the one that is selected.
* `rtcSetDate`, `updateHandler` — the function, and the part of `rtc_ih` that calls it.
* `AllOrNothing` — what is to be expected of an update.

## Main results

* `rtcSetDate_spec` — what is read, and what is left in the date and in the registers.
* `bcdToDecimal_toNat` — the value of two digits, and that they fit two places.
* `allOrNothing_iff` — **the update is all or nothing exactly when** the chip is not busy, or there
  was no date to lose.
-/

namespace OperationMinix

/-- The clock chip, its registers by address. -/
structure RtcChip where
  regs : Byte → Byte
  /-- The register that `RTC_ADDR_REG` selects. -/
  addr : Byte

/-- `date_t`. -/
structure Date where
  year : Byte
  month : Byte
  day : Byte
  hour : Byte
  min : Byte
  sec : Byte
  deriving DecidableEq, Repr

/-- The date that is not set. -/
def Date.zero : Date := { year := 0, month := 0, day := 0, hour := 0, min := 0, sec := 0 }

/-- `memset(date, 0, sizeof(date_t))`. -/
def Date.clear (_ : Date) : Date := .zero

/-- `RTC_SECONDS`. -/
def rtcSeconds : Byte := 0

/-- `RTC_MINUTES`. -/
def rtcMinutes : Byte := 2

/-- `RTC_HOURS`. -/
def rtcHours : Byte := 4

/-- `RTC_MONTH_DAY`. -/
def rtcMonthDay : Byte := 7

/-- `RTC_MONTH`. -/
def rtcMonth : Byte := 8

/-- `RTC_YEAR`. -/
def rtcYear : Byte := 9

/-- `RTC_REGISTER_A`. -/
def rtcRegisterA : Byte := 10

/-- `RTC_UIP`. -/
def rtcUip : Byte := 0x80

/-- `RTC_UF`. -/
def rtcUf : Byte := 0x10

/-- `rtc_set_reg`. -/
def rtcSetReg (reg : Byte) (c : RtcChip) : RtcChip := { c with addr := reg }

/-- `rtc_read_reg`. -/
def rtcReadReg (reg : Byte) (c : RtcChip) : Byte × RtcChip :=
  let c := rtcSetReg reg c
  (c.regs c.addr, c)

/-- `rtc_write_reg`. -/
def rtcWriteReg (reg byte : Byte) (c : RtcChip) : RtcChip :=
  let c := rtcSetReg reg c
  { c with regs := Function.update c.regs c.addr byte }

/-- `bcd_to_decimal`. -/
def bcdToDecimal (val : Byte) : Byte := (val &&& 0xf) + 10 * ((val >>> 4) &&& 0xf)

/-- `reset_rtc`; `configA` is what `init_rtc_vars` has found in register A. -/
def resetRtc (configA : Byte) (c : RtcChip) : RtcChip := rtcWriteReg rtcRegisterA configA c

/-- `rtc_set_date`: the result, the date and the chip. -/
def rtcSetDate (configA : Byte) (date : Date) (c : RtcChip) : ℕ × Date × RtcChip :=
  let date := date.clear
  let (config, c) := rtcReadReg rtcRegisterA c
  -- the chip is about to change the date
  if config &&& rtcUip ≠ 0 then (1, date, c)
  else
    let c := resetRtc configA c
    let (sec, c) := rtcReadReg rtcSeconds c
    let (min, c) := rtcReadReg rtcMinutes c
    let (hour, c) := rtcReadReg rtcHours c
    let (day, c) := rtcReadReg rtcMonthDay c
    let (month, c) := rtcReadReg rtcMonth c
    let (year, c) := rtcReadReg rtcYear c
    let c := rtcWriteReg rtcRegisterA config c
    let date : Date :=
      { sec := bcdToDecimal sec, min := bcdToDecimal min, hour := bcdToDecimal hour
        day := bcdToDecimal day, month := bcdToDecimal month, year := bcdToDecimal year }
    (0, date, c)

/-- The part of `rtc_ih` that keeps the date of the main menu; the result is not looked at. -/
def updateHandler (configA cause : Byte) (currDate : Date) (c : RtcChip) : Date × RtcChip :=
  if cause &&& rtcUf ≠ 0 then (rtcSetDate configA currDate c).2 else (currDate, c)

/-! ### Two digits in a byte -/

/-- The value of the two digits in a byte. -/
def bcdValue (val : Byte) : ℕ := 10 * (val.toNat / 16) + val.toNat % 16

/-- **`bcd_to_decimal` gives the value of the two digits**, also when they are greater than
nine. -/
theorem bcdToDecimal_toNat (val : Byte) : (bcdToDecimal val).toNat = bcdValue val := by
  revert val
  decide

/-! ### The registers and the date -/

/-- The date in the registers. -/
def RtcChip.date (c : RtcChip) : Date :=
  { sec := bcdToDecimal (c.regs rtcSeconds), min := bcdToDecimal (c.regs rtcMinutes)
    hour := bcdToDecimal (c.regs rtcHours), day := bcdToDecimal (c.regs rtcMonthDay)
    month := bcdToDecimal (c.regs rtcMonth), year := bcdToDecimal (c.regs rtcYear) }

/-- A write to register A leaves the registers of the date alone. -/
theorem date_rtcWriteReg (byte : Byte) (c : RtcChip) :
    (rtcWriteReg rtcRegisterA byte c).date = c.date := by
  have hother : ∀ reg : Byte, reg ≠ rtcRegisterA →
      (rtcWriteReg rtcRegisterA byte c).regs reg = c.regs reg :=
    fun reg hreg => Function.update_of_ne hreg _ _
  simp only [RtcChip.date, hother _ (by decide : rtcSeconds ≠ rtcRegisterA),
    hother _ (by decide : rtcMinutes ≠ rtcRegisterA),
    hother _ (by decide : rtcHours ≠ rtcRegisterA),
    hother _ (by decide : rtcMonthDay ≠ rtcRegisterA),
    hother _ (by decide : rtcMonth ≠ rtcRegisterA), hother _ (by decide : rtcYear ≠ rtcRegisterA)]

/-- While the chip is busy, the date is cleared. -/
theorem rtcSetDate_of_busy (configA : Byte) (date : Date) {c : RtcChip}
    (h : c.regs rtcRegisterA &&& rtcUip ≠ 0) :
    rtcSetDate configA date c = (1, .zero, rtcSetReg rtcRegisterA c) :=
  if_pos h

/-- Otherwise the date is read, and register A is as it was. -/
theorem rtcSetDate_of_ready (configA : Byte) (date : Date) {c : RtcChip}
    (h : c.regs rtcRegisterA &&& rtcUip = 0) :
    rtcSetDate configA date c = (0, c.date, rtcSetReg rtcRegisterA c) := by
  have hread : rtcSetDate configA date c =
      (0, (resetRtc configA c).date,
        rtcWriteReg rtcRegisterA (c.regs rtcRegisterA) (resetRtc configA c)) :=
    if_neg (not_not.mpr h)
  have hback : rtcWriteReg rtcRegisterA (c.regs rtcRegisterA) (resetRtc configA c) =
      rtcSetReg rtcRegisterA c := by
    simp only [rtcWriteReg, resetRtc, rtcSetReg, Function.update_idem, Function.update_eq_self]
  rw [hread, hback, resetRtc, date_rtcWriteReg]

/-- **No call of `rtc_set_date` changes a register.** -/
theorem rtcSetDate_regs (configA : Byte) (date : Date) (c : RtcChip) :
    (rtcSetDate configA date c).2.2.regs = c.regs := by
  by_cases h : c.regs rtcRegisterA &&& rtcUip = 0
  · rw [rtcSetDate_of_ready configA date h]
    rfl
  · rw [rtcSetDate_of_busy configA date h]
    rfl

/-- An update that comes while the chip is busy clears the date of the main menu. -/
theorem updateHandler_of_busy (configA : Byte) {cause : Byte} (date : Date) {c : RtcChip}
    (huf : cause &&& rtcUf ≠ 0) (h : c.regs rtcRegisterA &&& rtcUip ≠ 0) :
    (updateHandler configA cause date c).1 = .zero := by
  rw [updateHandler, if_pos huf, rtcSetDate_of_busy configA date h]

/-! ### What is to be expected -/

/-- The date shows the values of the six registers. -/
def Date.Shows (d : Date) (regs : Byte → Byte) : Prop :=
  d.sec.toNat = bcdValue (regs rtcSeconds) ∧ d.min.toNat = bcdValue (regs rtcMinutes) ∧
    d.hour.toNat = bcdValue (regs rtcHours) ∧ d.day.toNat = bcdValue (regs rtcMonthDay) ∧
    d.month.toNat = bcdValue (regs rtcMonth) ∧ d.year.toNat = bcdValue (regs rtcYear)

theorem shows_date (c : RtcChip) : c.date.Shows c.regs :=
  ⟨bcdToDecimal_toNat _, bcdToDecimal_toNat _, bcdToDecimal_toNat _, bcdToDecimal_toNat _,
    bcdToDecimal_toNat _, bcdToDecimal_toNat _⟩

/-- The call has read the whole date, and register A is as it was; or it has failed, and nothing
has changed. -/
def AllOrNothing (configA : Byte) (date : Date) (c : RtcChip) : Prop :=
  let r := rtcSetDate configA date c
  (r.1 = 0 ∧ r.2.1.Shows c.regs ∧ r.2.2.regs rtcRegisterA = c.regs rtcRegisterA) ∨
    (r.1 ≠ 0 ∧ r.2.1 = date ∧ r.2.2.regs = c.regs)

/-- **An update is all or nothing exactly when** the chip is not about to change the date, or the
date was not set. -/
theorem allOrNothing_iff (configA : Byte) (date : Date) (c : RtcChip) :
    AllOrNothing configA date c ↔ c.regs rtcRegisterA &&& rtcUip = 0 ∨ date = .zero := by
  have hregs := rtcSetDate_regs configA date c
  unfold AllOrNothing
  dsimp only
  rw [hregs]
  by_cases h : c.regs rtcRegisterA &&& rtcUip = 0
  · rw [rtcSetDate_of_ready configA date h]
    exact iff_of_true (Or.inl ⟨rfl, shows_date c, rfl⟩) (Or.inl h)
  · rw [rtcSetDate_of_busy configA date h]
    constructor
    · rintro (⟨hok, -⟩ | ⟨-, hdate, -⟩)
      · cases hok
      · exact Or.inr hdate.symm
    · rintro (hready | hzero)
      · exact absurd hready h
      · exact Or.inr ⟨Nat.one_ne_zero, hzero.symm, rfl⟩

/-- A chip that is about to change the date. -/
def busyChip : RtcChip := { regs := fun reg => if reg = rtcRegisterA then 0xa6 else 0, addr := 0 }

/-- The second of January 2021, half past ten. -/
def halfPastTen : Date := { year := 21, month := 1, day := 2, hour := 10, min := 30, sec := 0 }

/-- The date is lost. -/
theorem halfPastTen_not_allOrNothing : ¬ AllOrNothing 0x26 halfPastTen busyChip := by
  unfold AllOrNothing
  rw [rtcSetDate_of_busy 0x26 halfPastTen (by decide)]
  rintro (⟨hok, -⟩ | ⟨-, hdate, -⟩)
  · cases hok
  · exact absurd hdate (by decide)

end OperationMinix
