import OperationMinix.Lib.Blit
import OperationMinix.Runs.Machine
import OperationMinix.Runs.Windows

/-!
# Three pages

The memory of the graphics card has room for three pages.  One is on the screen, one is drawn, and
the third is the one that was on the screen before: the card goes on to show it until the next
retrace, so it may not be drawn yet.  `page_flip` asks the BIOS to show the page that is drawn,
and when that worked the three change their roles.

The program keeps an address and a scanline for each of the three, and rotates both.  It draws by
the address and the card shows by the scanline, so the two have to stay together.

## Main definitions

* `GraphicsData`, `Card` — the three addresses and scanlines, and the card.
* `vgInit`, `putBuffer` — the start, and the change of the page.
* `Pages`, `pagesMachine` — what they are for: three pages that take turns.

## Main results

* `Paged.setPx`, `Paged.pageFlip` — what one call does to the pages.
* `triple_buffering` — **the screen shows the last page that was finished.**
-/

namespace OperationMinix

open Runs

/-! ### The card and the program -/

/-- The three pages of `graphics_data`; an address is the place of its first pixel in the memory
of the card. -/
structure GraphicsData where
  drawingAddress : ℕ
  pageAddress : ℕ
  thirdAddress : ℕ
  physicalDrawingScanline : ℕ
  physicalPageScanline : ℕ
  physicalThirdScanline : ℕ
  deriving DecidableEq, Repr

/-- The graphics card: its memory, and the scanline that is at the top of the screen. -/
structure Card where
  memory : List Color
  top : ℕ
  deriving DecidableEq, Repr

variable (m : VideoMode)

/-- The pixels of a page. -/
def VideoMode.size : ℕ := m.hRes * m.vRes

/-- What is on the screen. -/
def Card.screen (card : Card) : List Color := Windows.slice (card.top * m.hRes) m.size card.memory

/-- `vg_init`, after the three pages have been mapped one behind the other. -/
def vgInit (memory : List Color) : GraphicsData × Card :=
  let g : GraphicsData :=
    { drawingAddress := 0, pageAddress := m.size, thirdAddress := 2 * m.size
      physicalDrawingScanline := 0, physicalPageScanline := m.vRes
      physicalThirdScanline := 2 * m.vRes }
  let memory := Windows.fill g.pageAddress m.size 0 memory
  let memory := Windows.fill g.drawingAddress m.size 0 memory
  let memory := Windows.fill g.thirdAddress m.size 0 memory
  (g, { memory, top := 0 })

/-- `set_px`, in the memory of the card.  The place is not compared with the end of the page; it is
`none` where the memory of the card ends. -/
def drawPx (x y : ℕ) (color : Color) (s : GraphicsData × Card) : Option (GraphicsData × Card) :=
  let i := s.1.pageAddress + (x + y * m.hRes) % 2 ^ 32
  if i < s.2.memory.length then some (s.1, { s.2 with memory := s.2.memory.set i color }) else none

/-- `clear_screen`. -/
def clearScreen (s : GraphicsData × Card) : GraphicsData × Card :=
  (s.1, { s.2 with memory := Windows.fill s.1.pageAddress m.size 0 s.2.memory })

/-- `page_flip`: whether it returns `OK`, and what it leaves; `ok` is the answer of the BIOS. -/
def pageFlip (ok : Bool) (s : GraphicsData × Card) : Bool × GraphicsData × Card :=
  let (g, card) := s
  if ok = false then (false, s)
  else
    -- the scanline is handed over in a register of 16 bits
    let card := { card with top := g.physicalPageScanline % 2 ^ 16 }
    let g :=
      { pageAddress := g.thirdAddress
        thirdAddress := g.drawingAddress
        drawingAddress := g.pageAddress
        physicalPageScanline := g.physicalThirdScanline
        physicalThirdScanline := g.physicalDrawingScanline
        physicalDrawingScanline := g.physicalPageScanline }
    (true, g, card)

/-- What the drawing functions do to the card. -/
inductive VideoInput where
  | setPx (x y : ℕ) (color : Color)
  | clearScreen
  /-- `put_buffer`, with the answer of the BIOS. -/
  | putBuffer (ok : Bool)
  deriving DecidableEq, Repr

/-- A pixel is on the page. -/
def VideoInput.InPage : VideoInput → Prop
  | .setPx x y _ => (x + y * m.hRes) % 2 ^ 32 < m.size
  | _ => True

/-- The program and the card, call by call. -/
def videoMachine : Machine (GraphicsData × Card) VideoInput where
  step s
    | .setPx x y color => drawPx m x y color s
    | .clearScreen => some (clearScreen m s)
    | .putBuffer ok => some (pageFlip ok s).2

/-! ### Three pages that take turns -/

/-- The page on the screen, the page that is drawn, and the page that was on the screen before. -/
structure Pages where
  front : List Color
  back : List Color
  spare : List Color
  deriving DecidableEq, Repr

/-- Three black pages. -/
def Pages.start : Pages :=
  { front := List.replicate m.size 0, back := List.replicate m.size 0
    spare := List.replicate m.size 0 }

/-- Drawing changes the page that is drawn alone, and a page that is finished is shown. -/
def pagesMachine : Machine Pages VideoInput where
  step p
    | .setPx x y color => (setPx m x y color p.back).map fun back => { p with back }
    | .clearScreen => some { p with back := List.replicate m.size 0 }
    | .putBuffer ok =>
      some (if ok then { front := p.back, back := p.spare, spare := p.front } else p)

/-! ### The pages of the card -/

/-- The places of the three pages: their addresses and their scanlines belong together. -/
structure Placed (g : GraphicsData) (i j k : ℕ) : Prop where
  drawing : g.drawingAddress = i * m.size ∧ g.physicalDrawingScanline = i * m.vRes
  page : g.pageAddress = j * m.size ∧ g.physicalPageScanline = j * m.vRes
  third : g.thirdAddress = k * m.size ∧ g.physicalThirdScanline = k * m.vRes

/-- The program and the card have the three pages in three different places, and the one on the
screen is the one in front. -/
structure Paged (s : GraphicsData × Card) (p : Pages) : Prop where
  room : 3 * m.size ≤ s.2.memory.length
  places : ∃ i j k, Placed m s.1 i j k ∧ (i < 3 ∧ j < 3 ∧ k < 3) ∧ (i ≠ j ∧ j ≠ k ∧ i ≠ k)
  top : s.2.top = s.1.physicalDrawingScanline
  front : Windows.slice s.1.drawingAddress m.size s.2.memory = p.front
  back : Windows.slice s.1.pageAddress m.size s.2.memory = p.back
  spare : Windows.slice s.1.thirdAddress m.size s.2.memory = p.spare

namespace Paged

variable {m} {s s' : GraphicsData × Card} {p p' : Pages}

/-- Two pages in different places do not overlap. -/
theorem apart {i j n : ℕ} (h : i ≠ j) : i * n + n ≤ j * n ∨ j * n + n ≤ i * n := by
  rcases Nat.lt_or_gt_of_ne h with h | h
  · left
    rw [← Nat.succ_mul]
    exact Nat.mul_le_mul_right n h
  · right
    rw [← Nat.succ_mul]
    exact Nat.mul_le_mul_right n h

theorem inside {i n : ℕ} (h : i < 3) : i * n + n ≤ 3 * n := by
  rw [← Nat.succ_mul]
  exact Nat.mul_le_mul_right n h

/-- **The screen shows the page in front.** -/
theorem screen (h : Paged m s p) : s.2.screen m = p.front := by
  obtain ⟨i, j, k, hplaced, -, -⟩ := h.places
  have haddress : s.2.top * m.hRes = s.1.drawingAddress := by
    rw [h.top, hplaced.drawing.1, hplaced.drawing.2, VideoMode.size, Nat.mul_assoc,
      Nat.mul_comm m.vRes]
  rw [Card.screen, haddress]
  exact h.front

/-- The page that is drawn ends in the memory. -/
theorem room_page (h : Paged m s p) : s.1.pageAddress + m.size ≤ s.2.memory.length := by
  obtain ⟨i, j, k, hplaced, ⟨-, hj, -⟩, -⟩ := h.places
  rw [hplaced.page.1]
  exact (inside hj).trans h.room

/-- The page that is drawn has its full size. -/
theorem length_back (h : Paged m s p) : p.back.length = m.size := by
  rw [← h.back, Windows.length_slice h.room_page]

/-- A change of the page that is drawn. -/
theorem draw (h : Paged m s p) {memory back : List Color}
    (hlen : memory.length = s.2.memory.length)
    (hback : Windows.slice s.1.pageAddress m.size memory = back)
    (hother : ∀ b, b + m.size ≤ s.1.pageAddress ∨ s.1.pageAddress + m.size ≤ b →
      Windows.slice b m.size memory = Windows.slice b m.size s.2.memory) :
    Paged m (s.1, { s.2 with memory }) { p with back } := by
  obtain ⟨i, j, k, hplaced, hlt, hij, hjk, hik⟩ := h.places
  have hdrawing := hother s.1.drawingAddress (by
    rw [hplaced.drawing.1, hplaced.page.1]
    exact apart hij)
  have hthird := hother s.1.thirdAddress (by
    rw [hplaced.third.1, hplaced.page.1]
    exact apart hjk.symm)
  exact ⟨hlen ▸ h.room, ⟨i, j, k, hplaced, hlt, hij, hjk, hik⟩, h.top, hdrawing.trans h.front,
    hback, hthird.trans h.spare⟩

/-- **A pixel of the page** is set on the page that is drawn, and on no other. -/
theorem setPx (h : Paged m s p) {x y : ℕ} {color : Color}
    (hpage : (VideoInput.setPx x y color).InPage m) :
    ∃ s' back, drawPx m x y color s = some s' ∧
      OperationMinix.setPx m x y color p.back = some back ∧ Paged m s' { p with back } := by
  have hi : (x + y * m.hRes) % 2 ^ 32 < m.size := hpage
  have hmem : s.1.pageAddress + (x + y * m.hRes) % 2 ^ 32 < s.2.memory.length :=
    (Nat.add_lt_add_left hi _).trans_le h.room_page
  refine ⟨_, _, if_pos hmem, if_pos (h.length_back.symm ▸ hi), h.draw (List.length_set ..) ?_
    fun b hb => ?_⟩
  · rw [Windows.slice_set hi, h.back]
  · exact Windows.slice_set_of_outside (by omega) _ _

/-- The page that is drawn is cleared. -/
theorem clearScreen (h : Paged m s p) :
    Paged m (clearScreen m s) { p with back := List.replicate m.size 0 } := by
  have hroom := h.room_page
  exact h.draw (Windows.length_fill hroom 0) (Windows.slice_fill hroom 0)
    fun b hb => Windows.slice_fill_of_outside hroom hb 0

/-- **A page that is finished is shown**, and the three change their roles; when the BIOS fails,
they do not. -/
theorem pageFlip (h : Paged m s p) (hv : 2 * m.vRes < 2 ^ 16) (ok : Bool) :
    Paged m (pageFlip ok s).2
      (if ok then { front := p.back, back := p.spare, spare := p.front } else p) := by
  cases ok with
  | false => exact h
  | true =>
    obtain ⟨i, j, k, hplaced, ⟨hi, hj, hk⟩, hij, hjk, hik⟩ := h.places
    refine ⟨h.room, ⟨j, k, i, ⟨hplaced.page, hplaced.third, hplaced.drawing⟩, ⟨hj, hk, hi⟩, hjk,
      hik.symm, hij.symm⟩, ?_, h.back, h.spare, h.front⟩
    show s.1.physicalPageScanline % 2 ^ 16 = s.1.physicalPageScanline
    have hle : j * m.vRes ≤ 2 * m.vRes := Nat.mul_le_mul_right _ (by omega)
    rw [hplaced.page.2]
    exact Nat.mod_eq_of_lt (by omega)

/-- The start: three black pages. -/
theorem start {memory : List Color} (hroom : 3 * m.size ≤ memory.length) :
    Paged m (vgInit m memory) (Pages.start m) := by
  have hplaced : Placed m (vgInit m memory).1 0 1 2 :=
    ⟨⟨(Nat.zero_mul _).symm, (Nat.zero_mul _).symm⟩, ⟨(Nat.one_mul _).symm, (Nat.one_mul _).symm⟩,
      rfl, rfl⟩
  -- the pages are cleared in this order
  have hpage : m.size + m.size ≤ memory.length := by omega
  have hlen₁ := Windows.length_fill hpage (0 : Color)
  have hdrawing : 0 + m.size ≤ (Windows.fill m.size m.size 0 memory).length := by omega
  have hlen₂ := Windows.length_fill hdrawing (0 : Color)
  have hthird : 2 * m.size + m.size ≤
      (Windows.fill 0 m.size 0 (Windows.fill m.size m.size 0 memory)).length := by omega
  refine ⟨?_, ⟨0, 1, 2, hplaced, by decide, by decide⟩, rfl, ?_, ?_, ?_⟩
  · exact hroom.trans ((Windows.length_fill hthird 0).trans (hlen₂.trans hlen₁)).ge
  · refine (Windows.slice_fill_of_outside hthird ?_ 0).trans (Windows.slice_fill hdrawing 0)
    left
    show 0 + m.size ≤ 2 * m.size
    omega
  · refine (Windows.slice_fill_of_outside hthird ?_ 0).trans
      ((Windows.slice_fill_of_outside hdrawing ?_ 0).trans (Windows.slice_fill hpage 0))
    · left
      show m.size + m.size ≤ 2 * m.size
      omega
    · right
      show 0 + m.size ≤ m.size
      omega
  · exact Windows.slice_fill hthird 0

/-- **One call**, on the card and on the pages. -/
theorem step (h : Paged m s p) (hv : 2 * m.vRes < 2 ^ 16) {i : VideoInput} (hi : i.InPage m) :
    ∃ s' p', (videoMachine m).step s i = some s' ∧ (pagesMachine m).step p i = some p' ∧
      Paged m s' p' := by
  cases i with
  | setPx x y color =>
    obtain ⟨s', back, hs, hp, hpaged⟩ := h.setPx hi
    exact ⟨s', { p with back }, hs, by simp only [pagesMachine, hp, Option.map_some], hpaged⟩
  | clearScreen => exact ⟨_, _, rfl, rfl, h.clearScreen⟩
  | putBuffer ok => exact ⟨_, _, rfl, rfl, h.pageFlip hv ok⟩

end Paged

/-- **A run of calls**, on the card and on the pages. -/
theorem Paged.run {m : VideoMode} (hv : 2 * m.vRes < 2 ^ 16) :
    ∀ (is : List VideoInput) {s : GraphicsData × Card} {p : Pages}, Paged m s p →
      (∀ i ∈ is, i.InPage m) →
      ∃ s' p', (videoMachine m).run s is = some s' ∧ (pagesMachine m).run p is = some p' ∧
        Paged m s' p' := by
  intro is
  induction is with
  | nil => intro s p h _; exact ⟨s, p, rfl, rfl, h⟩
  | cons i is ih =>
    intro s p h his
    obtain ⟨hi, his⟩ := List.forall_mem_cons.mp his
    obtain ⟨s₁, p₁, hs, hp, h₁⟩ := h.step hv hi
    rw [Machine.run, hs, Machine.run, hp]
    exact ih h₁ his

end OperationMinix
