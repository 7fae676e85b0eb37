import OperationMinix.Game.Everyone
import OperationMinix.Graphics.Numbers

/-!
# The bar at the bottom

`render_hud` shows health, ammunition, packets and armour of the local player in a fixed number
of places each, and a picture of the gun in hand.  Nothing checks that the numbers fit: that
they do is owed to what the levels hand out, and to what shots and pickups keep.

`render_number` leaves out the zeros in front.  A number that fits is shown by its decimal
numeral, and nothing else.

## Main definitions

* `renderHud` — `render_hud`.
* `numeral`, `drawHud` — what a player is to read there.
* `Stocked` — what the local player has to shoot with.

## Main results

* `renderNumber_eq` — **a number that fits is shown by its numeral.**
* `stocked_rule` — what shots, pickups and the choice of a gun keep.
* `hud_reads` — **the bar shows what the local player has, in every run.**
-/

namespace OperationMinix

open Runs

set_option linter.unusedSectionVars false

/-! ### Numerals -/

/-- The decimal digits of a number, one at least. -/
def numeral (n : ℕ) : List ℤ :=
  ((Nat.digits 10 (n / 10)).reverse ++ [n % 10]).map fun d : ℕ => (d : ℤ)

/-- A digit drawn at a position, which moves on behind it. -/
def drawDigit (m : VideoMode) (number : List Sprite) (r : Pair × List Color) (val : ℤ) :
    Option (Pair × List Color) :=
  (glyph number val).bind fun ptr => drawGlyph m ptr r

/-- A number drawn at a position, which moves on behind it. -/
def drawNumeral (m : VideoMode) (number : List Sprite) (n : ℕ) (r : Pair × List Color) :
    Option (Pair × List Color) :=
  (numeral n).foldlM (drawDigit m number) r

/-- Without the zeros in front, the digits of a number that fits are those that it has. -/
theorem dropZeros_digits : ∀ (k num : ℕ), num < 10 ^ k →
    ((List.range k).map fun i => num / 10 ^ (k - 1 - i) % 10).dropWhile (· = 0) =
      (Nat.digits 10 num).reverse := by
  intro k
  induction k with
  | zero =>
    intro num h
    obtain rfl : num = 0 := Nat.lt_one_iff.mp h
    rfl
  | succ k ih =>
    intro num h
    have hdiv : num / 10 < 10 ^ k := Nat.div_lt_of_lt_mul (by rwa [← pow_succ'])
    -- the digits in front are those of the tenth
    have hfront : ((List.range k).map fun i => num / 10 ^ (k + 1 - 1 - i) % 10) =
        (List.range k).map fun i => num / 10 / 10 ^ (k - 1 - i) % 10 := by
      refine List.map_congr_left fun i hi => ?_
      have hlt := List.mem_range.mp hi
      rw [Nat.div_div_eq_div_mul, ← pow_succ', show k - 1 - i + 1 = k + 1 - 1 - i by omega]
    have hlast : num / 10 ^ (k + 1 - 1 - k) % 10 = num % 10 := by
      rw [Nat.add_sub_cancel, Nat.sub_self, pow_zero, Nat.div_one]
    rw [List.range_succ, List.map_append, hfront, List.map_singleton, hlast,
      List.dropWhile_append, ih _ hdiv]
    rcases Nat.eq_zero_or_pos (num / 10) with hzero | hpos
    · rw [hzero, Nat.digits_zero, List.reverse_nil, List.isEmpty_nil, if_pos rfl]
      have hsmall : num < 10 := by omega
      rw [Nat.mod_eq_of_lt hsmall]
      rcases Nat.eq_zero_or_pos num with rfl | hnum
      · rfl
      · rw [Nat.digits_of_lt 10 num hnum.ne' hsmall,
          List.dropWhile_cons_of_neg (by simpa using hnum.ne')]
        rfl
    · have hne : (Nat.digits 10 (num / 10)).reverse ≠ [] := by
        rw [Ne, List.reverse_eq_nil_iff, Nat.digits_eq_nil_iff_eq_zero]
        exact hpos.ne'
      rw [if_neg (by rwa [List.isEmpty_iff]), Nat.digits_def' (by decide) (by omega : 0 < num),
        List.reverse_cons]

section

variable (m : VideoMode) {number : List Sprite}

/-- One digit of `render_number`. -/
theorem renderNumberLoop_cons (number : List Sprite) (val : ℤ) (nums : List ℤ) (gotNum : Bool)
    (r : Pair × List Color) :
    renderNumberLoop m number (val :: nums) gotNum r =
      (glyph number val).bind fun ptr =>
        if gotNum = true ∨ val ≠ 0 ∨ nums = [] then
          (drawGlyph m ptr r).bind (renderNumberLoop m number nums (gotNum || val ≠ 0))
        else renderNumberLoop m number nums false r := by
  rw [renderNumberLoop]
  cases glyph number val with
  | none => rfl
  | some ptr =>
    show (if _ then _ else _) = ite _ _ _
    by_cases hgot : gotNum = true ∨ val ≠ 0 ∨ nums = []
    · rw [if_pos hgot, if_pos (by simpa [or_assoc] using hgot)]
      rfl
    · rw [if_neg hgot, if_neg (by simpa [or_assoc] using hgot)]
      have hoff : (gotNum || decide (val ≠ 0)) = false := by
        simp only [not_or] at hgot
        simp [hgot.1, hgot.2.1]
      rw [hoff]

/-- The loop of `render_number` draws the digits that are left when the zeros in front are
dropped, and the last one. -/
theorem renderNumberLoop_eq (h : Glyphs number) (last : ℤ) : ∀ (nums : List ℤ) (gotNum : Bool)
    (r : Pair × List Color), (∀ v ∈ nums, 0 ≤ v ∧ v ≤ 9) →
    renderNumberLoop m number (nums ++ [last]) gotNum r =
      ((if gotNum then nums else nums.dropWhile (· = 0)) ++ [last]).foldlM
        (drawDigit m number) r := by
  intro nums
  induction nums with
  | nil =>
    intro gotNum r _
    have hnil : (if gotNum then ([] : List ℤ) else [].dropWhile (· = 0)) = [] := ite_self _
    have hdone : ∀ b : Bool, renderNumberLoop m number [] b = some := fun b => rfl
    rw [hnil, List.nil_append, renderNumberLoop_cons, List.foldlM_cons, drawDigit]
    simp only [or_true, if_true, hdone, List.foldlM_nil, Option.pure_def, Option.bind_eq_bind,
      Option.bind_fun_some]
  | cons val nums ih =>
    intro gotNum r hnums
    obtain ⟨hval, hrest⟩ := List.forall_mem_cons.mp hnums
    obtain ⟨ptr, hptr, -⟩ := h.exists_glyph hval.1 hval.2
    rw [List.cons_append, renderNumberLoop_cons, hptr, Option.bind_some]
    by_cases hgot : gotNum = true ∨ val ≠ 0
    · have hdigits : (if gotNum then val :: nums else (val :: nums).dropWhile (· = 0)) =
          val :: nums := by
        rcases hgot with rfl | hne
        · rfl
        · rw [List.dropWhile_cons_of_neg (by simpa using hne), ite_self]
      have hon : (gotNum || decide (val ≠ 0)) = true := by simpa using hgot
      rw [hdigits, hon, if_pos (hgot.imp_right Or.inl), List.cons_append, List.foldlM_cons,
        drawDigit, hptr, Option.bind_some, Option.bind_eq_bind]
      congr 1
      funext r'
      exact (ih true r' hrest).trans (by rw [if_pos rfl])
    · -- a zero in front
      obtain ⟨rfl, rfl⟩ : gotNum = false ∧ val = 0 := by simpa using hgot
      rw [if_neg (by simp), ih false r hrest, if_neg (by decide), if_neg (by decide),
        List.dropWhile_cons_of_pos (by simp)]

/-- **A number that fits is shown by its numeral.** -/
theorem renderNumber_eq (h : Glyphs number) {num places : ℕ} (hfits : num < 10 ^ (places + 1))
    (r : Pair × List Color) :
    renderNumber m number num (places + 1) r = drawNumeral m number num r := by
  have hdiv : num / 10 < 10 ^ places := Nat.div_lt_of_lt_mul (by rwa [← pow_succ'])
  have hdigits : digitIndices num (places + 1) =
      ((List.range places).map fun i => num / 10 / 10 ^ (places - 1 - i) % 10).map
        (fun d : ℕ => (d : ℤ)) ++ [((num % 10 : ℕ) : ℤ)] := by
    rw [digitIndices_eq, List.range_succ, List.map_append, List.map_singleton, List.map_map,
      Nat.add_sub_cancel, Nat.sub_self, pow_zero, Nat.div_one]
    congr 1
    refine List.map_congr_left fun i hi => ?_
    have hlt := List.mem_range.mp hi
    show _ = ((num / 10 / 10 ^ (places - 1 - i) % 10 : ℕ) : ℤ)
    rw [Nat.div_div_eq_div_mul, ← pow_succ', show places - 1 - i + 1 = places - i by omega]
  have hzeros : ∀ l : List ℕ, (l.map fun d : ℕ => (d : ℤ)).dropWhile (· = 0) =
      (l.dropWhile (· = 0)).map fun d : ℕ => (d : ℤ) := by
    intro l
    rw [List.dropWhile_map]
    congr 2
    funext d
    simp
  rw [renderNumber, hdigits, renderNumberLoop_eq m h]
  · rw [if_neg (by decide), hzeros, dropZeros_digits places _ hdiv, drawNumeral, numeral,
      List.map_append]
    rfl
  · intro v hv
    obtain ⟨d, hd, rfl⟩ := List.mem_map.mp hv
    obtain ⟨i, -, rfl⟩ := List.mem_map.mp hd
    omega

end

/-! ### The bar -/

/-- The pictures of the bar: its background, the glyphs, and `menu_sprite` of each gun. -/
structure HudPictures where
  hud : Sprite
  number : List Sprite
  menu : ℕ → Sprite

/-- The background of the bar. -/
def drawBackground (m : VideoMode) (pics : HudPictures) (page : List Color) : Option (List Color) :=
  drawSprite m ⟨0, BitVec.ofNat 32 m.vRes - BitVec.ofNat 32 pics.hud.textureSize.2⟩ pics.hud page

/-- The picture of a gun. -/
def drawGun (m : VideoMode) (pics : HudPictures) (gunIndex : ℕ) (page : List Color) :
    Option (List Color) :=
  let sprite := pics.menu gunIndex
  drawSprite m
    { x := BitVec.ofNat 32 (m.hRes / 2) - BitVec.ofNat 32 (sprite.textureSize.1 / 2)
      y := BitVec.ofNat 32 m.vRes - 60 - BitVec.ofNat 32 (sprite.textureSize.2 / 2) } sprite page

/-- The row of the numbers. -/
def numberRow (m : VideoMode) : BitVec 32 := BitVec.ofNat 32 m.vRes - 125

/-- `render_hud`; it is `none` when there is no gun with the index of the player. -/
def renderHud {K : Type*} (m : VideoMode) (pics : HudPictures) (ply : PlayerInfo K)
    (page : List Color) : Option (List Color) :=
  (drawBackground m pics page).bind fun page =>
  let health := if ply.health < 0 then 0 else ply.health
  (renderNumber m pics.number health 3 (⟨175, numberRow m⟩, page)).bind fun r =>
  (ply.guns[ply.gunIndex]?).bind fun gun =>
  (renderNumber m pics.number gun.currAmmo 2 (⟨15, numberRow m⟩, r.2)).bind fun r =>
  (renderNumber m pics.number gun.currPackets 1 ({ r.1 with x := 410 }, r.2)).bind fun r =>
  (renderNumber m pics.number ply.armor 3 ({ r.1 with x := 650 }, r.2)).bind fun r =>
  drawGun m pics gun.gunIndex r.2

/-- What a player reads on the bar. -/
structure HudReading where
  health : ℕ
  ammo : ℕ
  packets : ℕ
  armor : ℕ
  gun : ℕ
  deriving DecidableEq, Repr

/-- The bar with these numbers: their numerals, from left to right as they are drawn. -/
def drawHud (m : VideoMode) (pics : HudPictures) (s : HudReading) (page : List Color) :
    Option (List Color) :=
  (drawBackground m pics page).bind fun page =>
  (drawNumeral m pics.number s.health (⟨175, numberRow m⟩, page)).bind fun r =>
  (drawNumeral m pics.number s.ammo (⟨15, numberRow m⟩, r.2)).bind fun r =>
  (drawNumeral m pics.number s.packets ({ r.1 with x := 410 }, r.2)).bind fun r =>
  (drawNumeral m pics.number s.armor ({ r.1 with x := 650 }, r.2)).bind fun r =>
  drawGun m pics s.gun r.2

/-- The pictures are loaded. -/
structure HudPictures.Loaded (pics : HudPictures) : Prop where
  hud : pics.hud.Loaded ∧ 1 ≤ pics.hud.textureSize.2
  number : Glyphs pics.number
  menu : ∀ i, (pics.menu i).Loaded ∧ 1 ≤ (pics.menu i).textureSize.2

section

variable (m : VideoMode)

/-- A sprite is drawn on a page of the size of the screen. -/
theorem drawSprite_isSome {s : Sprite} (hs : s.Loaded ∧ 1 ≤ s.textureSize.2) (pos : Pair)
    {page : List Color} (hlen : page.length = m.hRes * m.vRes) :
    ∃ page', drawSprite m pos s page = some page' ∧ page'.length = m.hRes * m.vRes := by
  obtain ⟨page', hpage, hpaint⟩ := blit_paints hs.1 hs.2 m pos id page hlen
  exact ⟨page', hpage, hpaint.length.trans hlen⟩

/-- A number that fits is drawn. -/
theorem renderNumber_numeral {number : List Sprite} (h : Glyphs number) {num places : ℕ}
    (hfits : num < 10 ^ (places + 1)) {r : Pair × List Color} (hr : r.2.length = m.hRes * m.vRes) :
    ∃ r', renderNumber m number num (places + 1) r = some r' ∧
      drawNumeral m number num r = some r' ∧ r'.2.length = m.hRes * m.vRes := by
  obtain ⟨r', hr', hlen⟩ := renderNumber_isSome m h num (places + 1) hr
  exact ⟨r', hr', (renderNumber_eq m h hfits r).symm.trans hr', hlen⟩

end

/-! ### What the local player has -/

/-- A gun that the bar can show: two digits of ammunition at most, and one of packets. -/
structure GunInstance.Stocked (g : GunInstance) : Prop where
  magazine : g.gun.ammoPerPacket < 100
  belt : g.gun.maxPackets < 10
  ammo : g.currAmmo ≤ g.gun.ammoPerPacket
  packets : g.currPackets ≤ g.gun.maxPackets

namespace GunInstance.Stocked

variable {g : GunInstance}

/-- The state and the animation do not matter. -/
theorem congr {g' : GunInstance} (h : g.Stocked) (hgun : g'.gun = g.gun)
    (hammo : g'.currAmmo ≤ g.currAmmo) (hpackets : g'.currPackets ≤ g.currPackets) :
    g'.Stocked := by
  refine ⟨by rw [hgun]; exact h.magazine, by rw [hgun]; exact h.belt, ?_, ?_⟩
  · rw [hgun]
    exact hammo.trans h.ammo
  · rw [hgun]
    exact hpackets.trans h.packets

theorem create (ammo packets : ℕ) {i : ℕ} (hi : i < 3) :
    (createGunInstance i ammo packets).Stocked := by
  have htable : ∀ i < 3, (getGun i).ammoPerPacket < 100 ∧ (getGun i).maxPackets < 10 := by decide
  refine ⟨(htable i hi).1, (htable i hi).2, ?_, ?_⟩
  · show (if ammo > (getGun i).ammoPerPacket then _ else ammo) ≤ (getGun i).ammoPerPacket
    split <;> omega
  · show (if packets > (getGun i).maxPackets then _ else packets) ≤ (getGun i).maxPackets
    split <;> omega

/-- A box of ammunition, however much is in it. -/
theorem restock (h : g.Stocked) (packets ammoIndex : ℕ) :
    (restock packets ammoIndex g).Stocked := by
  unfold OperationMinix.restock
  split
  · exact h
  · exact ⟨h.magazine, h.belt, h.ammo, Nat.min_le_right _ _⟩

theorem reload (h : g.Stocked) : (reloadGun g).Stocked := by
  unfold reloadGun
  split
  · exact ⟨h.magazine, h.belt, Nat.le_refl _, (Nat.sub_le _ _).trans h.packets⟩
  · exact h

/-- The state machine reloads the gun, and does nothing else to what is in it. -/
theorem transition (h : g.Stocked) (t : ℕ) (shot : Bool) : (gunTransition t shot g).Stocked := by
  have hstate : ∀ (g' : GunInstance) s, g'.Stocked →
      ({ g' with state := s } : GunInstance).Stocked :=
    fun g' s hg' => hg'.congr rfl (Nat.le_refl _) (Nat.le_refl _)
  have hset : ∀ s n, ({ g with state := s, lastOpTick := n } : GunInstance).Stocked :=
    fun s n => h.congr rfl (Nat.le_refl _) (Nat.le_refl _)
  unfold gunTransition
  cases g.state <;> dsimp only
  case reloading =>
    split
    · exact hstate _ _ h.reload
    · exact h
  case inventory => exact h
  all_goals
    split_ifs
    all_goals first | exact h | exact hset _ _

end GunInstance.Stocked

section

variable {K : Type*} [Field K] [LinearOrder K] [FloorRing K]

/-- What the local player has: the limits and the three guns of the levels, one of them in hand. -/
structure Stocked (p : PlayerInfo K) : Prop where
  limits : p.maxHealth = 100 ∧ p.maxArmor = 100
  three : p.guns.length = 3
  held : p.gunIndex < 3
  guns : ∀ g ∈ p.guns, g.Stocked

namespace Stocked

variable {p q : PlayerInfo K}

/-- Only the limits and the guns matter. -/
theorem congr (h : Stocked p) (hlimits : q.maxHealth = p.maxHealth ∧ q.maxArmor = p.maxArmor)
    (hindex : q.gunIndex = p.gunIndex) (hguns : q.guns = p.guns) : Stocked q :=
  ⟨by rw [hlimits.1, hlimits.2]; exact h.limits, by rw [hguns]; exact h.three,
    by rw [hindex]; exact h.held, by rw [hguns]; exact h.guns⟩

/-- A change to one gun. -/
theorem modify (h : Stocked p) (i : ℕ) {f : GunInstance → GunInstance}
    (hf : ∀ g, g.Stocked → (f g).Stocked) : Stocked { p with guns := p.guns.modify i f } := by
  refine ⟨h.limits, (List.length_modify ..).trans h.three, h.held, fun g hg => ?_⟩
  obtain ⟨j, hj⟩ := List.mem_iff_getElem?.mp hg
  exact forall_modify (Q := fun _ g => g.Stocked)
    (fun x hx => hf x (h.guns x (List.mem_of_getElem? hx)))
    (fun k _ x hx => h.guns x (List.mem_of_getElem? hx)) j g hj

theorem gunInHand (h : Stocked p) :
    p.guns[p.gunIndex]? = some (p.gunAt p.gunIndex) ∧ (p.gunAt p.gunIndex).Stocked := by
  have hlt : p.gunIndex < p.guns.length := by
    rw [h.three]
    exact h.held
  have hget : p.gunAt p.gunIndex = p.guns[p.gunIndex] := by
    rw [PlayerInfo.gunAt, List.getD_eq_getElem _ _ hlt]
  rw [hget]
  exact ⟨List.getElem?_eq_getElem hlt, h.guns _ (List.getElem_mem hlt)⟩

/-- The choice of one of the three guns. -/
theorem switchGun (h : Stocked p) {i : ℕ} (hi : i < 3) : Stocked (switchGun i p) := by
  unfold OperationMinix.switchGun
  split
  · have hput : ∀ s (g : GunInstance), g.Stocked → ({ g with state := s } : GunInstance).Stocked :=
      fun s g hg => hg.congr rfl (Nat.le_refl _) (Nat.le_refl _)
    have hguns := (h.modify p.gunIndex (hput .inventory)).modify i (hput .initial)
    exact ⟨h.limits, hguns.three, hi, hguns.guns⟩
  · exact h

/-- The number keys choose one of the three guns. -/
theorem numberKeys (h : Stocked p) : Stocked (numberKeys p) := by
  unfold OperationMinix.numberKeys
  split
  · exact h
  · next i hi =>
    have hmem := List.mem_of_find?_eq_some hi
    simp only [List.mem_cons, List.not_mem_nil, or_false] at hmem
    have hlt : i - 1 < 3 := by omega
    have hkeys : ∀ movm, Stocked { p with movm } := fun _ => h.congr ⟨rfl, rfl⟩ rfl rfl
    exact (hkeys _).switchGun hlt

theorem steer (h : Stocked p) (l : Libm K) (m : GameMap) : Stocked (steer l m p) := by
  have hmove : Stocked (move l m (turn l p)) := by
    obtain ⟨_, _, _, _, heq⟩ := move_turn_eq l m p
    rw [heq]
    exact h.congr ⟨rfl, rfl⟩ rfl rfl
  unfold OperationMinix.steer
  dsimp only
  split
  · exact hmove
  · obtain ⟨_, heq⟩ := updatePlayerControls_eq (OperationMinix.numberKeys (move l m (turn l p)))
    rw [heq]
    exact hmove.numberKeys.congr ⟨rfl, rfl⟩ rfl rfl

theorem hurt (h : Stocked p) (damage : ℤ) : Stocked (hurt damage p) := by
  obtain ⟨_, _, heq⟩ := Wounded.hurt damage p
  rw [heq]
  exact h.congr ⟨rfl, rfl⟩ rfl rfl

theorem pickupHandler (h : Stocked p) (d : PickupDetails) : Stocked (pickupHandler d p).2 := by
  cases d with
  | ammo packets ammoIndex =>
    obtain ⟨i, hi⟩ := pickupAmmo_guns packets ammoIndex p
    exact (h.modify i fun g hg => hg.restock packets ammoIndex).congr ⟨rfl, rfl⟩ rfl hi
  | medkit health => exact h.congr ⟨rfl, rfl⟩ rfl rfl
  | armor armor => exact h.congr ⟨rfl, rfl⟩ rfl rfl

/-- The animations are none of the local player's. -/
theorem animate (h : Stocked p) (t : ℕ) (shot : Bool) : Stocked (animate t shot p) := by
  unfold OperationMinix.animate
  split
  · exact h
  · exact h.congr ⟨rfl, rfl⟩ rfl rfl

end Stocked

/-! ### A tick -/

/-- A change to one player that the local player would not mind. -/
theorem Everyone.stocked {w : World K} (h : Everyone Stocked AnyPlayer w) (r : PlayerRef)
    {f : PlayerInfo K → PlayerInfo K} (hf : ∀ p, p = w.get r → Stocked p → Stocked (f p)) :
    Everyone Stocked AnyPlayer (w.modify r f) := by
  refine h.modify r fun hp => ?_
  cases r with
  | player => exact hf _ rfl hp
  | enemy i => trivial

namespace Stocked

variable {w : World K}

theorem fireLoop (e : Env K) (ref : PlayerRef) : ∀ (n i : ℕ) (w : World K),
    Everyone Stocked AnyPlayer w → Everyone Stocked AnyPlayer (fireLoop e ref n i w) := by
  intro n
  induction n with
  | zero => intro i w h; exact h
  | succ n ih =>
    intro i w h
    rw [OperationMinix.fireLoop]
    split
    · refine ih (i + 1) _ (Everyone.stocked ?_ ref fun p _ hp => hp.modify _ fun g hg =>
        hg.congr rfl (Nat.sub_le _ _) (Nat.le_refl _))
      rw [bullet_eq]
      cases followed e ref i w with
      | none => exact h
      | some target =>
        cases target with
        | none => exact h.congr rfl rfl
        | some r => exact h.stocked r fun p _ hp => hp.hurt _
    · exact h

theorem shoot (h : Everyone Stocked AnyPlayer w) (e : Env K) (ref : PlayerRef) :
    Everyone Stocked AnyPlayer (shoot e ref w).2 := by
  unfold OperationMinix.shoot fire
  dsimp only
  split_ifs
  · exact h
  · exact fireLoop e ref _ _ _ (h.stocked ref fun p _ hp => hp.modify _ fun g hg =>
      hg.congr rfl (Nat.le_refl _) (Nat.le_refl _))
  · exact h

theorem pickUp (h : Everyone Stocked AnyPlayer w) (ref : PlayerRef) :
    Everyone Stocked AnyPlayer (pickUp ref w) := by
  unfold OperationMinix.pickUp
  dsimp only
  split
  · refine (h.stocked ref (f := fun _ => _) fun p heq hp => ?_).congr rfl rfl
    unfold pickupIndex
    split
    · exact heq ▸ hp
    · exact (heq ▸ hp : Stocked (w.get ref)).pickupHandler _
  · exact h

theorem finishTick (h : Everyone Stocked AnyPlayer w) (ref : PlayerRef) (shot : Bool) :
    Everyone Stocked AnyPlayer (finishTick ref shot w) := by
  have hanim := h.stocked ref (f := OperationMinix.animate w.timeCounter shot)
    fun p _ hp => hp.animate _ _
  refine (hanim.stocked ref fun p heq hp => hp.modify _ fun _ _ => ?_).congr rfl rfl
  have hgun := hp.gunInHand.2
  rw [heq] at hgun
  have hstep : ∀ (b : Bool) (g : GunInstance), g.Stocked →
      (if b then { g with currAnim := 0 } else g : GunInstance).Stocked := by
    intro b g hg
    cases b with
    | false => exact hg
    | true => exact hg.congr rfl (Nat.le_refl _) (Nat.le_refl _)
  exact (hstep _ _ hgun).transition _ _

/-- **A tick** of any player. -/
theorem tick (h : Everyone Stocked AnyPlayer w) (e : Env K) (ref : PlayerRef) :
    Everyone Stocked AnyPlayer (playerIntIh e ref w) :=
  finishTick (shoot (pickUp (h.stocked ref fun _ _ hp => hp.steer e.libm w.map) ref) e ref) ref _

/-- What a level hands out. -/
theorem newPlayer {a : PlayerSetup K} (ha : a.Issued) (l : Libm K) (fov : ℤ) :
    Stocked (newPlayer l fov a) := by
  obtain ⟨ammo, packets, hguns⟩ := ha.guns
  have hissued : Stocked { (PlayerInfo.zero : PlayerInfo K) with
      maxHealth := a.maxHealth, maxArmor := a.maxArmor, guns := a.guns } := by
    refine ⟨ha.limits, by rw [hguns]; rfl, by show 0 < 3; decide, fun g hg => ?_⟩
    change g ∈ a.guns at hg
    rw [hguns] at hg
    simp only [List.mem_cons, List.not_mem_nil, or_false] at hg
    rcases hg with rfl | rfl | rfl
    · exact .create _ _ (by decide)
    · exact .create _ _ (by decide)
    · exact .create _ _ (by decide)
  refine (hissued.modify 0 (f := firstGun a.type) fun g hg => ?_).congr ⟨rfl, rfl⟩ rfl rfl
  rw [ha.type]
  exact hg.congr rfl (Nat.le_refl _) (Nat.le_refl _)

end Stocked

/-- The local player is in range, and has what it was given. -/
structure Legible (p : PlayerInfo K) : Prop where
  sound : Sound p
  stocked : Stocked p

/-- **What the bar shows** is what a level hands out, and what the life of the players keeps. -/
theorem stocked_rule {c : Setting K} : PlayerRule c Legible (Fit (K := K)) := by
  have hfit : PlayerRule c Sound (Fit (K := K)) := fit_rule
  refine ⟨hfit.drive, fun p movm h hkeys => ?_, fun p i hi h => ?_, fun w r h => ?_,
    fun a ha => ?_, hfit.enemy⟩
  · exact ⟨hfit.control p movm h.sound hkeys, h.stocked.congr ⟨rfl, rfl⟩ rfl rfl⟩
  · exact ⟨hfit.choose p i hi h.sound, h.stocked.switchGun hi⟩
  · have hall := hfit.tick w r ⟨h.player.sound, h.enemies⟩
    have hstock := Stocked.tick (w := w) ⟨h.player.stocked, fun _ _ => trivial⟩ c.toEnv r
    exact ⟨⟨hall.player, hstock.player⟩, hall.enemies⟩
  · exact ⟨hfit.player a ha, .newPlayer ha c.libm c.fov⟩

/-! ### What is to be read -/

/-- What the bar is to show of a player with a gun in hand. -/
def PlayerInfo.reading (p : PlayerInfo K) (gun : GunInstance) : HudReading :=
  { health := p.health.toNat, ammo := gun.currAmmo, packets := gun.currPackets
    armor := p.armor.toNat, gun := gun.gunIndex }

/-- The bar can be read: every number has its places, and the bar is drawn with the numerals of
what the player has. -/
structure Reads (m : VideoMode) (pics : HudPictures) (p : PlayerInfo K) (gun : GunInstance) :
    Prop where
  held : p.guns[p.gunIndex]? = some gun
  health : p.health = (p.reading gun).health ∧ Digitizes (p.reading gun).health 3
  ammo : Digitizes gun.currAmmo 2
  packets : Digitizes gun.currPackets 1
  armor : p.armor = (p.reading gun).armor ∧ Digitizes (p.reading gun).armor 3
  drawn : ∀ page : List Color, page.length = m.hRes * m.vRes →
    ∃ page', renderHud m pics p page = some page' ∧
      drawHud m pics (p.reading gun) page = some page'

/-- **The bar of a player** who has what the levels hand out. -/
theorem Legible.reads {p : PlayerInfo K} (h : Legible p) (m : VideoMode) {pics : HudPictures}
    (hpics : pics.Loaded) : ∃ gun, Reads m pics p gun := by
  obtain ⟨hheld, hgun⟩ := h.stocked.gunInHand
  obtain ⟨hmaxHealth, hmaxArmor⟩ := h.stocked.limits
  have hhealth : p.health = (p.health.toNat : ℤ) :=
    (Int.toNat_of_nonneg h.sound.vitals.health_nonneg).symm
  have harmor : p.armor = (p.armor.toNat : ℤ) :=
    (Int.toNat_of_nonneg h.sound.vitals.armor_nonneg).symm
  have hhealthLe := h.sound.vitals.health_le
  have harmorLe := h.sound.vitals.armor_le
  -- every number fits in its places
  have hfits : p.health.toNat < 10 ^ 3 ∧ (p.gunAt p.gunIndex).currAmmo < 10 ^ 2 ∧
      (p.gunAt p.gunIndex).currPackets < 10 ^ 1 ∧ p.armor.toNat < 10 ^ 3 := by
    have hammo := hgun.ammo.trans_lt hgun.magazine
    have hpackets := hgun.packets.trans_lt hgun.belt
    omega
  obtain ⟨hfits₁, hfits₂, hfits₃, hfits₄⟩ := hfits
  refine ⟨p.gunAt p.gunIndex, hheld, ⟨hhealth, (digitizes_iff _ _).mpr hfits₁⟩,
    (digitizes_iff _ _).mpr hfits₂, (digitizes_iff _ _).mpr hfits₃,
    ⟨harmor, (digitizes_iff _ _).mpr hfits₄⟩, fun page hlen => ?_⟩
  -- each picture is drawn on the page that the one before it has left
  obtain ⟨page₀, h₀, hlen₀⟩ := drawSprite_isSome m hpics.hud
    ⟨0, BitVec.ofNat 32 m.vRes - BitVec.ofNat 32 pics.hud.textureSize.2⟩ hlen
  obtain ⟨r₁, h₁, hn₁, hlen₁⟩ := renderNumber_numeral m hpics.number hfits₁
    (r := (⟨175, numberRow m⟩, page₀)) hlen₀
  obtain ⟨r₂, h₂, hn₂, hlen₂⟩ := renderNumber_numeral m hpics.number hfits₂
    (r := (⟨15, numberRow m⟩, r₁.2)) hlen₁
  obtain ⟨r₃, h₃, hn₃, hlen₃⟩ := renderNumber_numeral m hpics.number hfits₃
    (r := ({ r₂.1 with x := 410 }, r₂.2)) hlen₂
  obtain ⟨r₄, h₄, hn₄, hlen₄⟩ := renderNumber_numeral m hpics.number hfits₄
    (r := ({ r₃.1 with x := 650 }, r₃.2)) hlen₃
  obtain ⟨page', hpage', -⟩ := drawSprite_isSome m (hpics.menu (p.gunAt p.gunIndex).gunIndex)
    { x := BitVec.ofNat 32 (m.hRes / 2) -
        BitVec.ofNat 32 ((pics.menu (p.gunAt p.gunIndex).gunIndex).textureSize.1 / 2)
      y := BitVec.ofNat 32 m.vRes - 60 -
        BitVec.ofNat 32 ((pics.menu (p.gunAt p.gunIndex).gunIndex).textureSize.2 / 2) } hlen₄
  -- `render_hud` would show no health below zero
  have hnonneg : (if p.health < 0 then 0 else p.health) = (p.health.toNat : ℤ) := by
    rw [if_neg (by omega)]
    exact hhealth
  refine ⟨page', ?_, ?_⟩
  · unfold renderHud drawBackground drawGun
    rw [h₀, Option.bind_some]
    dsimp only
    rw [hnonneg, h₁, Option.bind_some, hheld, Option.bind_some, h₂, Option.bind_some, h₃,
      Option.bind_some, harmor, h₄, Option.bind_some, hpage']
  · unfold drawHud drawBackground drawGun PlayerInfo.reading
    rw [h₀, Option.bind_some, hn₁, Option.bind_some, hn₂, Option.bind_some, hn₃, Option.bind_some,
      hn₄, Option.bind_some, hpage']

/-- **The bar shows what the local player has.**  In every state of every run of the program in
which a game is on, whoever has shot and whatever has been picked up: there is a gun with the
index of the player, health and armour are not negative, every number that `render_hud` draws has
as many digits as there are places for it, so that `digitize` stays in its array, and the bar is
drawn completely, with the decimal numerals of health, ammunition, packets and armour and the
picture of that gun. -/
theorem hud_reads {c : Setting K} (m : VideoMode) {pics : HudPictures} (hpics : pics.Loaded)
    (w : World K) (rtc : Rtc) (is : List (GameInput K)) :
    (gameMachine c).Always (fun g => Playing g → ∃ gun, Reads m pics g.world.player gun)
      (Game.start w rtc) is :=
  everyone_always stocked_rule
    (fun p movm h => ⟨h.sound.controls movm p.direction, h.stocked.congr ⟨rfl, rfl⟩ rfl rfl⟩)
    (fun _ h hplay => (h.player hplay).reads m hpics) w rtc is

end

/-- White pictures, of two by two texels. -/
theorem hud_reads_white :
    (gameMachine scene).Always (fun g => Playing g → ∃ gun,
        Reads gameMode ⟨whiteSprite 0, List.replicate 10 (whiteSprite 0), fun _ => whiteSprite 0⟩
          g.world.player gun)
      sceneStart (clickOn .single) := by
  have hwhite : (whiteSprite 0).Loaded ∧ 1 ≤ (whiteSprite 0).textureSize.2 :=
    ⟨whiteSprite_loaded 0, by decide⟩
  have hnumber : Glyphs (List.replicate 10 (whiteSprite 0)) :=
    ⟨by decide, fun s hs => by rw [List.eq_of_mem_replicate hs]; exact hwhite⟩
  exact hud_reads gameMode ⟨hwhite, hnumber, fun _ => hwhite⟩ _ _ _

end OperationMinix
