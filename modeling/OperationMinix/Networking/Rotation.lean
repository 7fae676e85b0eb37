import OperationMinix.Networking.Packet
import OperationMinix.Player.Trigger
import Mathlib.Tactic.Linarith
import Mathlib.Tactic.NormNum

/-!
# The rotation of a player and of its replica

A player turns by the displacement of the mouse, cut to `1.9` either way and rounded
towards zero to steps of `1/128`.  A packet carries the number of steps in a byte and the
sign in a flag; the replica reads a displacement from them, and then cuts and rounds it
once more.  Both work on the same angle all the same.

## Main definitions

* `steps` — how many steps of `1/128` a displacement makes.
* `relay` — what the packet of one player makes of the replica.

## Main results

* `turnAngle_turnAngle` — rounding twice is rounding once.
* `rotation_agrees` — **the replica turns by the angle of the player.**
* `sameView_ticks` — so the two look in the same direction after any number of ticks.
-/

namespace OperationMinix

set_option linter.unusedSectionVars false

section

variable {K : Type*} [Field K] [LinearOrder K] [FloorRing K]

/-- How many steps of `1/128` a displacement makes: the byte `x_d` of `player_int_ih`, and
`mouse_byte` of `encode_packet`. -/
def steps (mouseDesl : K) : ℤ := truncate (absDouble (clampDesl mouseDesl) * 128)

/-- What the packet that `p` sends makes of its replica `q`. -/
def relay (p q : PlayerInfo K) : PlayerInfo K :=
  decodePacket (decodeData (encodeData (encodePacket p))) q

/-- The replica looks where the player looks. -/
def SameView (p q : PlayerInfo K) : Prop :=
  q.direction = p.direction ∧ q.cameraPlane = p.cameraPlane

end

section Exact

variable {K : Type*} [Field K] [LinearOrder K] [IsStrictOrderedRing K] [FloorRing K]

/-! ### Rounding -/

theorem absDouble_eq_abs (x : K) : absDouble x = |x| := by
  unfold absDouble
  split
  · next h => rw [abs_of_neg h, mul_neg_one]
  · next h => rw [abs_of_nonneg (not_lt.mp h)]

theorem abs_clampDesl (x : K) : |clampDesl x| ≤ 19 / 10 := by
  unfold clampDesl
  split
  · rw [abs_of_nonneg (by norm_num)]
  · split
    · rw [abs_neg, abs_of_nonneg (by norm_num)]
    · next hhigh hlow => exact abs_le.mpr ⟨not_lt.mp hlow, not_lt.mp hhigh⟩

theorem clampDesl_of_abs_le {x : K} (h : |x| ≤ 19 / 10) : clampDesl x = x := by
  obtain ⟨hlow, hhigh⟩ := abs_le.mp h
  unfold clampDesl
  rw [if_neg (not_lt.mpr hhigh), if_neg (not_lt.mpr hlow)]

theorem steps_eq_floor (x : K) : steps x = ⌊|clampDesl x| * 128⌋ := by
  unfold steps
  rw [absDouble_eq_abs, truncate_of_nonneg (by positivity)]

/-- **The steps of a displacement fit into a byte.** -/
theorem steps_mem (x : K) : 0 ≤ steps x ∧ steps x ≤ 243 := by
  rw [steps_eq_floor]
  constructor
  · exact Int.floor_nonneg.mpr (by positivity)
  · have hle := abs_clampDesl x
    have hlt : |clampDesl x| * 128 < ((243 + 1 : ℤ) : K) := by
      push_cast
      linarith
    exact Int.lt_add_one_iff.mp (Int.floor_lt.mpr hlt)

theorem turnAngle_eq (x : K) :
    turnAngle x = if clampDesl x ≥ 0 then (steps x : K) / 128 else -((steps x : K) / 128) := rfl

theorem abs_turnAngle (x : K) : |turnAngle x| = (steps x : K) / 128 := by
  have hsteps : (0 : K) ≤ (steps x : K) / 128 := by
    have h0 : (0 : K) ≤ steps x := Int.cast_nonneg (steps_mem x).1
    positivity
  rw [turnAngle_eq]
  split
  · exact abs_of_nonneg hsteps
  · rw [abs_neg, abs_of_nonneg hsteps]

/-- A rounded displacement is not cut. -/
theorem clampDesl_turnAngle (x : K) : clampDesl (turnAngle x) = turnAngle x := by
  apply clampDesl_of_abs_le
  have hle : (steps x : K) ≤ 243 := by exact_mod_cast (steps_mem x).2
  rw [abs_turnAngle]
  linarith

theorem steps_turnAngle (x : K) : steps (turnAngle x) = steps x := by
  rw [steps_eq_floor (turnAngle x), clampDesl_turnAngle, abs_turnAngle,
    div_mul_cancel₀ _ (by norm_num), Int.floor_intCast]

/-- **Rounding twice is rounding once.** -/
theorem turnAngle_turnAngle (x : K) : turnAngle (turnAngle x) = turnAngle x := by
  have hstep : (0 : K) ≤ (steps x : K) / 128 := (abs_turnAngle x).symm ▸ abs_nonneg _
  rw [turnAngle_eq (turnAngle x), clampDesl_turnAngle, steps_turnAngle]
  by_cases hx : clampDesl x ≥ 0
  · rw [turnAngle_eq x, if_pos hx, if_pos hstep]
  · rw [turnAngle_eq x, if_neg hx]
    split
    · next hneg =>
      -- a displacement to the left of less than a step
      have hzero : (steps x : K) / 128 = 0 := le_antisymm (by linarith) hstep
      rw [hzero, neg_zero]
    · rfl

/-! ### The packet -/

/-- The byte of the packet. -/
theorem mouseByte_encodePacket (p : PlayerInfo K) :
    ((encodePacket p).mouseByte.toNat : ℤ) = steps p.movm.mouseDesl := by
  obtain ⟨hlow, hhigh⟩ := steps_mem p.movm.mouseDesl
  have hbyte : (encodePacket p).mouseByte = BitVec.ofInt 8 (steps p.movm.mouseDesl) := by
    show BitVec.ofInt 8 (truncate (absDouble (clampDesl p.movm.mouseDesl * 128))) = _
    unfold steps
    rw [absDouble_eq_abs, absDouble_eq_abs, abs_mul, abs_of_nonneg (by norm_num : (0 : K) ≤ 128)]
  rw [hbyte, BitVec.toNat_ofInt]
  omega

/-- The sign flag of the packet. -/
theorem mouseMsb_encodePacket (p : PlayerInfo K) :
    (encodePacket p).mouseMsb = decide (¬ clampDesl p.movm.mouseDesl ≥ 0) := by
  show decide (¬ clampDesl p.movm.mouseDesl * 128 ≥ 0) = _
  have hpos : (0 : K) < 128 := by norm_num
  rw [decide_eq_decide, ge_iff_le, ge_iff_le, mul_nonneg_iff_of_pos_right hpos]

/-- **The displacement that arrives** is the angle of the player, whatever gun it holds. -/
theorem mouseDesl_relay (p q : PlayerInfo K) :
    (relay p q).movm.mouseDesl = turnAngle p.movm.mouseDesl := by
  have hbyte : (decodeData (encodeData (encodePacket p))).mouseByte =
      (encodePacket p).mouseByte := rfl
  have hmsb : (decodeData (encodeData (encodePacket p))).mouseMsb = (encodePacket p).mouseMsb :=
    (dataFlags_bits _ _ _ _ _ _ _ (encodePacket p).mouseMsb).2.2.2.2
  have hsteps : ((encodePacket p).mouseByte.toNat : K) = (steps p.movm.mouseDesl : K) := by
    exact_mod_cast congrArg (Int.cast : ℤ → K) (mouseByte_encodePacket p)
  show (if (decodeData (encodeData (encodePacket p))).mouseMsb then _ else _) = _
  rw [hbyte, hmsb, mouseMsb_encodePacket, hsteps, turnAngle_eq]
  by_cases hx : clampDesl p.movm.mouseDesl ≥ 0
  · rw [if_pos hx, if_neg (by simpa using hx)]
  · rw [if_neg hx, if_pos (by simpa using hx)]

/-! ### The rotation -/

/-- `player_int_ih` turns a player that has a mouse by its angle. -/
theorem turn_eq (l : Libm K) {p : PlayerInfo K}
    (htype : p.type = .player ∨ p.type = .networkPlayer) :
    (turn l p).direction = rotate l (turnAngle p.movm.mouseDesl) p.direction ∧
      (turn l p).cameraPlane = rotate l (turnAngle p.movm.mouseDesl) p.cameraPlane := by
  rcases htype with hp | hq
  · simp [turn, hp]
  · simp [turn, hq]

/-- **Local and remote rotation agree.**  For every displacement of the mouse, the local
player and the replica that has been sent its packet are turned by the same angle; the
number of steps in it fits into the byte, and an angle that is rounded again stays. -/
theorem rotation_agrees (l : Libm K) (p q : PlayerInfo K) (hp : p.type = .player)
    (hq : q.type = .networkPlayer) :
    let angle := turnAngle p.movm.mouseDesl
    turnAngle (relay p q).movm.mouseDesl = angle ∧
      ((turn l p).direction = rotate l angle p.direction ∧
        (turn l p).cameraPlane = rotate l angle p.cameraPlane) ∧
      ((turn l (relay p q)).direction = rotate l angle q.direction ∧
        (turn l (relay p q)).cameraPlane = rotate l angle q.cameraPlane) ∧
      (steps p.movm.mouseDesl < 256 ∧
        ((encodePacket p).mouseByte.toNat : ℤ) = steps p.movm.mouseDesl) ∧
      turnAngle angle = angle := by
  intro angle
  have hrelay : turnAngle (relay p q).movm.mouseDesl = angle := by
    rw [mouseDesl_relay, turnAngle_turnAngle]
  have hturned := turn_eq l (p := relay p q) (Or.inr hq)
  rw [hrelay] at hturned
  have hbyte : steps p.movm.mouseDesl < 256 := by
    have hle := (steps_mem p.movm.mouseDesl).2
    omega
  exact ⟨hrelay, turn_eq l (Or.inl hp), hturned, ⟨hbyte, mouseByte_encodePacket p⟩,
    turnAngle_turnAngle _⟩

/-- A player that has moved the mouse by less than a step to the left, and its replica. -/
theorem rotation_agrees_slight :
    let p : PlayerInfo ℚ := { (PlayerInfo.zero : PlayerInfo ℚ) with
      type := .player, movm := { Controls.zero with mouseDesl := -1 / 200 } }
    let q : PlayerInfo ℚ := { (PlayerInfo.zero : PlayerInfo ℚ) with type := .networkPlayer }
    let angle := turnAngle p.movm.mouseDesl
    p.type = .player ∧ q.type = .networkPlayer ∧
      turnAngle (relay p q).movm.mouseDesl = angle ∧
      ((turn openField.libm p).direction = rotate openField.libm angle p.direction ∧
        (turn openField.libm p).cameraPlane = rotate openField.libm angle p.cameraPlane) ∧
      ((turn openField.libm (relay p q)).direction = rotate openField.libm angle q.direction ∧
        (turn openField.libm (relay p q)).cameraPlane =
          rotate openField.libm angle q.cameraPlane) ∧
      (steps p.movm.mouseDesl < 256 ∧
        ((encodePacket p).mouseByte.toNat : ℤ) = steps p.movm.mouseDesl) ∧
      turnAngle angle = angle :=
  ⟨rfl, rfl, rotation_agrees openField.libm _ _ rfl rfl⟩

/-! ### Any number of ticks -/

/-- The movement and the keys leave the view alone. -/
theorem steer_view (l : Libm K) (m : GameMap) (p : PlayerInfo K) :
    (steer l m p).direction = (turn l p).direction ∧
      (steer l m p).cameraPlane = (turn l p).cameraPlane := by
  obtain ⟨_, _, _, hkeys⟩ := numberKeys_eq (move l m (turn l p))
  obtain ⟨_, hcontrols⟩ := updatePlayerControls_eq (numberKeys (move l m (turn l p)))
  unfold steer
  dsimp only
  split
  · exact ⟨rfl, rfl⟩
  · rw [hcontrols, hkeys]
    exact ⟨rfl, rfl⟩

/-- A tick of a player with the given controls, and one of its replica. -/
def steerBoth (l : Libm K) (m : GameMap) (pq : PlayerInfo K × PlayerInfo K) (ctrl : Controls K) :
    PlayerInfo K × PlayerInfo K :=
  let p := { pq.1 with movm := ctrl }
  (steer l m p, steer l m (relay p pq.2))

/-- **One tick.** -/
theorem sameView_steerBoth (l : Libm K) (m : GameMap) {p q : PlayerInfo K} (hp : p.type = .player)
    (hq : q.type = .networkPlayer) (h : SameView p q) (ctrl : Controls K) :
    SameView (steerBoth l m (p, q) ctrl).1 (steerBoth l m (p, q) ctrl).2 := by
  have hplayer := turn_eq l (p := { p with movm := ctrl }) (Or.inl hp)
  have hreplica := turn_eq l (p := relay { p with movm := ctrl } q) (Or.inr hq)
  rw [mouseDesl_relay, turnAngle_turnAngle] at hreplica
  obtain ⟨hdir, hplane⟩ := h
  constructor
  · show (steer l m _).direction = (steer l m _).direction
    rw [(steer_view l m _).1, (steer_view l m _).1, hplayer.1, hreplica.1]
    exact congrArg (rotate l _) hdir
  · show (steer l m _).cameraPlane = (steer l m _).cameraPlane
    rw [(steer_view l m _).2, (steer_view l m _).2, hplayer.2, hreplica.2]
    exact congrArg (rotate l _) hplane

/-- **The two look in the same direction** after any number of ticks, whatever the controls
of the player are in each. -/
theorem sameView_ticks (l : Libm K) (m : GameMap) : ∀ (ctrls : List (Controls K))
    (p q : PlayerInfo K), p.type = .player → q.type = .networkPlayer → SameView p q →
      SameView (ctrls.foldl (steerBoth l m) (p, q)).1 (ctrls.foldl (steerBoth l m) (p, q)).2 := by
  intro ctrls
  induction ctrls with
  | nil => intro p q _ _ h; exact h
  | cons ctrl ctrls ih =>
    intro p q hp hq h
    rw [List.foldl_cons]
    apply ih
    · exact (steer_type l m _).trans hp
    · exact (steer_type l m _).trans hq
    · exact sameView_steerBoth l m hp hq h ctrl

end Exact

end OperationMinix
