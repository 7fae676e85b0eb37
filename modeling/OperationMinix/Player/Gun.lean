import Mathlib.Data.Rat.Defs

/-!
# Guns

The guns of `gun.c` and the state machine of a gun in a player's hands.  A
`gun_t` is copied into every instance, but its animations are shared through a
pointer, so they are kept apart and found by the index of the gun.
-/

namespace OperationMinix

/-! ### Animations -/

/-- `anim_state_t`. -/
inductive AnimState where
  | finished
  | progress
  deriving DecidableEq, Repr

/-- `animated_sprite_t`, without the pictures. -/
structure AnimatedSprite where
  framesPerSprite : ℕ
  curFrame : ℕ
  numFig : ℕ
  state : AnimState
  deriving DecidableEq, Repr

/-- `update_anim`: the animation after one tick, and whether it has finished. -/
def updateAnim (timeCounter : ℕ) (anim : AnimatedSprite) : Bool × AnimatedSprite :=
  if timeCounter % anim.framesPerSprite = 0 then
    let frame := (anim.curFrame + 1) % anim.numFig
    if frame = 0 then (true, { anim with curFrame := frame, state := .finished })
    else (false, { anim with curFrame := frame, state := .progress })
  else (false, { anim with state := .progress })

/-! ### Guns and their instances -/

/-- `gun_state_t`. -/
inductive GunState where
  | inventory
  | initial
  | charging
  | ready
  | cooldown
  | noAmmo
  | reloading
  deriving DecidableEq, Repr

/-- `gun_t`, without its name and pictures and the fields no function reads. -/
structure Gun where
  reloadTime : ℕ
  chargeTime : ℕ
  cooldownTime : ℕ
  range : ℚ
  damage : ℤ
  ammoPerPacket : ℕ
  ammoPerFire : ℕ
  maxPackets : ℕ
  automatic : Bool
  ammoIndex : ℕ
  deriving DecidableEq, Repr

/-- `gun_instance_t`. -/
structure GunInstance where
  gun : Gun
  gunIndex : ℕ
  currAnim : ℕ
  currAmmo : ℕ
  currPackets : ℕ
  lastOpTick : ℕ
  state : GunState
  deriving DecidableEq, Repr

/-- The table `guns` as `init_guns` fills it: the three guns of a player and the
two of the bots. -/
def gunTable : List Gun :=
  [ { ammoPerFire := 1, ammoPerPacket := 30, maxPackets := 5, automatic := true, chargeTime := 15,
      cooldownTime := 10, range := 20, damage := 15, reloadTime := 90, ammoIndex := 0 },
    { ammoPerFire := 1, ammoPerPacket := 11, maxPackets := 3, automatic := false, chargeTime := 10,
      cooldownTime := 15, range := 15, damage := 15, reloadTime := 60, ammoIndex := 1 },
    { ammoPerFire := 1, ammoPerPacket := 2, maxPackets := 5, automatic := false, chargeTime := 30,
      cooldownTime := 60, range := 40, damage := 120, reloadTime := 120, ammoIndex := 2 },
    { ammoPerFire := 1, ammoPerPacket := 30, maxPackets := 5, automatic := true, chargeTime := 0,
      cooldownTime := 15, range := 30, damage := 5, reloadTime := 60, ammoIndex := 0 },
    { ammoPerFire := 1, ammoPerPacket := 30, maxPackets := 5, automatic := true, chargeTime := 0,
      cooldownTime := 1, range := 30, damage := 30, reloadTime := 60, ammoIndex := 0 } ]

/-- What zeroed memory reads as. -/
def Gun.zero : Gun :=
  { reloadTime := 0, chargeTime := 0, cooldownTime := 0, range := 0, damage := 0
    ammoPerPacket := 0, ammoPerFire := 0, maxPackets := 0, automatic := false, ammoIndex := 0 }

/-- What zeroed memory reads as. -/
def GunInstance.zero : GunInstance :=
  { gun := .zero, gunIndex := 0, currAnim := 0, currAmmo := 0, currPackets := 0, lastOpTick := 0
    state := .inventory }

/-- `get_gun`; the source returns an unassigned gun from index five on. -/
def getGun (gunIndex : ℕ) : Gun := gunTable.getD gunIndex .zero

/-- `create_gun_instance`. -/
def createGunInstance (gunIndex startAmmo startPackets : ℕ) : GunInstance :=
  let gun := getGun gunIndex
  { gun := gun
    gunIndex := gunIndex
    currAnim := 0
    currAmmo := if startAmmo > gun.ammoPerPacket then gun.ammoPerPacket else startAmmo
    currPackets := if startPackets > gun.maxPackets then gun.maxPackets else startPackets
    lastOpTick := 0
    state := .inventory }

/-- `reload_gun`. -/
def reloadGun (g : GunInstance) : GunInstance :=
  if g.currPackets > 0 then
    { g with currPackets := g.currPackets - 1, currAmmo := g.gun.ammoPerPacket }
  else g

/-- The state machine of `update_gun_state`. -/
def gunTransition (timeCounter : ℕ) (shot : Bool) (g : GunInstance) : GunInstance :=
  match g.state with
  | .initial =>
    let g := { g with lastOpTick := timeCounter }
    if g.currAmmo = 0 then
      if g.currPackets > 0 then { g with state := .reloading }
      else { g with state := .noAmmo }
    else { g with state := .charging }
  | .charging =>
    if g.lastOpTick + g.gun.chargeTime ≤ timeCounter then { g with state := .ready } else g
  | .ready =>
    if g.currAmmo = 0 then
      if g.currPackets ≠ 0 then { g with state := .reloading, lastOpTick := timeCounter }
      else { g with state := .noAmmo }
    else if shot then { g with lastOpTick := timeCounter, state := .cooldown }
    else g
  | .cooldown =>
    if g.lastOpTick + g.gun.cooldownTime ≤ timeCounter then { g with state := .ready } else g
  | .reloading =>
    if g.lastOpTick + g.gun.reloadTime ≤ timeCounter then { reloadGun g with state := .ready }
    else g
  | .noAmmo =>
    if g.currPackets ≠ 0 then { g with state := .reloading, lastOpTick := timeCounter } else g
  | .inventory => g

/-- The animations shared by the instances of each gun, by the index of the gun. -/
abbrev GunAnims := List (List AnimatedSprite)

/-- `init_gun_anims`, `init_rifle_anims` and `init_ray_anims`: the idle and the
firing animation of a gun, the latter of `numFig` pictures spread over the
cooldown and sped up by the multiplier. -/
def initGunAnims (numFig : ℕ) (multiplier : ℚ) (g : Gun) : List AnimatedSprite :=
  let ticks := g.cooldownTime / numFig
  let ticks := if ticks * multiplier * numFig < g.cooldownTime then (ticks * multiplier).floor.toNat
    else ticks
  [ { framesPerSprite := 1, curFrame := 0, numFig := 1, state := .finished },
    { framesPerSprite := if ticks = 0 then 1 else ticks, curFrame := 0, numFig := numFig
      state := .finished } ]

/-- The animations as `init_guns` sets them up. -/
def initAllGunAnims : GunAnims :=
  [ initGunAnims 4 1 (getGun 0), initGunAnims 7 1 (getGun 1), initGunAnims 4 (3 / 10) (getGun 2),
    initGunAnims 4 1 (getGun 3), initGunAnims 4 1 (getGun 4) ]

/-- The animation `gun_inst->gun.animations[gun_inst->curr_anim]` after one tick,
and whether it has finished. -/
def stepGunAnim (timeCounter : ℕ) (g : GunInstance) (anims : GunAnims) : Bool × GunAnims :=
  match (anims.getD g.gunIndex [])[g.currAnim]? with
  | none => (false, anims)
  | some anim =>
    let r := updateAnim timeCounter anim
    (r.1, anims.modify g.gunIndex fun as => as.set g.currAnim r.2)

/-- `update_gun_state`: only the local player's gun is animated. -/
def updateGunState (timeCounter : ℕ) (shot player : Bool) (g : GunInstance) (anims : GunAnims) :
    GunInstance × GunAnims :=
  let r := if player then stepGunAnim timeCounter g anims else (false, anims)
  (gunTransition timeCounter shot (if r.1 then { g with currAnim := 0 } else g), r.2)

end OperationMinix
