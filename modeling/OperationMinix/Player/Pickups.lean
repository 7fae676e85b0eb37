import OperationMinix.Player.Info

/-!
# Pickups

Ammunition, medkits and armour lying on the map, and the table that says which
of them may be touched from a cell.  Slot `0` of the array of pickups is never
assigned, and a removed pickup is written into the table as a `0`, so what that
slot happens to hold is an argument.
-/

namespace OperationMinix

/-- `pickup_details` together with the handler its `vtable` names. -/
inductive PickupDetails where
  | ammo (packets ammoIndex : ℕ)
  | medkit (health : ℕ)
  | armor (armor : ℕ)
  deriving DecidableEq, Repr

/-- `pickup_t`. -/
structure Pickup (K : Type*) where
  details : PickupDetails
  pickedUp : Bool
  collider : Circle K
  animation : AnimatedSprite
  deriving DecidableEq, Repr

/-- `collision_table_t`: for each line, for each cell, the pickups to look at. -/
structure CollisionTable where
  table : List (List (List ℕ))
  width : ℕ
  height : ℕ
  deriving DecidableEq, Repr

/-- `pickups` and `collision_table`. -/
structure PickupStore (K : Type*) where
  pickups : List (Pickup K)
  collisionTable : CollisionTable
  deriving DecidableEq, Repr

/-- The indexes of a cell. -/
def CollisionTable.cell (t : CollisionTable) (x y : ℤ) : List ℕ :=
  (t.table.getD y.toNat []).getD x.toNat []

/-- A change to the indexes of a cell. -/
def CollisionTable.modifyCell (t : CollisionTable) (x y : ℤ) (f : List ℕ → List ℕ) :
    CollisionTable :=
  { t with table := t.table.modify y.toNat fun row => row.modify x.toNat f }

/-- `init_collision_table`. -/
def initCollisionTable (width height : ℕ) : CollisionTable :=
  { table := List.replicate height (List.replicate width []), width, height }

/-- The value stored in a variable of type `unsigned short`. -/
def ushort (n : ℕ) : ℕ := n % 2 ^ 16

section

variable {K : Type*} [Field K] [LinearOrder K] [FloorRing K]

/-- The cells around a point, in the order the loops visit them. -/
def CollisionTable.around (t : CollisionTable) (p : Vec K) : List (ℤ × ℤ) :=
  (neighbourhood p.x t.width).flatMap fun x => (neighbourhood p.y t.height).map fun y => (x, y)

/-- `add_collision`. -/
def addCollision (pickup : Pickup K) (index : ℕ) (t : CollisionTable) : CollisionTable :=
  (t.around pickup.collider.center).foldl (fun t c =>
    if checkCircleRectCollision pickup.collider (unitCell c.1 c.2) then
      t.modifyCell c.1 c.2 fun l => l ++ [index]
    else t) t

/-- `remove_collision`. -/
def removeCollision (position : Vec K) (index : ℕ) (t : CollisionTable) : CollisionTable :=
  (t.around position).foldl (fun t c =>
    t.modifyCell c.1 c.2 fun l => l.map fun i => if i = index then 0 else i) t

/-- `add_pickup`; `slot` is what the unassigned slot `0` holds. -/
def addPickup (slot pickup : Pickup K) (s : PickupStore K) : ℕ × PickupStore K :=
  let pickups := if s.pickups = [] then [slot] else s.pickups
  (pickups.length,
    { pickups := pickups ++ [{ pickup with pickedUp := false }]
      collisionTable := addCollision pickup pickups.length s.collisionTable })

/-- The loop of `check_player_pickup_collision`: the closest pickup touched so
far, with its squared distance. -/
def closestPickup (pos : Vec K) (s : PickupStore K) : List ℕ → Option (ℕ × K) → Option (ℕ × K)
  | [], best => best
  | i :: is, best =>
    match s.pickups[i]? with
    | none => closestPickup pos s is best
    | some pickup =>
      let distance := distPositionsSquared pos pickup.collider.center
      if distance ≤ pickup.collider.radius * pickup.collider.radius then
        match best with
        | none => closestPickup pos s is (some (i, distance))
        | some (_, smallest) =>
          closestPickup pos s is (if distance < smallest then some (i, distance) else best)
      else closestPickup pos s is best

/-- `check_player_pickup_collision`; `0` when nothing is touched. -/
def checkPlayerPickupCollision (s : PickupStore K) (ply : PlayerInfo K) : ℕ :=
  let pos := ply.position
  let t := s.collisionTable
  if pos.x < 0 ∨ pos.y < 0 ∨ pos.y ≥ t.height ∨ pos.x ≥ t.width then 0
  else ((closestPickup pos s (t.cell (truncate pos.x) (truncate pos.y)) none).map Prod.fst).getD 0

/-- `delete_pickup`. -/
def deletePickup (index : ℕ) (s : PickupStore K) : PickupStore K :=
  match s.pickups[index]? with
  | none => s
  | some pickup =>
    { pickups := s.pickups.set index { pickup with pickedUp := true }
      collisionTable := removeCollision pickup.collider.center index s.collisionTable }

end

section

variable {K : Type*}

/-- `pickup_ammo`, on the guns from `guns` on: the first gun that uses the
ammunition decides. -/
def pickupAmmoGuns (packets ammoIndex : ℕ) : List GunInstance → Bool × List GunInstance
  | [] => (false, [])
  | g :: guns =>
    if g.gun.ammoIndex = ammoIndex then
      if g.currPackets ≥ g.gun.maxPackets then (false, g :: guns)
      else
        let currPackets := ushort (g.currPackets + packets)
        (true, { g with currPackets :=
          if currPackets > g.gun.maxPackets then g.gun.maxPackets else currPackets } :: guns)
    else
      let r := pickupAmmoGuns packets ammoIndex guns
      (r.1, g :: r.2)

/-- `pickup_ammo`. -/
def pickupAmmo (packets ammoIndex : ℕ) (ply : PlayerInfo K) : Bool × PlayerInfo K :=
  let r := pickupAmmoGuns packets ammoIndex (ply.guns.take ply.inventorySize)
  (r.1, { ply with guns := r.2 ++ ply.guns.drop ply.inventorySize })

/-- What `value` of at most `limit` becomes when `amount` is added to it, and
whether anything is added: the body shared by medkits and armour. -/
def topUp (amount : ℕ) (limit value : ℤ) : Bool × ℤ :=
  if value ≥ limit then (false, value) else (true, min (value + amount) limit)

/-- `pickup_medkit`. -/
def pickupMedkit (health : ℕ) (ply : PlayerInfo K) : Bool × PlayerInfo K :=
  let r := topUp health ply.maxHealth ply.health
  (r.1, { ply with health := r.2 })

/-- `pickup_armor`. -/
def pickupArmor (armor : ℕ) (ply : PlayerInfo K) : Bool × PlayerInfo K :=
  let r := topUp armor ply.maxArmor ply.armor
  (r.1, { ply with armor := r.2 })

/-- `pickup_handler`. -/
def pickupHandler (details : PickupDetails) (ply : PlayerInfo K) : Bool × PlayerInfo K :=
  match details with
  | .ammo packets ammoIndex => pickupAmmo packets ammoIndex ply
  | .medkit health => pickupMedkit health ply
  | .armor armor => pickupArmor armor ply

end

/-- `pickup_index`. -/
def pickupIndex {K : Type*} [Field K] [LinearOrder K] [FloorRing K] (ply : PlayerInfo K)
    (index : ℕ) (s : PickupStore K) : PlayerInfo K × PickupStore K :=
  match s.pickups[index]? with
  | none => (ply, s)
  | some pickup =>
    let r := pickupHandler pickup.details ply
    (r.2, if r.1 then deletePickup index s else s)

end OperationMinix
