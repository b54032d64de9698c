import NodeProvisioner.Resource.InstanceType
import NodeProvisioner.Resource.NodeClaim
import NodeProvisioner.Resource.NodeClass

/-! Which shapes are tried for a claim, where, and in what order. -/
namespace NodeProvisioner.Placement

def pricedType (rs : Requirements) (t : InstanceType) : Option (Binary64 × InstanceType) :=
  (t.cheapestPrice? rs).map (·, t)

def cheaperFirst (a b : Binary64 × InstanceType) : Bool :=
  a.1.rank < b.1.rank || (a.1.rank == b.1.rank && decide (a.2.name ≤ b.2.name))

/-- The shapes with a compatible offering, cheapest first. -/
def priced (types : List InstanceType) (rs : Requirements) : List InstanceType :=
  ((types.filterMap (pricedType rs)).mergeSort cheaperFirst).map (·.2)

def unpriced (types : List InstanceType) (rs : Requirements) : List InstanceType :=
  types.filter fun t => (t.cheapestPrice? rs).isNone

/-- The regions to search: that of the class, else those that the claim names, else all. -/
def regions (cls : NodeClass) (rs : Requirements) (all : List String) : List String :=
  match cls.spec.region, rs.values Label.region with
  | some region, _ => [region]
  | none, some (v :: vs) => v :: vs
  | none, _ => all

def namedZones? (rs : Requirements) : Option (List String) :=
  match rs.values Label.zone with
  | some (v :: vs) => some (v :: vs)
  | _ => none

def idlerFirst (a b : Binary64 × String) : Bool :=
  a.1.rank < b.1.rank || (a.1.rank == b.1.rank && decide (a.2 ≤ b.2))

/-- Takes elements out one after the other, each at a drawn place. -/
def shuffle {α : Type} (draw : Nat → Nat) : List α → List α
  | [] => []
  | x :: xs =>
    let i : Fin (xs.length + 1) := Fin.ofNat (xs.length + 1) (draw xs.length)
    (x :: xs)[i.val] :: shuffle draw ((x :: xs).eraseIdx i.val)
termination_by xs => xs.length
decreasing_by
  rw [List.length_eraseIdx_of_lt i.isLt]
  exact Nat.lt_succ_self xs.length

/-- The zone with the least load first, or in random order. -/
def orderZones (balance : ZoneBalance) (load : String → Binary64) (draw : Nat → Nat)
    (zones : List String) : List String :=
  match balance with
  | .availabilityFirst => shuffle draw zones
  | .balanced => ((zones.map fun z => (load z, z)).mergeSort idlerFirst).map (·.2)

/-- Whether an offering of the capacity type is available in the zone. An offering that names no
region or zone holds everywhere. -/
def offers (t : InstanceType) (region zone : String) (capacity : CapacityType) : Bool :=
  t.offerings.any fun o =>
    o.available && o.region.all (· == region) && o.zone.all (· == zone) &&
      o.capacityType == capacity

/-- The first capacity type of the claim that is offered in the zone; on demand if the claim asks
for none, or for none that is offered. -/
def capacityType (t : InstanceType) (rs : Requirements) (region zone : String) : CapacityType :=
  match rs.values Label.capacityType with
  | none => .onDemand
  | some asked =>
    ((asked.filterMap CapacityType.ofWord?).find? (offers t region zone)).getD .onDemand

end NodeProvisioner.Placement
