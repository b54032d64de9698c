import NodeProvisioner.Resource.Quantities
import NodeProvisioner.Resource.Requirement
import NodeProvisioner.Resource.Label
import NodeProvisioner.Fault
import NodeProvisioner.Text.Cut

/-! Machine shapes the scheduler can ask for, and the offerings that say where, how and at what
price a shape can be had. -/
namespace NodeProvisioner

inductive CapacityType where
  | onDemand
  | spot
  | reserved
  deriving DecidableEq, Inhabited

namespace CapacityType

def word : CapacityType → String
  | onDemand => "on-demand"
  | spot => "spot"
  | reserved => "reserved"

def ofWord? : String → Option CapacityType
  | "on-demand" => some onDemand
  | "spot" => some spot
  | "reserved" => some reserved
  | _ => none

@[simp] theorem ofWord?_word (c : CapacityType) : ofWord? c.word = some c := by
  cases c <;> rfl

def parse (s : String) : Except Fault CapacityType :=
  match ofWord? s with
  | some c => .ok c
  | none => .error (.invalid ("unknown capacity type '" ++ s ++ "'"))

def ofDocument? (d : Document) : Option CapacityType := d.word? >>= ofWord?

end CapacityType

structure Overhead where
  kubeReserved : Quantities := {}
  systemReserved : Quantities := {}
  evictionThreshold : Quantities := {}
  deriving DecidableEq, Inhabited

namespace Overhead

def total (o : Overhead) : Quantities :=
  (o.kubeReserved.add o.systemReserved).add o.evictionThreshold

def toDocument (o : Overhead) : Document :=
  .record [("kubeReserved", o.kubeReserved.toDocument),
    ("systemReserved", o.systemReserved.toDocument),
    ("evictionThreshold", o.evictionThreshold.toDocument)]

def ofDocument? (d : Document) : Option Overhead := do
  let fs ← d.fields? ["kubeReserved", "systemReserved", "evictionThreshold"]
  return {
    kubeReserved := ← fs.withDefault "kubeReserved" {} Quantities.ofDocument?
    systemReserved := ← fs.withDefault "systemReserved" {} Quantities.ofDocument?
    evictionThreshold := ← fs.withDefault "evictionThreshold" {} Quantities.ofDocument? }

end Overhead

/-- One way to obtain a shape; the labels name the region, zone, capacity type and shape. -/
structure Offering where
  price : Binary64
  available : Bool
  labels : Labels := ∅
  deriving DecidableEq, Inhabited

namespace Offering

def make (instanceType region zone : String) (capacity : CapacityType) (price : Binary64)
    (available : Bool) : Offering where
  price := price
  available := available
  labels := .ofList [(Label.instanceType, instanceType), (Label.region, region),
    (Label.zone, zone), (Label.capacityType, capacity.word)]

def region (o : Offering) : Option String := o.labels.get? Label.region

def zone (o : Offering) : Option String := o.labels.get? Label.zone

/-- An offering that names no known capacity type is on demand. -/
def capacityType (o : Offering) : CapacityType :=
  ((o.labels.get? Label.capacityType).bind CapacityType.ofWord?).getD .onDemand

def isCompatible (o : Offering) (rs : Requirements) : Bool :=
  o.available && rs.compatible o.labels

def toDocument (o : Offering) : Document :=
  .record [("price", .decimal o.price), ("available", .bool o.available),
    ("requirements", .ofTextMap o.labels)]

def ofDocument? (d : Document) : Option Offering := do
  let fs ← d.fields? ["price", "available", "requirements"]
  return {
    price := ← fs.required "price" Document.number?
    available := ← fs.required "available" Document.bool?
    labels := ← fs.withDefault "requirements" ∅ Document.textMap? }

end Offering

structure InstanceType where
  name : String
  capacity : Quantities
  overhead : Overhead := {}
  offerings : List Offering := []
  deriving DecidableEq, Inhabited

namespace InstanceType

def family (t : InstanceType) : String :=
  match Text.cut? '.' t.name with
  | some (family, _) => family
  | none => t.name

def allocatable (t : InstanceType) : Quantities := t.capacity.sub t.overhead.total

def compatibleOfferings (t : InstanceType) (rs : Requirements) : List Offering :=
  t.offerings.filter (·.isCompatible rs)

/-- The least price among the offerings that `rs` allows. -/
def cheapestPrice? (t : InstanceType) (rs : Requirements) : Option Binary64 :=
  match (t.compatibleOfferings rs).map (·.price) with
  | [] => none
  | p :: ps => some (ps.foldl Binary64.min p)

def toDocument (t : InstanceType) : Document :=
  .record [("name", .text t.name), ("capacity", t.capacity.toDocument),
    ("overhead", t.overhead.toDocument), ("offerings", .list (t.offerings.map (·.toDocument)))]

def ofDocument? (d : Document) : Option InstanceType := do
  let fs ← d.fields? ["name", "capacity", "overhead", "offerings"]
  return {
    name := ← fs.required "name" Document.text?
    capacity := ← fs.required "capacity" Quantities.ofDocument?
    overhead := ← fs.withDefault "overhead" {} Overhead.ofDocument?
    offerings := ← fs.withDefault "offerings" [] (Document.list? Offering.ofDocument?) }

end InstanceType
end NodeProvisioner
