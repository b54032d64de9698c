import NodeProvisioner.Identity.Installation
import NodeProvisioner.Identity.ProviderId
import NodeProvisioner.Machine.Location
import NodeProvisioner.Resource.NodeClaim

/-! Node claims that describe a machine: a claim just launched, and a claim told from a machine. -/
namespace NodeProvisioner

structure LaunchFacts where
  region : String
  zone : String
  machine : MachineId
  shape : InstanceType
  capacityType : CapacityType
  /-- The processor model, if the machine sets one. -/
  cpuType : Option String := none
  /-- The template that it was cloned from. -/
  template : Installation
  /-- The join token that was issued for it. -/
  token : Option String := none
  deriving DecidableEq, Inhabited

namespace NodeClaim

def bindIfSome (m : Labels) (key : String) : Option String → Labels
  | some v => m.insert key v
  | none => m

/-- Adds the taint that keeps pods off an unregistered node, unless its key is there already. -/
def withUnregistered (taints : List Taint) : List Taint :=
  if taints.any (·.key == Taint.unregistered.key) then taints
  else taints ++ [Taint.unregistered]

def launched (claim : NodeClaim) (f : LaunchFacts) : NodeClaim :=
  let labels := ((((claim.labels.insert Label.region f.region).insert Label.zone f.zone).insert
    Label.instanceType f.shape.name).insert Label.capacityType f.capacityType.word).insert
    Label.instanceFamily f.shape.family
  { claim with
    labels := bindIfSome labels Label.cpuType f.cpuType
    annotations := bindIfSome (claim.annotations.insert Annotation.templateId f.template.render)
      Annotation.bootstrapToken f.token
    spec := { claim.spec with taints := withUnregistered claim.spec.taints }
    status := some {
      claim.status.getD {} with
      providerId := some (ProviderId.make f.region f.machine)
      imageId := some f.template.render
      capacity := f.shape.capacity
      allocatable := f.shape.allocatable } }

def familyOf (shape : String) : String := InstanceType.family { name := shape, capacity := {} }

def capacityOf (m : Machine) : Quantities where
  cpuMillis := m.vcpus.toUInt64 * 1000
  memoryBytes := m.memoryMib.getD 0 * UInt64.ofNat Quantities.mib
  pods := 0
  ephemeralStorageBytes :=
    ((m.bootDisk?.bind (·.2.sizeGib?)).getD 0) * UInt64.ofNat Quantities.gib

/-- The claim behind an existing machine. Shape and owner come from its provenance, capacity from
its configuration. -/
def ofMachine (region : String) (seen : Location) (m : Machine) : NodeClaim :=
  let p := m.provenance
  let place : Labels := .ofList [(Label.region, region), (Label.zone, seen.zone)]
  let shaped := bindIfSome (bindIfSome place Label.instanceType p.instanceType)
    Label.instanceFamily (p.instanceType.map familyOf)
  { name := some (p.nodeClaim.getD seen.name)
    labels := bindIfSome (bindIfSome shaped Label.capacityType p.capacityType) Label.cpuType
      (m.cpu.map (·.model))
    spec := { nodeClass := { name := p.nodeClass.getD "" } }
    status := some {
      providerId := some (ProviderId.make region seen.machine)
      imageId := p.template
      capacity := capacityOf m
      allocatable := capacityOf m } }

end NodeClaim
end NodeProvisioner
