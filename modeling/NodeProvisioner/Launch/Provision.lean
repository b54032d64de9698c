import NodeProvisioner.Launch.Networking
import NodeProvisioner.Launch.NodeDescription
import NodeProvisioner.Launch.Placement
import NodeProvisioner.Launch.Shape
import NodeProvisioner.Launch.Undo
import NodeProvisioner.Settings
import NodeProvisioner.World.MachineIds

/-! The launch of a node at one place: capacity is reserved, a template is cloned, and the clone is
shaped, connected, given its bootstrap data and started. Whatever took effect is undone if a later
step fails. -/
namespace NodeProvisioner

/-- One place to try for a claim. -/
structure Candidate where
  claim : NodeClaim
  cls : NodeClass
  shape : InstanceType
  region : String
  zone : String
  deriving DecidableEq, Inhabited

/-- A job that records what it would take to undo it. -/
structure Undoable (α : Type) where
  run : UndoStack → Plan (Except Fault α × UndoStack)

namespace Undoable

variable {α β : Type}

/-- Goes on only after a success; what was recorded stays recorded after a failure. -/
def bind (u : Undoable α) (f : α → Undoable β) : Undoable β where
  run stack := do
    match ← u.run stack with
    | (.ok a, stack) => (f a).run stack
    | (.error e, stack) => return (.error e, stack)

instance : Monad Undoable where
  pure a := ⟨fun stack => .done (.ok a, stack)⟩
  bind := bind

/-- A job that leaves nothing to undo. -/
instance : MonadLift Job Undoable := ⟨fun j => ⟨fun stack => do return (← j.run, stack)⟩⟩

def record (step : UndoStep) : Undoable Unit := ⟨fun stack => .done (.ok (), stack.push step)⟩

end Undoable

namespace Candidate

def noTemplate (c : Candidate) : Fault :=
  .notFound "template" (c.cls.spec.template ++ " for " ++ c.region ++ "/" ++ c.zone)

def noBootDisk (t : TemplateEntry) : Fault := .configuration t.name "template has no boot disk"

/-- The boot disk's size in GiB: what the class asks for, or the shape's storage if that is more. -/
def diskGib (c : Candidate) : UInt64 :=
  max c.cls.spec.bootDevice.size c.shape.capacity.ephemeralStorageGib

def storage (c : Candidate) (t : TemplateEntry) : Option String :=
  c.cls.spec.bootDevice.storage <|> t.storageId

def wanted (c : Candidate) (t : TemplateEntry) (machine : MachineId) : Reservation :=
  { Reservation.ofCapacity machine c.shape.capacity c.diskGib with
    storageId := c.storage t, numa := c.cls.spec.numaPinning }

def cloneRequest (c : Candidate) (t : TemplateEntry) (machine : MachineId) : CloneRequest where
  sourceZone := t.zone
  source := t.machine
  machine := machine
  targetZone := c.zone
  name := c.claim.displayName
  full := true
  storage := c.storage t
  pool := c.cls.spec.resourcePool

def installation (c : Candidate) (t : TemplateEntry) : Installation :=
  { region := c.region, zone := t.zone, machine := t.machine }

def capacityType (c : Candidate) : CapacityType :=
  Placement.capacityType c.shape c.claim.requirements c.region c.zone

def provenance (c : Candidate) (t : TemplateEntry) : Provenance where
  nodeClaim := some c.claim.displayName
  nodeClass := some c.cls.displayName
  instanceType := some c.shape.name
  capacityType := some c.capacityType.word
  template := some (c.installation t).render

def facts (c : Candidate) (t : TemplateEntry) (machine : MachineId) (clone : Machine)
    (token : Option String) : LaunchFacts where
  region := c.region
  zone := c.zone
  machine := machine
  shape := c.shape
  capacityType := c.capacityType
  cpuType := clone.cpu.map (·.model)
  template := c.installation t
  token := token

/-- The disk is smaller than wanted; a size that is not known counts as nothing. -/
def needsResize (c : Candidate) (boot : Disk) : Bool := boot.sizeMib?.getD 0 < c.diskGib * 1024

def applyGroups (c : Candidate) (machine : MachineId) : List SecurityGroup → Job Unit
  | [] => return ()
  | g :: gs => do
    Hypervisor.send c.region (.addFirewallRule c.zone machine (.ofGroup g))
    applyGroups c machine gs

variable (settings : Settings) (c : Candidate) (t : TemplateEntry) (machine : MachineId)

/-- Reserves capacity and clones the template. A clone that is refused leaves nothing to delete:
the id may be another's. -/
def cloneTemplate : Undoable Reservation := do
  let granted ← Capacity.send (.allocate c.region c.zone (c.wanted t machine))
  Undoable.record (.releaseCapacity c.region c.zone granted)
  let task ← Hypervisor.send c.region (.clone (c.cloneRequest t machine))
  Undoable.record (.deleteMachine c.zone machine)
  Task.succeed settings.taskPatience true c.region t.zone task
  return granted

def shapeClone (granted : Reservation) (clone : Machine) : Job (List GuestInterface) := do
  let options := Shape.options settings.clusterName c.cls.spec.tags clone granted (c.provenance t)
  Hypervisor.send c.region (.configure c.zone machine options)
  match clone.bootDisk? with
  | none => Job.fail (noBootDisk t)
  | some (slot, boot) =>
    if c.needsResize boot then
      Hypervisor.send c.region (.resizeDisk c.zone machine slot c.diskGib)
    let views ← Networking.configure ⟨c.region, c.zone, machine⟩ clone
    c.applyGroups machine c.cls.spec.securityGroups
    return views

def deliverDocuments (clone : Machine) (views : List GuestInterface) : Undoable NodeClaim := do
  let token ← (Bootstrap.send (.issueToken c.claim.displayName settings.tokenLifetimeSecs))
  Undoable.record (.revokeToken token.id)
  let node := c.claim.launched (c.facts t machine clone (some token.id))
  let ca ← Bootstrap.send .clusterCa
  let values := CloudInit.values node c.cls c.shape settings.clusterName ca token views
  let documents ← Bootstrap.send (.render values)
  Hypervisor.send c.region (.attachDocuments c.zone machine settings.isoStorage documents)
  return node

def describe (clone : Machine) (views : List GuestInterface) : Undoable NodeClaim :=
  match c.cls.spec.metadataDelivery with
  | .outOfBand => return c.claim.launched (c.facts t machine clone none)
  | .cdrom => deliverDocuments settings c t machine clone views

def provision : Undoable NodeClaim := do
  let granted ← cloneTemplate settings c t machine
  let clone ← Hypervisor.send c.region (.readMachine c.zone machine)
  let views ← shapeClone settings c t machine granted clone
  let node ← describe settings c t machine clone views
  let task ← Hypervisor.send c.region (.start c.zone machine)
  Task.succeed settings.taskPatience true c.region c.zone task
  return node

/-- Ends a launch: a success stands, and the usage of the zone is read anew; a failure is undone,
and the machine id is given free if nothing is left of it. -/
def conclude (result : Except Fault NodeClaim) (stack : UndoStack) : Job NodeClaim := do
  match result with
  | .ok node =>
    (Capacity.send (.refresh c.region c.zone)).tolerate
    return node
  | .error e =>
    let failed ← stack.unwind settings.taskPatience c.region
    if failed = 0 then MachineIds.release c.region machine
    Job.fail e

/-- Launches a node at the candidate place, or leaves nothing behind. -/
def launch : Job NodeClaim := do
  let inventory ← Memory.access .inventory
  match inventory.findForZone c.region c.zone c.cls.spec.template with
  | none => Job.fail c.noTemplate
  | some t => do
    connect c.region
    let machine ← MachineIds.allocate c.region settings.machineIdFloor
    let (result, stack) ← (provision settings c t machine).run {}
    conclude settings c machine result stack

end Candidate
end NodeProvisioner
