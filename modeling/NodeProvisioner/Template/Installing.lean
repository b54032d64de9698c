import NodeProvisioner.Identity.Installation
import NodeProvisioner.Settings
import NodeProvisioner.Template.Blueprint
import NodeProvisioner.Template.Sync
import NodeProvisioner.World.MachineIds
import NodeProvisioner.World.Waiting

/-! Installing a template class: in each target zone the image is downloaded and a template machine
is made from it. A zone that fails does not keep the others from being tried, and what was
installed is recorded. -/
namespace NodeProvisioner

namespace TemplateClass

def imageFile (t : TemplateClass) : String := Image.fileName t.displayName t.spec.image

def currentStatus (t : TemplateClass) : Status := t.status.getD {}

def context (t : TemplateClass) : String := "template " ++ t.displayName

/-- The records of the storages, without those that the region does not know. -/
def storagesOf (region : String) : List String → Plan (List Storage)
  | [] => return []
  | id :: rest => do
    let found ← (Question.storage region id).ask
    return found.toList ++ (← storagesOf region rest)

def rolesIn (t : TemplateClass) (region : String) : Job StorageRoles := do
  let storages ← storagesOf region t.spec.storageIds
  Job.ofExcept ((StorageRoles.resolve t.spec.storageIds storages).mapError (·.fault region))

end TemplateClass

namespace Installing

def mentionsChecksum (exit : String) : Bool :=
  Text.includes "checksum".toList (Image.lower exit).toList

def downloadFailure (t : TemplateClass) (volume exit : String) : Fault :=
  if mentionsChecksum exit then
    .invalidField t.displayName "spec.image.checksum"
      ("download of " ++ t.spec.image.url ++ " failed verification: " ++ exit)
  else .transient ("download " ++ volume) exit

/-- An algorithm is named only together with a checksum. -/
def downloadRequest (t : TemplateClass) : DownloadRequest where
  url := t.spec.image.url
  content := Image.importContent
  fileName := t.imageFile
  checksum := t.spec.image.checksum
  checksumAlgorithm := t.spec.image.checksum.map fun _ => t.spec.image.checksumAlgorithm.word

variable (settings : Settings) (t : TemplateClass) (region zone : String) (roles : StorageRoles)

def ensureImage : Job Unit := do
  let storage := roles.imports.id
  let volume := Image.volume storage t.imageFile
  let present ← Hypervisor.send region (.listContent zone storage Image.importContent)
  if present.contains volume then return ()
  let task ← Hypervisor.send region (.download zone storage (downloadRequest t))
  let status ← Task.finish settings.taskPatience true region zone task
  if status.isSuccess then return ()
  Job.fail (downloadFailure t volume (status.exit.getD ""))

/-- Deletes what a failed creation may have left, as far as that is possible. -/
def cleanUp (machine : MachineId) : Plan Unit := do
  match ← (Hypervisor.send region (.delete zone machine)).run with
  | .ok task => (Task.succeed settings.taskPatience true region zone task).tolerate
  | .error _ => return ()

/-- Creates the template machine. A creation that is refused leaves nothing to clean up: the id
may be another's. -/
def createMachine : Job MachineId := do
  let machine ← MachineIds.allocate region settings.machineIdFloor
  let options := Blueprint.options t.displayName t.spec roles t.imageFile
  let task ← Hypervisor.send region (.create zone machine options)
  match ← (Task.succeed settings.taskPatience true region zone task).attempt with
  | .ok _ => return machine
  | .error e =>
    cleanUp settings region zone machine
    Job.fail e

def ensureMachine : Job MachineId := do
  match ← Hypervisor.send region (.findTemplate zone t.displayName) with
  | some machine => return machine
  | none => createMachine settings t region zone roles

/-- Installs in one zone, under its lock; then the inventory of the region is renewed. -/
def inZone : Job MachineId := do
  connect region
  let machine ← withZone region zone do
    ensureImage settings t region zone roles
    ensureMachine settings t region zone roles
  (Sync.region region).tolerate
  return machine

structure Ledger where
  installed : List String
  faults : List Fault := []

/-- An entry of another place, or one that cannot be read. -/
def isElsewhere (entry : Installation) (recorded : String) : Bool :=
  match Installation.parse? recorded with
  | some i => i.region != entry.region || i.zone != entry.zone
  | none => true

/-- Records an installation in place of what was recorded for its zone. -/
def recordEntry (installed : List String) (entry : Installation) : List String :=
  installed.filter (isElsewhere entry) ++ [entry.render]

def Ledger.add (l : Ledger) (region zone : String) : Except Fault MachineId → Ledger
  | .ok machine => { l with installed := recordEntry l.installed { region, zone, machine } }
  | .error e => { l with faults := l.faults ++ [e] }

def inZones : List String → Ledger → Plan Ledger
  | [], l => return l
  | zone :: rest, l => do
    let result ← (inZone settings t region zone roles).run
    inZones rest (l.add region zone result)

def inRegions : List String → Ledger → Plan Ledger
  | [], l => return l
  | region :: rest, l => do
    match ← (t.rolesIn region).run with
    | .ok roles => inRegions rest (← inZones settings t region roles roles.zones l)
    | .error e => inRegions rest { l with faults := l.faults ++ [e] }

end Installing

namespace TemplateClass

/-- Another image than the desired one is installed somewhere. -/
def imageConflict (t : TemplateClass) : Option Fault :=
  match t.currentStatus.imageId with
  | none => none
  | some installed =>
    if installed != t.imageFile && !t.currentStatus.zones.isEmpty then
      some (.configuration t.displayName ("image " ++ installed ++ " is installed but " ++
        t.imageFile ++ " is desired; delete the template first"))
    else none

def noStorage (t : TemplateClass) : Fault :=
  .configuration t.displayName "no region offers storage for this template"

def targetRegions (t : TemplateClass) : Plan (List String) :=
  match t.spec.region with
  | some region => return [region]
  | none => Question.clusterRegions.ask

def writeUnlessEmpty (t : TemplateClass) (status : Status) : Job Unit := do
  unless status.zones.isEmpty do writeStatus t.displayName status

/-- Installs the class in all zones of its regions and stores what is installed. -/
def create (settings : Settings) (t : TemplateClass) : Job Status := do
  match t.imageConflict with
  | some e => Job.fail e
  | none =>
    let regions ← t.targetRegions
    let ledger ← Installing.inRegions settings t regions { installed := t.currentStatus.zones }
    let status : Status := { imageId := some t.imageFile, zones := ledger.installed }
    t.writeUnlessEmpty status
    match Fault.join t.context ledger.faults with
    | some e => Job.fail e
    | none => if status.zones.isEmpty then Job.fail t.noStorage else return status

end TemplateClass
end NodeProvisioner
