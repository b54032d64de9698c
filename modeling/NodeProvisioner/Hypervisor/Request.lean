import NodeProvisioner.Bootstrap.CloudInit
import NodeProvisioner.Machine.Location

/-! Requests to the hypervisor cluster of a region, each with the type of its answer. Long
operations answer with the id of a task that has to be waited for. -/
namespace NodeProvisioner

abbrev TaskId := String

structure TaskStatus where
  running : Bool := false
  exit : Option String := none
  deriving DecidableEq, Inhabited

namespace TaskStatus

def isFinished (s : TaskStatus) : Bool := !s.running

/-- A task succeeded if it stopped with the exit status `OK`. -/
def isSuccess (s : TaskStatus) : Bool := !s.running && s.exit == some "OK"

end TaskStatus

structure CloneRequest where
  sourceZone : String
  source : MachineId
  machine : MachineId
  targetZone : String
  name : String
  /-- Copy the disks instead of linking them. -/
  full : Bool
  storage : Option String
  pool : Option String
  deriving DecidableEq, Inhabited

structure FirewallRule where
  kind : String
  action : String
  interface : Option String
  enabled : Bool
  deriving DecidableEq, Inhabited

def FirewallRule.ofGroup (g : SecurityGroup) : FirewallRule :=
  { kind := "group", action := g.name, interface := g.interface, enabled := true }

structure DownloadRequest where
  url : String
  content : String
  fileName : String
  checksum : Option String
  checksumAlgorithm : Option String
  deriving DecidableEq, Inhabited

namespace Hypervisor

inductive Request where
  /-- The next free machine id at or above the floor. -/
  | nextId (floor : MachineId)
  | findMachine (id : MachineId)
  | findTemplate (zone name : String)
  | listTemplates
  | readMachine (zone : String) (id : MachineId)
  | clone (request : CloneRequest)
  | create (zone : String) (id : MachineId) (options : Change)
  | configure (zone : String) (id : MachineId) (options : Change)
  | resizeDisk (zone : String) (id : MachineId) (slot : String) (gib : UInt64)
  | start (zone : String) (id : MachineId)
  | stop (zone : String) (id : MachineId)
  | delete (zone : String) (id : MachineId)
  | addFirewallRule (zone : String) (id : MachineId) (rule : FirewallRule)
  | regenerateCloudInit (zone : String) (id : MachineId)
  | attachDocuments (zone : String) (id : MachineId) (storage : String)
      (documents : CloudInit.Documents)
  | listContent (zone storage content : String)
  | download (zone storage : String) (request : DownloadRequest)
  | deleteVolume (zone volume : String)
  | taskStatus (zone : String) (task : TaskId)
  deriving DecidableEq

@[reducible] def Request.Answer : Request → Type
  | .nextId _ => MachineId
  | .findMachine _ => Option Location
  | .findTemplate _ _ => Option MachineId
  | .listTemplates => List Location
  | .readMachine _ _ => Machine
  | .clone _ => TaskId
  | .create _ _ _ => TaskId
  | .configure _ _ _ => Unit
  | .resizeDisk _ _ _ _ => Unit
  | .start _ _ => TaskId
  | .stop _ _ => TaskId
  | .delete _ _ => TaskId
  | .addFirewallRule _ _ _ => Unit
  | .regenerateCloudInit _ _ => Unit
  | .attachDocuments _ _ _ _ => Unit
  | .listContent _ _ _ => List String
  | .download _ _ _ => TaskId
  | .deleteVolume _ _ => TaskId
  | .taskStatus _ _ => TaskStatus

end Hypervisor
end NodeProvisioner
