import NodeProvisioner.Capacity.Zone
import NodeProvisioner.Digest.Fingerprint
import NodeProvisioner.Machine.Location

/-! The inventory of template machines: for each region a snapshot that is replaced as a whole. -/
namespace NodeProvisioner

inductive Usability where
  | available
  /-- The hypervisor is at work on it. -/
  | locked
  /-- Its configuration cannot be read, or it has no disk. -/
  | unknown
  /-- Its disks lie on more than one storage. -/
  | scattered
  deriving DecidableEq, Inhabited

structure TemplateEntry where
  /-- For managed templates the name of their class. -/
  name : String := ""
  region : String := ""
  zone : String := ""
  machine : MachineId := 0
  /-- The fingerprint of the bootstrap settings. -/
  fingerprint : String := ""
  tags : List String := []
  /-- The storage of all disks, if it is only one. -/
  storageId : Option String := none
  /-- That storage is shared across zones. -/
  shared : Bool := false
  usability : Usability := .unknown
  deriving DecidableEq, Inhabited

namespace TemplateEntry

/-- A machine with a lock in its options is not usable, whatever its disks. -/
def usabilityOf (m : Machine) : Usability :=
  if m.other.contains "lock" then .locked
  else
    match m.storageIds.toList with
    | [] => .unknown
    | [_] => .available
    | _ => .scattered

def onlyStorage? (m : Machine) : Option String :=
  match m.storageIds.toList with
  | [id] => some id
  | _ => none

/-- Describes a template by its configuration; `storage` is the record of its only storage. -/
def classify (region : String) (seen : Location) (m : Machine) (storage : Option Storage) :
    TemplateEntry where
  name := m.name.getD seen.name
  region := region
  zone := seen.zone
  machine := seen.machine
  fingerprint := Fingerprint.ofPairs m.cloudInit.entries
  tags := m.tags
  storageId := onlyStorage? m
  shared := (storage.map (·.shared)).getD false
  usability := usabilityOf m

def unreadable (region : String) (seen : Location) : TemplateEntry :=
  { name := seen.name, region, zone := seen.zone, machine := seen.machine }

end TemplateEntry

inductive TemplateFilter where
  | region (r : String)
  | zone (z : String)
  | name (n : String)
  | machine (id : MachineId)
  | tag (t : String)
  | shared
  deriving DecidableEq

def TemplateFilter.accepts (e : TemplateEntry) : TemplateFilter → Bool
  | .region r => e.region == r
  | .zone z => e.zone == z
  | .name n => e.name == n
  | .machine id => e.machine == id
  | .tag t => e.tags.contains t
  | .shared => e.shared

/-- The latest snapshot of each region. -/
abbrev Inventory := KeyMap String (List TemplateEntry)

namespace Inventory

def publish (inv : Inventory) (region : String) (entries : List TemplateEntry) : Inventory :=
  KeyMap.insert inv region entries

def listRegion (inv : Inventory) (region : String) : List TemplateEntry :=
  (inv.get? region).getD []

def select (inv : Inventory) (filters : List TemplateFilter) : List TemplateEntry :=
  inv.values.flatten.filter fun e => e.usability == .available && filters.all (·.accepts e)

/-- The template to clone from: one in the zone, else one on shared storage in the region. -/
def findForZone (inv : Inventory) (region zone name : String) : Option TemplateEntry :=
  (inv.select [.region region, .name name, .zone zone]).head? <|>
    (inv.select [.region region, .name name, .shared]).head?

def fingerprint? (inv : Inventory) (region : String) (machine : MachineId) : Option String :=
  (inv.select [.region region, .machine machine]).head?.map (·.fingerprint)

end Inventory
end NodeProvisioner
