import NodeProvisioner.Machine.Change
import NodeProvisioner.Machine.Provenance
import NodeProvisioner.Machine.Setting

/-! The configuration of a machine as a typed value. Reading and writing go through the machine's
settings, one for each option of the hypervisor's flat form. -/
namespace NodeProvisioner

abbrev MachineId := UInt32

structure Machine where
  name : Option String := none
  /-- Free text; of managed machines it holds the provenance. -/
  description : Option String := none
  tags : List String := []
  template : Bool := false
  cores : Option UInt32 := none
  sockets : Option UInt32 := none
  memoryMib : Option UInt64 := none
  cpu : Option CpuModel := none
  affinity : Option CpuSet := none
  numa : Bool := false
  machineType : Option String := none
  agent : Option String := none
  vga : Option String := none
  smbios : Option Smbios := none
  nics : KeyMap UInt8 Nic := ∅
  addressing : KeyMap UInt8 Addressing := ∅
  passthrough : KeyMap UInt8 Passthrough := ∅
  /-- Disks and optical drives by slot. -/
  disks : KeyMap String Disk := ∅
  cloudInit : KeyMap String String := ∅
  /-- What has no meaning here. -/
  other : KeyMap String String := ∅
  deriving DecidableEq, Inhabited

namespace Machine

/-- Takes one setting over; of two settings of one thing the later counts. -/
def apply (m : Machine) : Setting → Machine
  | .name s => { m with name := some s }
  | .description s => { m with description := some s }
  | .tags ts => { m with tags := ts }
  | .template on => { m with template := on }
  | .cores n => { m with cores := some n }
  | .sockets n => { m with sockets := some n }
  | .memory n => { m with memoryMib := some n }
  | .cpu c => { m with cpu := some c }
  | .affinity s => { m with affinity := some s }
  | .numa on => { m with numa := on }
  | .machineType s => { m with machineType := some s }
  | .agent s => { m with agent := some s }
  | .vga s => { m with vga := some s }
  | .smbios b => { m with smbios := some b }
  | .nic i n => { m with nics := m.nics.insert i n }
  | .addressing i a => { m with addressing := m.addressing.insert i a }
  | .passthrough i p => { m with passthrough := m.passthrough.insert i p }
  | .disk slot d => { m with disks := m.disks.insert slot d }
  | .cloudInit key value => { m with cloudInit := m.cloudInit.insert key value }
  | .other key value => { m with other := m.other.insert key value }

/-- Reads options in key order; the first that cannot be read decides the error. -/
def ofOptions (o : Options) : Except Unreadable Machine := do
  let settings ← o.entries.mapM fun e => Setting.read e.1 e.2
  return settings.foldl apply {}

def settings (m : Machine) : List Setting :=
  (m.name.map Setting.name).toList ++ (m.description.map Setting.description).toList ++
    (if m.tags.isEmpty then [] else [.tags m.tags]) ++
    (if m.template then [.template true] else []) ++
    (m.cores.map Setting.cores).toList ++ (m.sockets.map Setting.sockets).toList ++
    (m.memoryMib.map Setting.memory).toList ++ (m.cpu.map Setting.cpu).toList ++
    (m.affinity.map Setting.affinity).toList ++ (if m.numa then [.numa true] else []) ++
    (m.machineType.map Setting.machineType).toList ++ (m.agent.map Setting.agent).toList ++
    (m.vga.map Setting.vga).toList ++ (m.smbios.map Setting.smbios).toList ++
    m.nics.entries.map (fun e => .nic e.1 e.2) ++
    m.addressing.entries.map (fun e => .addressing e.1 e.2) ++
    m.passthrough.entries.map (fun e => .passthrough e.1 e.2) ++
    m.disks.entries.map (fun e => .disk e.1 e.2) ++
    m.cloudInit.entries.map (fun e => .cloudInit e.1 e.2) ++
    m.other.entries.map (fun e => .other e.1 e.2)

def toChange (m : Machine) : Change := Change.putAll {} (m.settings.map Setting.write)

def storageIds (m : Machine) : KeySet String :=
  .ofList ((m.disks.values.filter Disk.isPlain).filterMap Disk.storageId?)

def bootOrderDisk? (m : Machine) : Option (String × Disk) := do
  let order ← (m.other.get? "boot").bind (Text.after? "order=")
  (Text.pieces ';' order).findSome? fun slot => (m.disks.get? slot).map (slot, ·)

/-- The disk that the machine boots from: by the boot order, else the first plain disk. -/
def bootDisk? (m : Machine) : Option (String × Disk) :=
  m.bootOrderDisk? <|> m.disks.entries.find? fun e => e.2.isPlain

def hasCloudInitDrive (m : Machine) : Bool := m.disks.values.any Disk.isCloudInit

/-- Cores over all sockets; either count is one if it is not said. -/
def vcpus (m : Machine) : UInt32 := m.sockets.getD 1 * m.cores.getD 1

def provenance (m : Machine) : Provenance :=
  match m.description with
  | some d => .parse d
  | none => {}

end Machine
end NodeProvisioner
