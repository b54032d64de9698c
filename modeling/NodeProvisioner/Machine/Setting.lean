import NodeProvisioner.Device.Address
import NodeProvisioner.Device.CpuModel
import NodeProvisioner.Device.CpuSet
import NodeProvisioner.Device.Disk
import NodeProvisioner.Device.Nic
import NodeProvisioner.Device.Passthrough
import NodeProvisioner.Device.Smbios

/-! One option of a machine with its meaning. The key decides what the value means: a fixed name,
a bootstrap setting, a device name with a number behind it, a disk slot, or none of these. -/
namespace NodeProvisioner

inductive Setting where
  | name (s : String)
  | description (s : String)
  | tags (ts : List String)
  | template (on : Bool)
  | cores (n : UInt32)
  | sockets (n : UInt32)
  | memory (mib : UInt64)
  | cpu (c : CpuModel)
  | affinity (s : CpuSet)
  | numa (on : Bool)
  | machineType (s : String)
  | agent (s : String)
  | vga (s : String)
  | smbios (b : Smbios)
  | nic (index : UInt8) (n : Nic)
  | addressing (index : UInt8) (a : Addressing)
  | passthrough (index : UInt8) (p : Passthrough)
  | disk (slot : String) (d : Disk)
  | cloudInit (key value : String)
  | other (key value : String)
  deriving DecidableEq

namespace Setting

/-- The settings that end up in a guest's bootstrap data. -/
def cloudInitKeys : List String :=
  ["cicustom", "cipassword", "citype", "ciupgrade", "ciuser", "nameserver", "searchdomain",
    "sshkeys"]

def diskBuses : List String := ["scsi", "virtio", "sata", "ide", "efidisk", "tpmstate"]

def index? (device key : String) : Option UInt8 := (Text.after? device key).bind Text.readUInt8?

/-- A bus with a row of digits behind it. -/
def isDiskSlot (key : String) : Bool :=
  diskBuses.any fun bus =>
    match Text.after? bus key with
    | some rest => !rest.isEmpty && Text.isDigits rest
    | none => false

def readTags (s : String) : List String :=
  (Text.piecesBy (fun c => c == ';' || c == ',' || c == ' ') s).filter (!·.isEmpty)

def readNumber {α : Type} (read : String → Option α) (key value : String) :
    Except Unreadable α :=
  match read value with
  | some n => .ok n
  | none => .error (.number "vm config" key value)

/-- Reads a value under a key that is not a fixed name. -/
def readNumbered (key value : String) : Except Unreadable Setting :=
  match index? "net" key with
  | some i => (nic i ·) <$> Nic.parse value
  | none =>
    match index? "ipconfig" key with
    | some i => (addressing i ·) <$> Addressing.parse value
    | none =>
      match index? "hostpci" key with
      | some i => (passthrough i ·) <$> Passthrough.parse value
      | none => if isDiskSlot key then (disk key ·) <$> Disk.parse value else .ok (other key value)

def read (key value : String) : Except Unreadable Setting :=
  match key with
  | "name" => .ok (name value)
  | "description" => .ok (description value)
  | "tags" => .ok (tags (readTags value))
  | "template" => .ok (template (value == "1"))
  | "cores" => cores <$> readNumber Text.readUInt32? key value
  | "sockets" => sockets <$> readNumber Text.readUInt32? key value
  | "memory" => memory <$> readNumber Text.readUInt64? key value
  | "cpu" => .ok (cpu (.parse value))
  | "affinity" => affinity <$> CpuSet.parse value
  | "numa" => .ok (numa (value == "1"))
  | "machine" => .ok (machineType value)
  | "agent" => .ok (agent value)
  | "vga" => .ok (vga value)
  | "smbios1" => .ok (smbios (.parse value))
  | _ => if cloudInitKeys.contains key then .ok (cloudInit key value) else readNumbered key value

def numbered (device : String) (index : UInt8) : String := device ++ Text.numeral index.toNat

def writeTags (ts : List String) : String := String.intercalate ";" ts

def writeFlag (on : Bool) : String := if on then "1" else "0"

def write : Setting → String × String
  | name s => ("name", s)
  | description s => ("description", s)
  | tags ts => ("tags", writeTags ts)
  | template on => ("template", writeFlag on)
  | cores n => ("cores", Text.numeral n.toNat)
  | sockets n => ("sockets", Text.numeral n.toNat)
  | memory n => ("memory", Text.numeral n.toNat)
  | cpu c => ("cpu", c.render)
  | affinity s => ("affinity", s.render)
  | numa on => ("numa", writeFlag on)
  | machineType s => ("machine", s)
  | agent s => ("agent", s)
  | vga s => ("vga", s)
  | smbios b => ("smbios1", b.render)
  | nic i n => (numbered "net" i, n.render)
  | addressing i a => (numbered "ipconfig" i, a.render)
  | passthrough i p => (numbered "hostpci" i, p.render)
  | disk slot d => (slot, d.render)
  | cloudInit key value => (key, value)
  | other key value => (key, value)

end Setting
end NodeProvisioner
