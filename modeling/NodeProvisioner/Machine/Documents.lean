import NodeProvisioner.Device.Documents
import NodeProvisioner.Machine.Location

/-! Machines, where they live, and changes to them as documents. -/
namespace NodeProvisioner

namespace Change

def fields (c : Change) : Fields :=
  [("set", .ofTextMap c.set), ("delete", .ofTexts c.delete.toList)]

def toDocument (c : Change) : Document := .record c.fields

end Change

namespace Provenance

def toDocument (p : Provenance) : Document :=
  .record [("node_claim", .ofOption .text p.nodeClaim),
    ("node_class", .ofOption .text p.nodeClass),
    ("instance_type", .ofOption .text p.instanceType),
    ("capacity_type", .ofOption .text p.capacityType), ("template", .ofOption .text p.template)]

def ofDocument? (d : Document) : Option Provenance := do
  let fs ← d.record?
  return {
    nodeClaim := ← fs.optional "node_claim" Document.text?
    nodeClass := ← fs.optional "node_class" Document.text?
    instanceType := ← fs.optional "instance_type" Document.text?
    capacityType := ← fs.optional "capacity_type" Document.text?
    template := ← fs.optional "template" Document.text? }

end Provenance

namespace Machine

/-- Devices by their index, which is the name of a field. -/
def indexed {β : Type} (write : β → Document) (m : KeyMap UInt8 β) : Document :=
  .record (m.entries.map fun e => (Text.numeral e.1.toNat, write e.2))

def toDocument (m : Machine) : Document :=
  .record [("name", .ofOption .text m.name), ("description", .ofOption .text m.description),
    ("tags", .ofTexts m.tags), ("template", .bool m.template),
    ("cores", .ofOption .ofUInt32 m.cores), ("sockets", .ofOption .ofUInt32 m.sockets),
    ("memory_mib", .ofOption .ofUInt64 m.memoryMib), ("cpu", .ofOption CpuModel.toDocument m.cpu),
    ("affinity", .ofOption CpuSet.toDocument m.affinity), ("numa", .bool m.numa),
    ("machine", .ofOption .text m.machineType), ("agent", .ofOption .text m.agent),
    ("vga", .ofOption .text m.vga), ("smbios", .ofOption Smbios.toDocument m.smbios),
    ("networks", indexed Nic.toDocument m.nics),
    ("ip_configs", indexed Addressing.toDocument m.addressing),
    ("pci_devices", indexed Passthrough.toDocument m.passthrough),
    ("disks", .record (m.disks.mapValues Disk.toDocument).entries),
    ("cloud_init", .ofTextMap m.cloudInit), ("other", .ofTextMap m.other)]

end Machine

namespace Location

def powerOfWord : Option String → PowerState
  | some "running" => .running
  | some "other" => .other
  | _ => .stopped

def ofDocument? (d : Document) : Option Location := do
  let fs ← d.record?
  return {
    machine := ← fs.required "vmid" Document.uint32?
    zone := ← fs.textOrEmpty "zone"
    name := ← fs.textOrEmpty "name"
    power := powerOfWord (← fs.optional "status" Document.text?)
    template := ← fs.flag "template" }

end Location
end NodeProvisioner
