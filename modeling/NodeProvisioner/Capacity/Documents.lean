import NodeProvisioner.Capacity.Reservation
import NodeProvisioner.Capacity.Zone
import NodeProvisioner.Device.Documents

/-! Reservations, storages, bridges and the loads of zones as documents. -/
namespace NodeProvisioner

namespace Reservation

def toDocument (r : Reservation) : Document :=
  .record [("vmid", .ofUInt32 r.machine), ("cpus", .ofUInt32 r.cpus),
    ("memory_mib", .ofUInt64 r.memoryMib), ("disk_gib", .ofUInt64 r.diskGib),
    ("storage_id", .ofOption .text r.storageId), ("numa", .bool r.numa),
    ("cpu_set", .ofOption (fun s => .text (CpuSet.render s)) r.cpuSet)]

def withDocument? (r : Reservation) (d : Document) : Option Reservation := do
  let fs ← d.fields? ["vmid", "cpus", "memory_mib", "disk_gib", "storage_id", "numa", "cpu_set"]
  return {
    machine := ← fs.withDefault "vmid" r.machine Document.uint32?
    cpus := ← fs.withDefault "cpus" r.cpus Document.uint32?
    memoryMib := ← fs.withDefault "memory_mib" r.memoryMib Document.uint64?
    diskGib := ← fs.withDefault "disk_gib" r.diskGib Document.uint64?
    storageId := ← fs.withDefault "storage_id" r.storageId (Document.orNull Document.text?)
    numa := ← fs.withDefault "numa" r.numa Document.bool?
    cpuSet := ← fs.withDefault "cpu_set" r.cpuSet (Document.orNull CpuSet.ofDocument?) }

def ofDocument? (d : Document) : Option Reservation := withDocument? {} d

end Reservation

namespace Storage

def toDocument (s : Storage) : Document :=
  .record [("id", .text s.id), ("content", .ofTexts s.content), ("zones", .ofTexts s.zones),
    ("shared", .bool s.shared)]

def ofDocument? (d : Document) : Option Storage := do
  let fs ← d.record?
  return {
    id := ← fs.required "id" Document.text?
    content := ← fs.texts "content"
    zones := ← fs.texts "zones"
    shared := ← fs.flag "shared" }

end Storage

def Bridge.ofDocument? (d : Document) : Option Bridge := do
  let fs ← d.record?
  return {
    name := ← fs.textOrEmpty "name"
    mtu := ← fs.optional "mtu" Document.uint32?
    ipv4Subnet := ← fs.optional "ipv4_subnet" Document.text?
    ipv4Gateway := ← fs.optional "ipv4_gateway" Document.text?
    ipv6Subnet := ← fs.optional "ipv6_subnet" Document.text?
    ipv6Gateway := ← fs.optional "ipv6_gateway" Document.text? }

/-- A load is a number or one of the words for what JSON cannot write. -/
def Load.ofDocument? : Document → Option Binary64
  | .text "nan" => some .quietNaN
  | .text "-nan" => some Binary64.quietNaN.negate
  | .text "inf" => some .infinity
  | .text "-inf" => some Binary64.infinity.negate
  | .text "-0" => some Binary64.zero.negate
  | d => d.number?

end NodeProvisioner
