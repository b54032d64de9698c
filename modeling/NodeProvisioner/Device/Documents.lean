import NodeProvisioner.Device.Address
import NodeProvisioner.Device.CpuModel
import NodeProvisioner.Device.CpuSet
import NodeProvisioner.Device.Disk
import NodeProvisioner.Device.Nic
import NodeProvisioner.Device.Passthrough
import NodeProvisioner.Device.Smbios
import NodeProvisioner.Document

/-! The devices of a machine as documents. Every field is written; each may be left out or `null`
when a document is read. -/
namespace NodeProvisioner

namespace Nic

def toDocument (n : Nic) : Document :=
  .record [("model", .text n.model), ("mac", .ofOption .text n.mac), ("bridge", .text n.bridge),
    ("firewall", .bool n.firewall), ("mtu", .ofOption .ofUInt32 n.mtu),
    ("tag", .ofOption .ofUInt16 n.tag), ("link_down", .bool n.linkDown)]

def ofDocument? (d : Document) : Option Nic := do
  let fs ← d.record?
  return {
    model := ← fs.textOrEmpty "model"
    mac := ← fs.optional "mac" Document.text?
    bridge := ← fs.textOrEmpty "bridge"
    firewall := ← fs.flag "firewall"
    mtu := ← fs.optional "mtu" Document.uint32?
    tag := ← fs.optional "tag" Document.uint16?
    linkDown := ← fs.flag "link_down" }

end Nic

namespace Assignment

def toDocument : Assignment → Document
  | dhcp => .text "Dhcp"
  | auto => .text "Auto"
  | host => .text "Host"
  | fixed cidr => .record [("Static", .text cidr)]

def ofWord? : String → Option Assignment
  | "Dhcp" => some dhcp
  | "Auto" => some auto
  | "Host" => some host
  | _ => none

def ofDocument? : Document → Option Assignment
  | .record [("Static", .text cidr)] => some (fixed cidr)
  | d => d.word? >>= ofWord?

end Assignment

namespace Addressing

def fields (a : Addressing) : Fields :=
  [("ip", .ofOption Assignment.toDocument a.ip), ("gw", .ofOption .text a.gateway),
    ("ip6", .ofOption Assignment.toDocument a.ip6), ("gw6", .ofOption .text a.gateway6)]

def toDocument (a : Addressing) : Document := .record a.fields

def ofDocument? (d : Document) : Option Addressing := do
  let fs ← d.record?
  return {
    ip := ← fs.optional "ip" Assignment.ofDocument?
    gateway := ← fs.optional "gw" Document.text?
    ip6 := ← fs.optional "ip6" Assignment.ofDocument?
    gateway6 := ← fs.optional "gw6" Document.text? }

end Addressing

namespace Passthrough

def toDocument (p : Passthrough) : Document :=
  .record [("mapping", .ofOption .text p.mapping), ("host", .ofOption .text p.host),
    ("pcie", .bool p.pcie), ("x_vga", .bool p.primaryGpu)]

def ofDocument? (d : Document) : Option Passthrough := do
  let fs ← d.record?
  return {
    mapping := ← fs.optional "mapping" Document.text?
    host := ← fs.optional "host" Document.text?
    pcie := ← fs.flag "pcie"
    primaryGpu := ← fs.flag "x_vga" }

end Passthrough

namespace Smbios

def toDocument (b : Smbios) : Document :=
  .record [("uuid", .ofOption .text b.uuid), ("serial", .ofOption .text b.serial),
    ("manufacturer", .ofOption .text b.manufacturer), ("product", .ofOption .text b.product),
    ("base64", .bool b.base64)]

def ofDocument? (d : Document) : Option Smbios := do
  let fs ← d.record?
  return {
    uuid := ← fs.optional "uuid" Document.text?
    serial := ← fs.optional "serial" Document.text?
    manufacturer := ← fs.optional "manufacturer" Document.text?
    product := ← fs.optional "product" Document.text?
    base64 := ← fs.flag "base64" }

end Smbios

namespace CpuModel

def toDocument (c : CpuModel) : Document :=
  .record [("model", .text c.model), ("flags", .ofTexts c.flags)]

def ofDocument? (d : Document) : Option CpuModel := do
  let fs ← d.record?
  return { model := ← fs.textOrEmpty "model", flags := ← fs.texts "flags" }

end CpuModel

namespace Disk

def fields (d : Disk) : Fields :=
  [("volume", .text d.volume), ("size", .ofOption .text d.size),
    ("media", .ofOption .text d.media), ("options", .ofTextMap d.options)]

def toDocument (d : Disk) : Document := .record d.fields

def ofDocument? (d : Document) : Option Disk := do
  let fs ← d.record?
  return {
    volume := ← fs.textOrEmpty "volume"
    size := ← fs.optional "size" Document.text?
    media := ← fs.optional "media" Document.text?
    options := ← fs.textMap "options" }

end Disk

namespace CpuSet

def toDocument (s : CpuSet) : Document := .list (s.cpus.map .ofUInt32)

def ofDocument? (d : Document) : Option CpuSet := (d.list? Document.uint32?).map ofList

end CpuSet
end NodeProvisioner
