import NodeProvisioner.Document

/-! A template class: an image, and the template machines that are built from it. -/
namespace NodeProvisioner

inductive ChecksumAlgorithm where
  | sha256
  | sha512
  deriving DecidableEq, Inhabited

namespace ChecksumAlgorithm

def word : ChecksumAlgorithm → String
  | sha256 => "sha256"
  | sha512 => "sha512"

def ofWord? : String → Option ChecksumAlgorithm
  | "sha256" => some sha256
  | "sha512" => some sha512
  | _ => none

end ChecksumAlgorithm

structure ImageSource where
  url : String
  /-- Downloads are verified if there is one. -/
  checksum : Option String := none
  checksumAlgorithm : ChecksumAlgorithm := .sha256
  deriving DecidableEq, Inhabited

namespace ImageSource

def toDocument (i : ImageSource) : Document :=
  .record ([("url", .text i.url)] ++ Fields.ofOption "checksum" .text i.checksum ++
    [("checksumType", .text i.checksumAlgorithm.word)])

def ofDocument? (d : Document) : Option ImageSource := do
  let fs ← d.fields? ["url", "checksum", "checksumType"]
  return {
    url := ← fs.required "url" Document.text?
    checksum := ← fs.optional "checksum" Document.text?
    checksumAlgorithm := ← fs.withDefault "checksumType" .sha256
      fun d => d.word? >>= ChecksumAlgorithm.ofWord? }

end ImageSource

structure AgentSpec where
  enabled : Bool := false
  /-- Trim the disk after a move or a clone. -/
  fstrim : Bool := false
  deriving DecidableEq, Inhabited

namespace AgentSpec

def toDocument (a : AgentSpec) : Document :=
  .record [("enabled", .bool a.enabled), ("fstrim", .bool a.fstrim)]

def ofDocument? (d : Document) : Option AgentSpec := do
  let fs ← d.fields? ["enabled", "fstrim"]
  return {
    enabled := ← fs.withDefault "enabled" false Document.bool?
    fstrim := ← fs.withDefault "fstrim" false Document.bool? }

end AgentSpec

structure CpuSpec where
  model : String
  /-- Each with a plus or minus sign in front. -/
  flags : List String := []
  deriving DecidableEq, Inhabited

namespace CpuSpec

def toDocument (c : CpuSpec) : Document :=
  .record ([("type", .text c.model)] ++ Fields.ofList "flags" .text c.flags)

def ofDocument? (d : Document) : Option CpuSpec := do
  let fs ← d.fields? ["type", "flags"]
  return {
    model := ← fs.required "type" Document.text?
    flags := ← fs.withDefault "flags" [] (Document.list? Document.text?) }

end CpuSpec

structure VgaSpec where
  kind : String
  memory : Option UInt32 := none
  deriving DecidableEq, Inhabited

namespace VgaSpec

def toDocument (v : VgaSpec) : Document :=
  .record ([("type", .text v.kind)] ++ Fields.ofOption "memory" .ofUInt32 v.memory)

def ofDocument? (d : Document) : Option VgaSpec := do
  let fs ← d.fields? ["type", "memory"]
  return {
    kind := ← fs.required "type" Document.text?
    memory := ← fs.optional "memory" Document.uint32? }

end VgaSpec

structure InterfaceSpec where
  bridge : String
  model : Option String := none
  firewall : Bool := false
  mtu : Option UInt32 := none
  vlan : Option UInt16 := none
  deriving DecidableEq, Inhabited

namespace InterfaceSpec

def toDocument (i : InterfaceSpec) : Document :=
  .record ([("bridge", .text i.bridge)] ++ Fields.ofOption "model" .text i.model ++
    [("firewall", .bool i.firewall)] ++ Fields.ofOption "mtu" .ofUInt32 i.mtu ++
    Fields.ofOption "vlan" .ofUInt16 i.vlan)

def ofDocument? (d : Document) : Option InterfaceSpec := do
  let fs ← d.fields? ["bridge", "model", "firewall", "mtu", "vlan"]
  return {
    bridge := ← fs.required "bridge" Document.text?
    model := ← fs.optional "model" Document.text?
    firewall := ← fs.withDefault "firewall" false Document.bool?
    mtu := ← fs.optional "mtu" Document.uint32?
    vlan := ← fs.optional "vlan" Document.uint16? }

end InterfaceSpec

/-- A passed-through device, by the name of its mapping in the hypervisor cluster. -/
structure PciSpec where
  mapping : String
  pcie : Bool := false
  deriving DecidableEq, Inhabited

namespace PciSpec

def toDocument (p : PciSpec) : Document :=
  .record [("mapping", .text p.mapping), ("pcie", .bool p.pcie)]

def ofDocument? (d : Document) : Option PciSpec := do
  let fs ← d.fields? ["mapping", "pcie"]
  return {
    mapping := ← fs.required "mapping" Document.text?
    pcie := ← fs.withDefault "pcie" false Document.bool? }

end PciSpec

structure TemplateClass.Spec where
  /-- The hypervisor cluster to install in, if not all. -/
  region : Option String := none
  /-- Candidates for the storage that takes images and the one that takes disks. -/
  storageIds : List String := []
  image : ImageSource
  machine : Option String := none
  agent : Option AgentSpec := none
  cpu : Option CpuSpec := none
  vga : Option VgaSpec := none
  network : List InterfaceSpec := []
  pciDevices : List PciSpec := []
  tags : List String := []
  deriving DecidableEq, Inhabited

namespace TemplateClass.Spec

def toDocument (s : TemplateClass.Spec) : Document :=
  .record (Fields.ofOption "region" .text s.region ++
    [("storageIDs", .ofTexts s.storageIds), ("image", s.image.toDocument)] ++
    Fields.ofOption "machine" .text s.machine ++
    Fields.ofOption "agent" AgentSpec.toDocument s.agent ++
    Fields.ofOption "cpu" CpuSpec.toDocument s.cpu ++
    Fields.ofOption "vga" VgaSpec.toDocument s.vga ++
    Fields.ofList "network" InterfaceSpec.toDocument s.network ++
    Fields.ofList "pciDevices" PciSpec.toDocument s.pciDevices ++
    Fields.ofList "tags" .text s.tags)

def ofDocument? (d : Document) : Option TemplateClass.Spec := do
  let fs ← d.fields? ["region", "storageIDs", "image", "machine", "agent", "cpu", "vga",
    "network", "pciDevices", "tags"]
  return {
    region := ← fs.optional "region" Document.text?
    storageIds := ← fs.withDefault "storageIDs" [] (Document.list? Document.text?)
    image := ← fs.required "image" ImageSource.ofDocument?
    machine := ← fs.optional "machine" Document.text?
    agent := ← fs.optional "agent" AgentSpec.ofDocument?
    cpu := ← fs.optional "cpu" CpuSpec.ofDocument?
    vga := ← fs.optional "vga" VgaSpec.ofDocument?
    network := ← fs.withDefault "network" [] (Document.list? InterfaceSpec.ofDocument?)
    pciDevices := ← fs.withDefault "pciDevices" [] (Document.list? PciSpec.ofDocument?)
    tags := ← fs.withDefault "tags" [] (Document.list? Document.text?) }

end TemplateClass.Spec

structure TemplateClass.Status where
  /-- The file name of the installed image. -/
  imageId : Option String := none
  /-- The installed template machines, each as `region/zone/id`. -/
  zones : List String := []
  deriving DecidableEq, Inhabited

namespace TemplateClass.Status

def toDocument (s : TemplateClass.Status) : Document :=
  .record (Fields.ofOption "imageID" .text s.imageId ++ Fields.ofList "zones" .text s.zones)

def ofDocument? (d : Document) : Option TemplateClass.Status := do
  let fs ← d.fields? ["imageID", "zones"]
  return {
    imageId := ← fs.optional "imageID" Document.text?
    zones := ← fs.withDefault "zones" [] (Document.list? Document.text?) }

end TemplateClass.Status

structure TemplateClass where
  name : Option String := none
  spec : TemplateClass.Spec
  status : Option TemplateClass.Status := none
  deriving DecidableEq, Inhabited

def TemplateClass.displayName (c : TemplateClass) : String := c.name.getD ""

end NodeProvisioner
