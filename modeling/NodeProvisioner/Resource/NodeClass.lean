import NodeProvisioner.Document

/-! A node class: how the nodes of a claim are realised on the hypervisor. -/
namespace NodeProvisioner

/-- In which order zones are tried. -/
inductive ZoneBalance where
  /-- In random order, so that launches spread. -/
  | availabilityFirst
  /-- The zone with the least load first. -/
  | balanced
  deriving DecidableEq, Inhabited

namespace ZoneBalance

def word : ZoneBalance → String
  | availabilityFirst => "AvailabilityFirst"
  | balanced => "Balanced"

def ofWord? : String → Option ZoneBalance
  | "AvailabilityFirst" => some availabilityFirst
  | "Balanced" => some balanced
  | _ => none

end ZoneBalance

/-- How a node learns its bootstrap data. -/
inductive MetadataDelivery where
  /-- The template brings it, or another channel does. -/
  | outOfBand
  /-- Rendered documents on an optical drive. -/
  | cdrom
  deriving DecidableEq, Inhabited

namespace MetadataDelivery

def word : MetadataDelivery → String
  | outOfBand => "none"
  | cdrom => "cdrom"

def ofWord? : String → Option MetadataDelivery
  | "none" => some outOfBand
  | "cdrom" => some cdrom
  | _ => none

end MetadataDelivery

structure BootDevice where
  /-- In GiB; grown to the instance type's storage if that is more. -/
  size : UInt64 := 0
  /-- Where the disks of the clone go, if not beside the template's. -/
  storage : Option String := none
  deriving DecidableEq, Inhabited

namespace BootDevice

def toDocument (b : BootDevice) : Document :=
  .record ([("size", .ofUInt64 b.size)] ++ Fields.ofOption "storage" .text b.storage)

def ofDocument? (d : Document) : Option BootDevice := do
  let fs ← d.fields? ["size", "storage"]
  return {
    size := ← fs.withDefault "size" 0 Document.uint64?
    storage := ← fs.optional "storage" Document.text? }

end BootDevice

structure SecurityGroup where
  name : String
  interface : Option String := none
  deriving DecidableEq, Inhabited

namespace SecurityGroup

def toDocument (g : SecurityGroup) : Document :=
  .record ([("name", .text g.name)] ++ Fields.ofOption "interface" .text g.interface)

def ofDocument? (d : Document) : Option SecurityGroup := do
  let fs ← d.fields? ["name", "interface"]
  return {
    name := ← fs.required "name" Document.text?
    interface := ← fs.optional "interface" Document.text? }

end SecurityGroup

structure KubeletConfiguration where
  maxPods : Option UInt64 := none
  clusterDns : List String := []
  deriving DecidableEq, Inhabited

namespace KubeletConfiguration

def toDocument (k : KubeletConfiguration) : Document :=
  .record (Fields.ofOption "maxPods" .ofUInt64 k.maxPods ++
    Fields.ofList "clusterDns" .text k.clusterDns)

def ofDocument? (d : Document) : Option KubeletConfiguration := do
  let fs ← d.fields? ["maxPods", "clusterDns"]
  return {
    maxPods := ← fs.optional "maxPods" Document.uint64?
    clusterDns := ← fs.withDefault "clusterDns" [] (Document.list? Document.text?) }

end KubeletConfiguration

structure NodeClass.Spec where
  /-- The hypervisor cluster to launch in, if not any. -/
  region : Option String := none
  zoneBalance : ZoneBalance := .balanced
  /-- The name of the template class that nodes are cloned from. -/
  template : String
  bootDevice : BootDevice := {}
  tags : List String := []
  securityGroups : List SecurityGroup := []
  metadataDelivery : MetadataDelivery := .outOfBand
  resourcePool : Option String := none
  /-- Pin the virtual cores to host cores of one NUMA node. -/
  numaPinning : Bool := false
  kubelet : Option KubeletConfiguration := none
  deriving DecidableEq, Inhabited

namespace NodeClass.Spec

def toDocument (s : NodeClass.Spec) : Document :=
  .record (Fields.ofOption "region" .text s.region ++
    [("placementStrategy", .record [("zoneBalance", .text s.zoneBalance.word)]),
      ("instanceTemplateRef", .record [("name", .text s.template)]),
      ("bootDevice", s.bootDevice.toDocument)] ++
    Fields.ofList "tags" .text s.tags ++
    Fields.ofList "securityGroups" SecurityGroup.toDocument s.securityGroups ++
    [("metadataOptions", .record [("type", .text s.metadataDelivery.word)])] ++
    Fields.ofOption "resourcePool" .text s.resourcePool ++
    [("numaPinning", .bool s.numaPinning)] ++
    Fields.ofOption "kubelet" KubeletConfiguration.toDocument s.kubelet)

def zoneBalance? (d : Document) : Option ZoneBalance := do
  let fs ← d.fields? ["zoneBalance"]
  fs.withDefault "zoneBalance" .balanced fun d => d.word? >>= ZoneBalance.ofWord?

def template? (d : Document) : Option String := do
  (← d.fields? ["name"]).required "name" Document.text?

def metadataDelivery? (d : Document) : Option MetadataDelivery := do
  let fs ← d.fields? ["type"]
  fs.withDefault "type" .outOfBand fun d => d.word? >>= MetadataDelivery.ofWord?

def ofDocument? (d : Document) : Option NodeClass.Spec := do
  let fs ← d.fields? ["region", "placementStrategy", "instanceTemplateRef", "bootDevice", "tags",
    "securityGroups", "metadataOptions", "resourcePool", "numaPinning", "kubelet"]
  return {
    region := ← fs.optional "region" Document.text?
    zoneBalance := ← fs.withDefault "placementStrategy" .balanced zoneBalance?
    template := ← fs.required "instanceTemplateRef" template?
    bootDevice := ← fs.withDefault "bootDevice" {} BootDevice.ofDocument?
    tags := ← fs.withDefault "tags" [] (Document.list? Document.text?)
    securityGroups := ←
      fs.withDefault "securityGroups" [] (Document.list? SecurityGroup.ofDocument?)
    metadataDelivery := ← fs.withDefault "metadataOptions" .outOfBand metadataDelivery?
    resourcePool := ← fs.optional "resourcePool" Document.text?
    numaPinning := ← fs.withDefault "numaPinning" false Document.bool?
    kubelet := ← fs.optional "kubelet" KubeletConfiguration.ofDocument? }

end NodeClass.Spec

structure NodeClass where
  name : Option String := none
  spec : NodeClass.Spec
  deriving DecidableEq, Inhabited

def NodeClass.displayName (c : NodeClass) : String := c.name.getD ""

end NodeProvisioner
