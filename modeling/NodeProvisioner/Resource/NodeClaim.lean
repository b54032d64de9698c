import NodeProvisioner.Resource.InstanceType

/-! A node claim: the request for one node, and what is known of the node that satisfies it. -/
namespace NodeProvisioner

structure NodeClassReference where
  group : String := ""
  kind : String := ""
  name : String
  deriving DecidableEq, Inhabited

namespace NodeClassReference

def toDocument (r : NodeClassReference) : Document :=
  .record [("group", .text r.group), ("kind", .text r.kind), ("name", .text r.name)]

def ofDocument? (d : Document) : Option NodeClassReference := do
  let fs ← d.fields? ["group", "kind", "name"]
  return {
    group := ← fs.withDefault "group" "" Document.text?
    kind := ← fs.withDefault "kind" "" Document.text?
    name := ← fs.required "name" Document.text? }

end NodeClassReference

structure NodeClaim.Spec where
  nodeClass : NodeClassReference
  requirements : Requirements := []
  resources : Quantities := {}
  /-- Stay for the lifetime of the node. -/
  taints : List Taint := []
  /-- Set at startup and removed later by others. -/
  startupTaints : List Taint := []
  deriving DecidableEq, Inhabited

namespace NodeClaim.Spec

def toDocument (s : NodeClaim.Spec) : Document :=
  .record ([("nodeClassRef", s.nodeClass.toDocument),
      ("requirements", .list (s.requirements.map Requirement.toDocument)),
      ("resources", s.resources.toDocument)] ++
    Fields.ofList "taints" Taint.toDocument s.taints ++
    Fields.ofList "startupTaints" Taint.toDocument s.startupTaints)

def ofDocument? (d : Document) : Option NodeClaim.Spec := do
  let fs ← d.fields? ["nodeClassRef", "requirements", "resources", "taints", "startupTaints"]
  return {
    nodeClass := ← fs.required "nodeClassRef" NodeClassReference.ofDocument?
    requirements := ← fs.withDefault "requirements" [] (Document.list? Requirement.ofDocument?)
    resources := ← fs.withDefault "resources" {} Quantities.ofDocument?
    taints := ← fs.withDefault "taints" [] (Document.list? Taint.ofDocument?)
    startupTaints := ← fs.withDefault "startupTaints" [] (Document.list? Taint.ofDocument?) }

end NodeClaim.Spec

structure NodeClaim.Status where
  providerId : Option String := none
  /-- The template that the node was cloned from. -/
  imageId : Option String := none
  /-- The node's name in the cluster, once it has registered. -/
  nodeName : Option String := none
  capacity : Quantities := {}
  allocatable : Quantities := {}
  deriving DecidableEq, Inhabited

namespace NodeClaim.Status

def toDocument (s : NodeClaim.Status) : Document :=
  .record (Fields.ofOption "providerID" .text s.providerId ++
    Fields.ofOption "imageID" .text s.imageId ++
    Fields.ofOption "nodeName" .text s.nodeName ++
    [("capacity", s.capacity.toDocument), ("allocatable", s.allocatable.toDocument)])

def ofDocument? (d : Document) : Option NodeClaim.Status := do
  let fs ← d.fields? ["providerID", "imageID", "nodeName", "capacity", "allocatable"]
  return {
    providerId := ← fs.optional "providerID" Document.text?
    imageId := ← fs.optional "imageID" Document.text?
    nodeName := ← fs.optional "nodeName" Document.text?
    capacity := ← fs.withDefault "capacity" {} Quantities.ofDocument?
    allocatable := ← fs.withDefault "allocatable" {} Quantities.ofDocument? }

end NodeClaim.Status

structure NodeClaim where
  name : Option String := none
  labels : Labels := ∅
  annotations : Labels := ∅
  spec : NodeClaim.Spec
  status : Option NodeClaim.Status := none
  deriving DecidableEq, Inhabited

namespace NodeClaim

/-- The name, empty for a claim that has none yet. -/
def displayName (c : NodeClaim) : String := c.name.getD ""

def requirements (c : NodeClaim) : Requirements := c.spec.requirements

def providerId (c : NodeClaim) : Option String :=
  (c.status.bind (·.providerId)).filter (!·.isEmpty)

def label (c : NodeClaim) (key : String) : Option String := c.labels.get? key

end NodeClaim
end NodeProvisioner
