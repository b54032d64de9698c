import NodeProvisioner.Resource.NodeClaim
import NodeProvisioner.Resource.NodeClass
import NodeProvisioner.Resource.TemplateClass

/-! Whole resources as documents: the name and the other metadata stand beside the specification
and the status. -/
namespace NodeProvisioner

def Fields.metadata? (fs : Fields) : Option (Option String × Labels × Labels) := do
  return (← fs.optional "name" Document.text?, ← fs.textMap "labels", ← fs.textMap "annotations")

namespace NodeClaim

def toDocument (c : NodeClaim) : Document :=
  .record [("name", .ofOption .text c.name), ("labels", .ofTextMap c.labels),
    ("annotations", .ofTextMap c.annotations), ("spec", c.spec.toDocument),
    ("status", .ofOption NodeClaim.Status.toDocument c.status)]

def ofDocument? (d : Document) : Option NodeClaim := do
  let fs ← d.record?
  let (name, labels, annotations) ← fs.metadata?
  return {
    name, labels, annotations
    spec := ← fs.required "spec" NodeClaim.Spec.ofDocument?
    status := ← fs.optional "status" NodeClaim.Status.ofDocument? }

end NodeClaim

def NodeClass.ofDocument? (d : Document) : Option NodeClass := do
  let fs ← d.record?
  let (name, _, _) ← fs.metadata?
  return { name, spec := ← fs.required "spec" NodeClass.Spec.ofDocument? }

def TemplateClass.ofDocument? (d : Document) : Option TemplateClass := do
  let fs ← d.record?
  let (name, _, _) ← fs.metadata?
  return {
    name
    spec := ← fs.required "spec" TemplateClass.Spec.ofDocument?
    status := ← fs.optional "status" TemplateClass.Status.ofDocument? }

end NodeProvisioner
