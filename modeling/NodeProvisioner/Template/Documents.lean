import NodeProvisioner.Capacity.Documents
import NodeProvisioner.Template.Image
import NodeProvisioner.Template.Inventory

/-! Inventory entries, their filters, and storage roles as documents. -/
namespace NodeProvisioner

namespace Usability

def word : Usability → String
  | available => "Available"
  | locked => "Disabled"
  | unknown => "Unknown"
  | scattered => "MultipleStorageIDs"

def ofWord? : String → Option Usability
  | "Available" => some available
  | "Disabled" => some locked
  | "Unknown" => some unknown
  | "MultipleStorageIDs" => some scattered
  | _ => none

end Usability

namespace TemplateEntry

def toDocument (e : TemplateEntry) : Document :=
  .record [("name", .text e.name), ("region", .text e.region), ("zone", .text e.zone),
    ("template_id", .ofUInt32 e.machine), ("hash", .text e.fingerprint),
    ("tags", .ofTexts e.tags), ("storage_id", .ofOption .text e.storageId),
    ("shared", .bool e.shared), ("status", .text e.usability.word)]

def usabilityOfWord (word : Option String) : Usability :=
  (word.bind Usability.ofWord?).getD .unknown

def ofDocument? (d : Document) : Option TemplateEntry := do
  let fs ← d.record?
  return {
    name := ← fs.textOrEmpty "name"
    region := ← fs.textOrEmpty "region"
    zone := ← fs.textOrEmpty "zone"
    machine := ← fs.orElse "template_id" 0 Document.uint32?
    fingerprint := ← fs.textOrEmpty "hash"
    tags := ← fs.texts "tags"
    storageId := ← fs.optional "storage_id" Document.text?
    shared := ← fs.flag "shared"
    usability := usabilityOfWord (← fs.optional "status" Document.text?) }

end TemplateEntry

/-- A filter is a list of a word and, except for `shared`, the value that is wanted. -/
def TemplateFilter.ofDocument? : Document → Option TemplateFilter
  | .list [.text "region", .text r] => some (.region r)
  | .list [.text "zone", .text z] => some (.zone z)
  | .list [.text "name", .text n] => some (.name n)
  | .list [.text "template_id", id] => id.uint32?.map .machine
  | .list [.text "tag", .text t] => some (.tag t)
  | .list [.text "shared"] => some .shared
  | _ => none

namespace StorageRoles

def toDocument (r : StorageRoles) : Document :=
  .record [("import", r.imports.toDocument), ("images", r.images.toDocument),
    ("zones", .ofTexts r.zones)]

def ofDocument? (d : Document) : Option StorageRoles := do
  let fs ← d.record?
  return {
    imports := ← fs.required "import" Storage.ofDocument?
    images := ← fs.required "images" Storage.ofDocument?
    zones := ← fs.texts "zones" }

end StorageRoles
end NodeProvisioner
