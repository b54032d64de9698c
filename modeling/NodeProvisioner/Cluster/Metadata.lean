import NodeProvisioner.Document
import NodeProvisioner.Text.Base64
import NodeProvisioner.Text.Timestamp

/-! The metadata that the API server keeps with every object. None of it is used here, but an object
whose metadata are of the wrong shape is not taken for an object. -/
namespace NodeProvisioner

/-- Tells whether a value may stand in a field. -/
abbrev FieldKind := Document → Bool

/-- Every field that is given and not `null` holds what it may hold. Other fields do not matter. -/
def Fields.conform (kinds : List (String × FieldKind)) (fs : Fields) : Bool :=
  kinds.all fun kind =>
    match fs.lookup kind.1 with
    | none => true
    | some .null => true
    | some d => kind.2 d

namespace FieldKind

def text : FieldKind := fun d => d.text?.isSome

def bool : FieldKind := fun d => d.bool?.isSome

def texts : FieldKind := fun d => (d.list? Document.text?).isSome

def textMap : FieldKind := fun d => d.textMap?.isSome

def any : FieldKind := fun _ => true

def integer : FieldKind := fun d =>
  d.int?.any fun n => -(UInt64.size / 2 : Int) ≤ n && n < (UInt64.size / 2 : Int)

def timestamp : FieldKind := fun d => d.text?.any Text.isTimestamp

def record (kinds : List (String × FieldKind)) : FieldKind := fun d =>
  d.record?.any (Fields.conform kinds)

def listOf (kind : FieldKind) : FieldKind
  | .list items => items.all kind
  | _ => false

def mapOf (kind : FieldKind) : FieldKind := fun d => d.record?.any fun fs => fs.all (kind ·.2)

def bytes : FieldKind
  | .null => true
  | d => d.text?.any fun s => Text.isBase64 s.toList

def owner : FieldKind := record
  [("apiVersion", text), ("blockOwnerDeletion", bool), ("controller", bool), ("kind", text),
    ("name", text), ("uid", text)]

def managedFields : FieldKind := record
  [("apiVersion", text), ("fieldsType", text), ("fieldsV1", any), ("manager", text),
    ("operation", text), ("subresource", text), ("time", timestamp)]

def metadata : FieldKind := record
  [("annotations", textMap), ("creationTimestamp", timestamp),
    ("deletionGracePeriodSeconds", integer), ("deletionTimestamp", timestamp),
    ("finalizers", texts), ("generateName", text), ("generation", integer), ("labels", textMap),
    ("managedFields", listOf managedFields), ("name", text), ("namespace", text),
    ("ownerReferences", listOf owner), ("resourceVersion", text), ("selfLink", text),
    ("uid", text)]

end FieldKind
end NodeProvisioner
