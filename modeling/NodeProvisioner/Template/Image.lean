import NodeProvisioner.Capacity.Zone
import NodeProvisioner.Digest.Writing
import NodeProvisioner.Resource.TemplateClass
import NodeProvisioner.Text.Cut

/-! Source images of template classes: under what name they are stored, and on which storages. -/
namespace NodeProvisioner

namespace Image

def importContent : String := "import"

def imagesContent : String := "images"

/-- The disk formats that can be imported; each is its own file extension. -/
def formats : List String := ["qcow2", "raw", "vmdk"]

def lower (s : String) : String := String.ofList (s.toList.map Char.toLower)

def lastSegment (url : String) : String :=
  match Text.cutLast? '/' url with
  | some (_, file) => file
  | none => url

/-- The lower-case extension of the file that the address names, if it is a known format. -/
def format (url : String) : String :=
  match (Text.cutLast? '.' (lastSegment url)).map fun p => lower p.2 with
  | some ext => if formats.contains ext then ext else "qcow2"
  | none => "qcow2"

/-- Tells sources apart: another address or checksum gives another digest. -/
def sourceText (i : ImageSource) : String := i.url ++ "|" ++ i.checksum.getD ""

/-- The file name of a class's image. It holds ten digits of the digest of the source, so that a
changed source never replaces the image that is there. -/
def fileName (cls : String) (i : ImageSource) : String :=
  cls ++ "-" ++ String.ofList ((Sha256.digestText (sourceText i)).hexChars.take 10) ++ "." ++
    format i.url

def volume (storage file : String) : String := storage ++ ":" ++ importContent ++ "/" ++ file

theorem volume_eq (storage file : String) :
    volume storage file = storage ++ ":import/" ++ file := by
  simp only [volume, importContent, String.append_assoc]
  rfl

end Image

/-- The storages through which a class is installed in a region, and the zones to install in. -/
structure StorageRoles where
  /-- Receives the downloaded image. -/
  imports : Storage
  /-- Holds the disks of the template machine. -/
  images : Storage
  zones : List String
  deriving DecidableEq, Inhabited

inductive StorageError where
  | noneSupports (storageIds : List String) (content : String)
  | noSharedZone (imports images : String)
  deriving DecidableEq

namespace StorageError

def message : StorageError → String
  | noneSupports ids content =>
    "none of the storages [" ++ String.intercalate ", " ids ++ "] supports '" ++ content ++
      "' content"
  | noSharedZone imports images => "storages " ++ imports ++ " and " ++ images ++ " share no zone"

def fault (region : String) (e : StorageError) : Fault :=
  .configuration ("region " ++ region) e.message

end StorageError

namespace StorageRoles

def choose? (storages : List Storage) (content : String) : Option Storage :=
  storages.find? fun s => !s.zones.isEmpty && s.supports content

/-- Both roles may fall to one storage. The zones are those that reach both, in the order of the
images storage. One template machine is enough where that storage is shared. -/
def resolve (storageIds : List String) (storages : List Storage) :
    Except StorageError StorageRoles :=
  match choose? storages Image.importContent, choose? storages Image.imagesContent with
  | none, _ => .error (.noneSupports storageIds Image.importContent)
  | some _, none => .error (.noneSupports storageIds Image.imagesContent)
  | some imports, some images =>
    match images.zones.filter imports.zones.contains with
    | [] => .error (.noSharedZone imports.id images.id)
    | z :: zs => .ok { imports, images, zones := if images.shared then [z] else z :: zs }

end StorageRoles

/-- The storages that can hold images for a zone. -/
def importStoragesInZone (zone : String) (storages : List Storage) : List String :=
  (storages.filter fun s => s.supports Image.importContent && s.zones.contains zone).map (·.id)

end NodeProvisioner
