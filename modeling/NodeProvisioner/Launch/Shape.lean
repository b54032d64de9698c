import NodeProvisioner.Capacity.Reservation
import NodeProvisioner.Resource.NodeClass
import NodeProvisioner.Template.Blueprint

/-! The options that turn a fresh clone into a node. -/
namespace NodeProvisioner.Shape

/-- Adds tags that are not there yet, in order; the template tag is not passed on. -/
def addTags (tags more : List String) : List String :=
  more.foldl (fun ts t =>
    if t == Blueprint.templateTag || ts.contains t then ts else ts ++ [t]) tags

/-- The tags of a node: the cluster, then what the clone and the class ask for. -/
def tags (clusterName : String) (clone cls : List String) : List String :=
  addTags [clusterName] (clone ++ cls)

def cores (granted : Reservation) : String := Text.numeral granted.cpus.toNat

def memory (granted : Reservation) : String := Text.numeral granted.memoryMib.toNat

def pinning (granted : Reservation) : List (String × String) :=
  match granted.cpuSet with
  | some set => [("affinity", set.render), ("numa", "1")]
  | none => []

def options (clusterName : String) (clsTags : List String) (clone : Machine)
    (granted : Reservation) (p : Provenance) : Change :=
  Change.putAll {} ([("cores", cores granted), ("sockets", "1"), ("memory", memory granted),
    ("tags", Setting.writeTags (tags clusterName clone.tags clsTags)),
    ("description", p.render)] ++ pinning granted)

end NodeProvisioner.Shape
