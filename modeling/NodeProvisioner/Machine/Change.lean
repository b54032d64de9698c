import NodeProvisioner.KeyMap

/-! Changes to the options of a machine: keys to set and keys to remove. A later call on a key wins
over an earlier one. -/
namespace NodeProvisioner

/-- The hypervisor's flat form of a machine's configuration. -/
abbrev Options := KeyMap String String

structure Change where
  set : Options := ∅
  delete : KeySet String := ∅
  deriving DecidableEq, Inhabited

namespace Change

def put (c : Change) (key value : String) : Change :=
  { set := c.set.insert key value, delete := c.delete.erase key }

def putIfSome (c : Change) (key : String) : Option String → Change
  | some v => c.put key v
  | none => c

def remove (c : Change) (key : String) : Change :=
  { set := c.set.erase key, delete := c.delete.insert key () }

def putOrRemove (c : Change) (key : String) : Option String → Change
  | some v => c.put key v
  | none => c.remove key

def putAll (c : Change) (es : List (String × String)) : Change :=
  es.foldl (fun c e => c.put e.1 e.2) c

def removeAll (c : Change) (keys : List String) : Change := keys.foldl remove c

def isEmpty (c : Change) : Bool := c.set.isEmpty && c.delete.isEmpty

end Change
end NodeProvisioner
