import NodeProvisioner.Binary64
import NodeProvisioner.KeyMap

/-! Structured documents, the form in which resources are stored and exchanged, with the reading
of typed fields. Whole numbers and decimals are different documents: `1.0` is no integer. -/
namespace NodeProvisioner

inductive Document where
  | null
  | bool (b : Bool)
  | integer (n : Int)
  | decimal (x : Binary64)
  | text (s : String)
  | list (items : List Document)
  | record (fields : List (String × Document))
  deriving Inhabited

namespace Document

def bool? : Document → Option Bool
  | .bool b => some b
  | _ => none

def text? : Document → Option String
  | .text s => some s
  | _ => none

def int? : Document → Option Int
  | .integer n => some n
  | _ => none

def natBelow? (bound : Nat) : Document → Option { n : Nat // n < bound }
  | .integer (.ofNat n) => if h : n < bound then some ⟨n, h⟩ else none
  | _ => none

def uint16? (d : Document) : Option UInt16 :=
  (d.natBelow? UInt16.size).map fun n => .ofNatLT n.1 n.2

def uint32? (d : Document) : Option UInt32 :=
  (d.natBelow? UInt32.size).map fun n => .ofNatLT n.1 n.2

def uint64? (d : Document) : Option UInt64 :=
  (d.natBelow? UInt64.size).map fun n => .ofNatLT n.1 n.2

def number? : Document → Option Binary64
  | .integer (.ofNat n) => some (.ofUInt64 (.ofNat n))
  | .integer (.negSucc n) => some (Binary64.ofUInt64 (.ofNat (n + 1))).negate
  | .decimal x => some x
  | _ => none

def list? {α : Type} (read : Document → Option α) : Document → Option (List α)
  | .list items => items.mapM read
  | _ => none

/-- A record whose field names are data: the last value of a name counts. -/
def map? {α : Type} (read : Document → Option α) : Document → Option (KeyMap String α)
  | .record fields => (fields.mapM fun f => (read f.2).map (f.1, ·)).map KeyMap.ofList
  | _ => none

def textMap? : Document → Option (KeyMap String String) := map? text?

/-- `null` stands for an absent value. -/
def orNull {α : Type} (read : Document → Option α) : Document → Option (Option α)
  | .null => some none
  | d => (read d).map some

def word? : Document → Option String
  | .text s => some s
  | .record [(s, .null)] => some s
  | _ => none

end Document

abbrev Fields := List (String × Document)

def Document.record? : Document → Option Fields
  | .record fields => some fields
  | _ => none

/-- The fields of a record, or of a list that gives their values in the order of `names`. A name
outside `names` is ignored, a surplus value is not. -/
def Document.fields? (names : List String) : Document → Option Fields
  | .record fields => some fields
  | .list items => if items.length ≤ names.length then some (names.zip items) else none
  | _ => none

namespace Fields

variable {α : Type}

def required (fs : Fields) (name : String) (read : Document → Option α) : Option α :=
  (fs.lookup name).bind read

/-- A field that has a value even where it is left out. -/
def withDefault (fs : Fields) (name : String) (default : α) (read : Document → Option α) :
    Option α :=
  match fs.lookup name with
  | none => some default
  | some d => read d

/-- A field that may be left out or be `null`. -/
def optional (fs : Fields) (name : String) (read : Document → Option α) : Option (Option α) :=
  fs.withDefault name none (Document.orNull read)

/-- A field that has a value even where it is left out or `null`. -/
def orElse (fs : Fields) (name : String) (default : α) (read : Document → Option α) : Option α :=
  (fs.optional name read).map (·.getD default)

def textOrEmpty (fs : Fields) (name : String) : Option String := fs.orElse name "" Document.text?

def flag (fs : Fields) (name : String) : Option Bool := fs.orElse name false Document.bool?

def texts (fs : Fields) (name : String) : Option (List String) :=
  fs.orElse name [] (Document.list? Document.text?)

def textMap (fs : Fields) (name : String) : Option (KeyMap String String) :=
  fs.orElse name ∅ Document.textMap?

def ofOption (name : String) (write : α → Document) : Option α → Fields
  | none => []
  | some a => [(name, write a)]

def ofList (name : String) (write : α → Document) : List α → Fields
  | [] => []
  | as => [(name, .list (as.map write))]

end Fields

namespace Document

def ofOption {α : Type} (write : α → Document) : Option α → Document
  | none => .null
  | some a => write a

def ofNat (n : Nat) : Document := .integer n

def ofUInt16 (n : UInt16) : Document := .integer n.toNat

def ofUInt32 (n : UInt32) : Document := .integer n.toNat

def ofUInt64 (n : UInt64) : Document := .integer n.toNat

def ofTextMap (m : KeyMap String String) : Document :=
  .record (m.entries.map fun e => (e.1, .text e.2))

def ofTexts (ss : List String) : Document := .list (ss.map .text)

end Document
end NodeProvisioner
