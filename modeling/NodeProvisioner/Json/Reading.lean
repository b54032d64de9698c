import NodeProvisioner.Json.Token

/-! Documents read from JSON text. A stack holds the lists and records that are still open; each
token takes the reader from one state to the next. -/
namespace NodeProvisioner

namespace Json

/-- A list or record that is still open, with what it holds so far, the last one first. -/
inductive Frame where
  | items (before : List Document)
  /-- The value of the field `name` comes next. -/
  | fields (before : Fields) (name : String)

inductive State where
  | value (stack : List Frame)
  /-- A list was opened: an item or the end. -/
  | firstItem (stack : List Frame)
  /-- A record was opened: a name or the end. -/
  | firstName (stack : List Frame)
  | name (before : Fields) (stack : List Frame)
  | colon (before : Fields) (name : String) (stack : List Frame)
  /-- A value is complete. -/
  | complete (d : Document) (stack : List Frame)

namespace State

def start (stack : List Frame) : Token → Option State
  | .leaf d => some (complete d stack)
  | .openList => some (firstItem stack)
  | .openRecord => some (firstName stack)
  | _ => none

/-- A closed record has its fields in order of their names; the last value of a name counts. -/
def close (fields : Fields) : Document := .record (KeyMap.ofList fields.reverse).entries

def next : State → Token → Option State
  | value stack, t => start stack t
  | firstItem stack, .closeList => some (complete (.list []) stack)
  | firstItem stack, t => start (.items [] :: stack) t
  | firstName stack, .closeRecord => some (complete (.record []) stack)
  | firstName stack, .leaf (.text n) => some (colon [] n stack)
  | name before stack, .leaf (.text n) => some (colon before n stack)
  | colon before n stack, .colon => some (value (.fields before n :: stack))
  | complete d (.items before :: stack), .comma => some (value (.items (d :: before) :: stack))
  | complete d (.items before :: stack), .closeList =>
    some (complete (.list (d :: before).reverse) stack)
  | complete d (.fields before n :: stack), .comma => some (name ((n, d) :: before) stack)
  | complete d (.fields before n :: stack), .closeRecord =>
    some (complete (close ((n, d) :: before)) stack)
  | _, _ => none

end State
end Json

def Document.ofJson? (s : String) : Option Document := do
  let tokens ← Json.Token.all? s
  match ← tokens.foldlM Json.State.next (.value []) with
  | .complete d [] => return d
  | _ => none

end NodeProvisioner
