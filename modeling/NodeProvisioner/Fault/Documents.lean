import NodeProvisioner.Document
import NodeProvisioner.Fault

/-! Faults as documents. A written fault says how callers may take it; what the API server answered
is not told in words. -/
namespace NodeProvisioner.Fault

def kind : Fault → String
  | .notFound _ _ => "NotFound"
  | .insufficientCapacity _ => "InsufficientCapacity"
  | .infrastructure _ _ _ => "Infrastructure"
  | .configuration _ _ => "Configuration"
  | .validation _ _ _ => "Validation"
  | .serialization _ => "Serialization"
  | .apiServer _ => "Kube"

def details (e : Fault) : Fields :=
  match e with
  | .apiServer _ => []
  | .validation _ _ field => [("message", .text e.message), ("field", .ofOption .text field)]
  | _ => [("message", .text e.message)]

def fields (e : Fault) : Fields :=
  [("error", .text e.kind), ("retryable", .bool e.isRetryable),
    ("not_found", .bool e.isNotFound)] ++ e.details

def toDocument (e : Fault) : Document := .record e.fields

/-- Something that is not valid: at a place of a resource, if a place is given. -/
def invalidOfFields? (fs : Fields) : Option Fault := do
  let message ← fs.required "message" Document.text?
  match ← fs.optional "field" Document.text? with
  | some field => return .invalidField (← fs.required "resource" Document.text?) field message
  | none => return .invalid message

def refusalOfCode (code : UInt16) : Refusal :=
  { message := "m", reason := "r", code := code.toNat }

def ofDocument? (d : Document) : Option Fault := do
  let fs ← d.record?
  let text (name : String) : Option String := fs.required name Document.text?
  match ← text "type" with
  | "not_found" => return .notFound (← text "kind") (← text "name")
  | "insufficient_capacity" => return .insufficientCapacity (← fs.texts "attempts")
  | "infrastructure" =>
    return .infrastructure (← text "context") (← text "message")
      (← fs.orElse "retryable" true Document.bool?)
  | "configuration" => return .configuration (← text "resource") (← text "message")
  | "validation" => invalidOfFields? fs
  | "serialization" => return .serialization (← text "message")
  | "kube" => return .apiServer ((← fs.optional "code" Document.uint16?).map refusalOfCode)
  | _ => none

end NodeProvisioner.Fault
