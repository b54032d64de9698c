/-! Why an operation failed. Callers tell three cases apart: the object is already gone, a later
attempt may succeed, or a specification has to change first. -/
namespace NodeProvisioner

structure Refusal where
  status : String := "Failure"
  message : String
  reason : String
  code : Nat
  deriving DecidableEq, Inhabited

def Refusal.render (r : Refusal) : String :=
  r.message ++ ": " ++ r.reason ++ " (ErrorResponse \x7b status: " ++ r.status.quote ++
    ", message: " ++ r.message.quote ++ ", reason: " ++ r.reason.quote ++
    ", code: " ++ r.code.repr ++ " \x7d)"

inductive Fault where
  /-- A machine, template, region or storage does not exist. -/
  | notFound (kind name : String)
  /-- Every candidate was tried; one entry for each. -/
  | insufficientCapacity (attempts : List String)
  /-- A remote call, a task or a wait failed. -/
  | infrastructure (context message : String) (retryable : Bool)
  /-- The user's configuration cannot work. -/
  | configuration (resource message : String)
  /-- Something given or fetched is not valid; `field` names the place in the specification. -/
  | validation (resource message : String) (field : Option String)
  /-- A text could not be read. -/
  | serialization (message : String)
  /-- The cluster's API server refused, or gave no answer that can be used. -/
  | apiServer (refusal : Option Refusal)
  deriving DecidableEq, Inhabited

namespace Fault

def transient (context message : String) : Fault := .infrastructure context message true

def invalid (message : String) : Fault := .validation "unknown" message none

def invalidField (resource field message : String) : Fault :=
  .validation resource message (some field)

def message : Fault → String
  | .notFound kind name => kind ++ " not found: " ++ name
  | .insufficientCapacity attempts => "insufficient capacity: " ++ String.intercalate "; " attempts
  | .infrastructure context message _ => "infrastructure error [" ++ context ++ "]: " ++ message
  | .configuration resource message => "configuration error for " ++ resource ++ ": " ++ message
  | .validation resource message _ => "validation error for " ++ resource ++ ": " ++ message
  | .serialization message => "serialization error: " ++ message
  | .apiServer (some r) => "kubernetes error: ApiError: " ++ r.render
  | .apiServer none => "kubernetes error: Error finding newline character"

def isNotFound : Fault → Bool
  | .notFound _ _ => true
  | .apiServer refusal => refusal.any (·.code == 404)
  | _ => false

def isInsufficientCapacity : Fault → Bool
  | .insufficientCapacity _ => true
  | _ => false

/-- Trying again may help: capacity frees up and infrastructure recovers, while a specification
stays wrong. Of the API server's answers only client errors are final. -/
def isRetryable : Fault → Bool
  | .notFound _ _ => false
  | .insufficientCapacity _ => true
  | .infrastructure _ _ retryable => retryable
  | .configuration _ _ => false
  | .validation _ _ _ => false
  | .serialization _ => false
  | .apiServer (some r) => !(400 ≤ r.code && r.code < 500)
  | .apiServer none => true

/-- One fault for several independent ones. A single fault stays as it is; several become one
failure of the infrastructure that lists them and is retryable if one of them is. -/
def join (context : String) : List Fault → Option Fault
  | [] => none
  | [e] => some e
  | es => some (.infrastructure context (String.intercalate "; " (es.map message))
      (es.any isRetryable))

end Fault

def Fault.joined (context : String) (es : List Fault) : Except Fault Unit :=
  match Fault.join context es with
  | none => .ok ()
  | some e => .error e

end NodeProvisioner
