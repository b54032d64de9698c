import NodeProvisioner.Document

/-! Scheduling requirements on labels, and node taints. -/
namespace NodeProvisioner

abbrev Labels := KeyMap String String

inductive Operator where
  | isIn
  | notIn
  | present
  | missing
  deriving DecidableEq, Inhabited

namespace Operator

def word : Operator → String
  | isIn => "In"
  | notIn => "NotIn"
  | present => "Exists"
  | missing => "DoesNotExist"

def ofWord? : String → Option Operator
  | "In" => some isIn
  | "NotIn" => some notIn
  | "Exists" => some present
  | "DoesNotExist" => some missing
  | _ => none

end Operator

structure Requirement where
  key : String
  operator : Operator
  values : List String := []
  deriving DecidableEq, Inhabited

namespace Requirement

def isIn (key : String) (values : List String) : Requirement := ⟨key, .isIn, values⟩

/-- Whether a label value, or its absence, satisfies the requirement. -/
def allows (r : Requirement) (value : Option String) : Bool :=
  match r.operator, value with
  | .isIn, some v => r.values.contains v
  | .isIn, none => false
  | .notIn, some v => !r.values.contains v
  | .notIn, none => true
  | .present, v => v.isSome
  | .missing, v => v.isNone

def toDocument (r : Requirement) : Document :=
  .record ([("key", .text r.key), ("operator", .text r.operator.word)] ++
    Fields.ofList "values" .text r.values)

def ofDocument? (d : Document) : Option Requirement := do
  let fs ← d.fields? ["key", "operator", "values"]
  return {
    key := ← fs.required "key" Document.text?
    operator := ← fs.required "operator" fun d => d.word? >>= Operator.ofWord?
    values := ← fs.withDefault "values" [] (Document.list? Document.text?) }

end Requirement

abbrev Requirements := List Requirement

namespace Requirements

/-- The values of the first `In` condition on `key`, in the order stated. -/
def values (rs : Requirements) (key : String) : Option (List String) :=
  (rs.find? fun r => r.key == key && r.operator == .isIn).map (·.values)

/-- Whether `value` satisfies every condition on `key`. -/
def allows (rs : Requirements) (key value : String) : Bool :=
  (rs.filter (·.key == key)).all (·.allows (some value))

/-- Whether no label of the set violates a condition. A key that the set lacks is not looked at. -/
def compatible (rs : Requirements) (labels : Labels) : Bool :=
  labels.entries.all fun e => rs.allows e.1 e.2

end Requirements

inductive TaintEffect where
  | noSchedule
  | preferNoSchedule
  | noExecute
  deriving DecidableEq, Inhabited

namespace TaintEffect

def word : TaintEffect → String
  | noSchedule => "NoSchedule"
  | preferNoSchedule => "PreferNoSchedule"
  | noExecute => "NoExecute"

def ofWord? : String → Option TaintEffect
  | "NoSchedule" => some noSchedule
  | "PreferNoSchedule" => some preferNoSchedule
  | "NoExecute" => some noExecute
  | _ => none

end TaintEffect

structure Taint where
  key : String
  value : Option String := none
  effect : TaintEffect
  deriving DecidableEq, Inhabited

namespace Taint

/-- Keeps a node free of pods until it has registered with the cluster. -/
def unregistered : Taint := ⟨"karpenter.sh/unregistered", none, .noExecute⟩

def toDocument (t : Taint) : Document :=
  .record ([("key", .text t.key)] ++ Fields.ofOption "value" .text t.value ++
    [("effect", .text t.effect.word)])

def ofDocument? (d : Document) : Option Taint := do
  let fs ← d.fields? ["key", "value", "effect"]
  return {
    key := ← fs.required "key" Document.text?
    value := ← fs.optional "value" Document.text?
    effect := ← fs.required "effect" fun d => d.word? >>= TaintEffect.ofWord? }

end Taint
end NodeProvisioner
