import NodeProvisioner.Cluster.Metadata
import NodeProvisioner.Cluster.Target
import NodeProvisioner.Fault
import NodeProvisioner.Resource.TemplateClass
import NodeProvisioner.Text.Blank

/-! The two things that are asked of the cluster's API server: the certificate authority that new
nodes have to trust, and the storing of a template class's status. -/
namespace NodeProvisioner.ClusterApi

structure Request where
  method : String
  target : Target
  body : Option Document := none

namespace Request

def toDocument (r : Request) : Document :=
  .record [("method", .text r.method), ("path", .text r.target.path),
    ("body", .ofOption id r.body)]

/-- A request is made only to a target that can be sent. -/
def make (method target : String) (body : Option Document) : Except Fault Request :=
  match Target.parse? target with
  | some target => .ok { method, target, body }
  | none => .error (.apiServer none)

end Request

inductive Answer where
  | object (d : Document)
  | refusal (r : Refusal)

/-- Status codes from 400 on are refusals; those from 600 on have no meaning of their own. -/
def isRefusal (statusCode : Nat) : Bool := 400 ≤ statusCode && statusCode < 600

def refusalOf (d : Document) : Option Refusal := do
  let fs ← d.fields? ["status", "message", "reason", "code"]
  return {
    status := ← fs.required "status" Document.text?
    message := ← fs.withDefault "message" "" Document.text?
    reason := ← fs.withDefault "reason" "" Document.text?
    code := (← fs.required "code" Document.uint16?).toNat }

def bareRefusal (statusCode : Nat) : Refusal :=
  { status := statusCode.repr, message := "", reason := "", code := statusCode }

def Answer.ofResponse (statusCode : Nat) (body : Document) : Answer :=
  if isRefusal statusCode then .refusal ((refusalOf body).getD (bareRefusal statusCode))
  else .object body

/-- What comes of a request: one that could not be made has no answer. -/
def outcome {α : Type} (request : Except Fault Request) (read : Answer → Except Fault α)
    (a : Answer) : Except Fault α := do
  let _ ← request
  read a

def rootCaMap : String := "kube-root-ca.crt"

def rootCaKey : String := "ca.crt"

def rootCaRequest (nameSpace : String) : Except Fault Request :=
  Request.make "GET" ("/api/v1/namespaces/" ++ nameSpace ++ "/configmaps/" ++ rootCaMap) none

def noRootCa : Fault :=
  .configuration rootCaMap ("configmap has no '" ++ rootCaKey ++ "' entry")

/-- The certificates in the map's data. Blank text counts as none. -/
def rootCaOf (data : Option (KeyMap String String)) : Except Fault String :=
  match data.bind (·.get? rootCaKey) with
  | some ca => if Text.isAllBlank ca then .error noRootCa else .ok ca
  | none => .error noRootCa

def agrees (fs : Fields) (name wanted : String) : Bool :=
  (fs.lookup name).all fun d => d.text? == some wanted

def configMapKinds : List (String × FieldKind) :=
  [("binaryData", FieldKind.mapOf FieldKind.bytes), ("immutable", FieldKind.bool),
    ("metadata", FieldKind.metadata)]

def dataOf (d : Document) : Option (Option (KeyMap String String)) := do
  let fs ← d.record?
  guard (agrees fs "apiVersion" "v1" && agrees fs "kind" "ConfigMap" && fs.conform configMapKinds)
  fs.optional "data" Document.textMap?

/-- Reads the certificate authority from the answer. That the map is missing is a fault of its own
kind. -/
def readRootCa : Answer → Except Fault String
  | .object d =>
    match dataOf d with
    | some data => rootCaOf data
    | none => .error (.apiServer none)
  | .refusal r =>
    if r.reason = "NotFound" then .error (.notFound "configmap" rootCaMap)
    else .error (.apiServer (some r))

def fieldManager : String := "kpve-controller"

def statusTarget (template : String) : String :=
  "/apis/karpenter.kpve.dev/v1alpha1/proxmoxtemplates/" ++ template ++
    "/status?&fieldManager=" ++ fieldManager

/-- Merges a new status into the stored one, which has to have a name. -/
def statusRequest (template : String) (status : TemplateClass.Status) : Except Fault Request :=
  if template.isEmpty then .error (.apiServer none)
  else Request.make "PATCH" (statusTarget template) (some (.record [("status", status.toDocument)]))

def templateParts? : Document → Option (Document × Document × Document)
  | .list [metadata, spec, status] => some (metadata, spec, status)
  | .record fs => do
    return (← fs.lookup "metadata", ← fs.lookup "spec", (fs.lookup "status").getD .null)
  | _ => none

def isTemplate (d : Document) : Bool :=
  (templateParts? d).any fun (metadata, spec, status) =>
    FieldKind.metadata metadata && (TemplateClass.Spec.ofDocument? spec).isSome &&
      (Document.orNull TemplateClass.Status.ofDocument? status).isSome

def readStatusReply : Answer → Except Fault Unit
  | .object d => if isTemplate d then .ok () else .error (.apiServer none)
  | .refusal r => .error (.apiServer (some r))

end NodeProvisioner.ClusterApi
