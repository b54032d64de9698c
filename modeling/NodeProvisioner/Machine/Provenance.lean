import NodeProvisioner.Text.Blank
import NodeProvisioner.Text.Cut

/-! What a managed machine was launched for. It is kept in the machine's description, one
`key=value` line each, so that it can be found again without any other record. -/
namespace NodeProvisioner

structure Provenance where
  nodeClaim : Option String := none
  nodeClass : Option String := none
  instanceType : Option String := none
  capacityType : Option String := none
  /-- The template that the machine was cloned from, as `region/zone/id`. -/
  template : Option String := none
  deriving DecidableEq, Inhabited

namespace Provenance

def marker : String := "managed-by=kpve"

/-- Takes over one `key=value` line; other lines change nothing. -/
def readLine (p : Provenance) (line : String) : Provenance :=
  match Text.cut? '=' (Text.trim line) with
  | some ("nodeclaim", v) => { p with nodeClaim := some v }
  | some ("nodeclass", v) => { p with nodeClass := some v }
  | some ("instance-type", v) => { p with instanceType := some v }
  | some ("capacity-type", v) => { p with capacityType := some v }
  | some ("template", v) => { p with template := some v }
  | _ => p

def parse (description : String) : Provenance :=
  (Text.pieces '\n' description).foldl readLine {}

def line (key : String) : Option String → List String
  | none => []
  | some v => [key ++ "=" ++ v]

def render (p : Provenance) : String :=
  String.intercalate "\n" (marker :: (line "nodeclaim" p.nodeClaim ++
    line "nodeclass" p.nodeClass ++ line "instance-type" p.instanceType ++
    line "capacity-type" p.capacityType ++ line "template" p.template))

end Provenance
end NodeProvisioner
