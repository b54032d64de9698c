import NodeProvisioner.Machine.Config

/-! An installed template machine, written as `region/zone/id`. -/
namespace NodeProvisioner

structure Installation where
  region : String
  zone : String
  machine : MachineId
  deriving DecidableEq, Inhabited

namespace Installation

def render (i : Installation) : String :=
  i.region ++ "/" ++ i.zone ++ "/" ++ Text.numeral i.machine.toNat

/-- Three parts, of which the first two are not empty and the third is a numeral. -/
def parse? (s : String) : Option Installation :=
  match Text.pieces '/' s with
  | [region, zone, id] =>
    if region.isEmpty || zone.isEmpty then none
    else (Text.readUInt32? id).map fun machine => { region, zone, machine }
  | _ => none

def parse (s : String) : Except Unreadable Installation :=
  match parse? s with
  | some i => .ok i
  | none => .error (.installation s)

end Installation
end NodeProvisioner
