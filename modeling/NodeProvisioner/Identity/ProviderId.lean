import NodeProvisioner.Machine.Config

/-! Provider ids: `proxmox://region/id`, or without the region in older claims. -/
namespace NodeProvisioner

structure ProviderId where
  region : Option String
  machine : MachineId
  deriving DecidableEq, Inhabited

namespace ProviderId

def scheme : String := "proxmox://"

def make (region : String) (machine : MachineId) : String :=
  scheme ++ region ++ "/" ++ Text.numeral machine.toNat

/-- The scheme, at most one region that is not empty, and a numeral. -/
def parse? (s : String) : Option ProviderId := do
  let rest ← Text.after? scheme s
  match Text.cutLast? '/' rest with
  | none => (Text.readUInt32? rest).map fun machine => { region := none, machine }
  | some (region, id) =>
    if region.isEmpty || region.toList.contains '/' then none
    else (Text.readUInt32? id).map fun machine => { region := some region, machine }

def parse (s : String) : Except Fault ProviderId :=
  match parse? s with
  | some p => .ok p
  | none => .error (.invalid ("invalid provider id '" ++ s ++ "'"))

end ProviderId
end NodeProvisioner
