import NodeProvisioner.World.Plan

/-! Allocation of machine ids. The hypervisor names the next free id; ids that were handed out a
short while ago are passed over, up to a bound. -/
namespace NodeProvisioner.MachineIds

/-- How many ids are passed over before the search is given up. -/
def maxAttempts : Nat := 64

def exhausted (region : String) : Fault :=
  .transient "vmid allocation" ("no unclaimed id found in region " ++ region ++ " after " ++
    Text.numeral maxAttempts ++ " attempts")

/-- Tries up to `attempts` free ids at or above the floor. -/
def allocateFrom (region : String) : Nat → MachineId → Job MachineId
  | 0, _ => Job.fail (exhausted region)
  | attempts + 1, floor => do
    let candidate ← Hypervisor.send region (.nextId floor)
    if ← Memory.access (.claimId region candidate) then return candidate
    else allocateFrom region attempts (candidate + 1)

def allocate (region : String) (floor : MachineId) : Job MachineId :=
  allocateFrom region maxAttempts floor

def release (region : String) (machine : MachineId) : Plan Unit :=
  Memory.access (.forgetId region machine)

end NodeProvisioner.MachineIds
