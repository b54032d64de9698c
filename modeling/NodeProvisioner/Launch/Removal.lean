import NodeProvisioner.Launch.NodeDescription
import NodeProvisioner.Settings
import NodeProvisioner.World.MachineIds
import NodeProvisioner.World.Waiting

/-! Looking up and removing the machine behind a claim. -/
namespace NodeProvisioner

namespace NodeClaim

def notLaunched : Fault := .invalidField "nodeclaim" "status.providerID" "not launched"

def regionUnknown (id : String) : Fault := .invalid ("cannot tell the region of " ++ id)

/-- The region of a provider id, or else of the claim's label. -/
def regionOf (claim : NodeClaim) (id : String) (p : ProviderId) : Except Fault String :=
  match p.region <|> claim.label Label.region with
  | some region => .ok region
  | none => .error (regionUnknown id)

def identify (claim : NodeClaim) : Except Fault (String × ProviderId × String) := do
  match claim.providerId with
  | none => throw notLaunched
  | some id =>
    let p ← ProviderId.parse id
    return (id, p, ← claim.regionOf id p)

def removeMachine (settings : Settings) (region : String) (seen : Location) : Job Unit := do
  let p := settings.taskPatience
  if seen.power ≠ .stopped then
    let task ← Hypervisor.send region (.stop seen.zone seen.machine)
    Task.succeed p true region seen.zone task
  let task ← Hypervisor.send region (.delete seen.zone seen.machine)
  Task.succeed p true region seen.zone task

def revokeToken (claim : NodeClaim) : Plan Unit :=
  match claim.annotations.get? Annotation.bootstrapToken with
  | some token => (Bootstrap.send (.revokeToken token)).tolerate
  | none => return ()

/-- Gives back what the machine held. Nothing of this keeps the removal from having succeeded. -/
def giveBack (claim : NodeClaim) (region : String) (seen : Location) (m : Machine) : Plan Unit := do
  (Capacity.send (.release region seen.zone (.ofMachine seen.machine m))).tolerate
  claim.revokeToken
  MachineIds.release region seen.machine
  (Capacity.send (.refresh region seen.zone)).tolerate

/-- Deletes the machine behind a claim, then gives its capacity back. A machine that does not
exist is a fault of its own kind, and nothing is given back for it. -/
def delete (settings : Settings) (claim : NodeClaim) : Job Unit := do
  let (id, p, region) ← Job.ofExcept claim.identify
  connect region
  match ← Hypervisor.send region (.findMachine p.machine) with
  | none => Job.fail (.notFound "vm" id)
  | some seen =>
    let m ← Hypervisor.send region (.readMachine seen.zone seen.machine)
    removeMachine settings region seen
    giveBack claim region seen m

def findIn (id : String) (machine : MachineId) : List String → Job NodeClaim
  | [] => Job.fail (.notFound "vm" id)
  | region :: rest => do
    connect region
    match ← Hypervisor.send region (.findMachine machine) with
    | some seen =>
      let m ← Hypervisor.send region (.readMachine seen.zone seen.machine)
      return ofMachine region seen m
    | none => findIn id machine rest

/-- Describes the machine behind a provider id. An id without a region is looked for in all. -/
def get (id : String) : Job NodeClaim := do
  let p ← Job.ofExcept (ProviderId.parse id)
  match p.region with
  | some region => findIn id p.machine [region]
  | none =>
    let regions ← Question.clusterRegions.ask
    findIn id p.machine regions

end NodeClaim
end NodeProvisioner
