import NodeProvisioner.Launch.Provision

/-! The search for a place: shapes from the cheapest on, for each its regions, for each its zones.
The first launch that succeeds ends the search; what fails is remembered, and the search goes on. -/
namespace NodeProvisioner

namespace Search

/-- How far a search got: to a node, or past candidates that all failed. -/
inductive Progress where
  | found (node : NodeClaim)
  | missed (attempts : List String)

/-- Tries things in turn until one leads to a node; `attempts` is what failed before. -/
def tryEach {α : Type} (step : α → List String → Job Progress) :
    List α → List String → Job Progress
  | [], attempts => return .missed attempts
  | x :: xs, attempts => do
    match ← step x attempts with
    | .found node => return .found node
    | .missed attempts => tryEach step xs attempts

def noOffering (t : InstanceType) : String := t.name ++ ": no compatible offering"

def noRoom (t : InstanceType) (region : String) : String :=
  t.name ++ "/" ++ region ++ ": no zone has room"

def failure (c : Candidate) (e : Fault) : String :=
  c.shape.name ++ "/" ++ c.region ++ "/" ++ c.zone ++ ": " ++ e.message

def cancelled : Fault := .transient "create" "cancelled"

variable (settings : Settings) (claim : NodeClaim) (cls : NodeClass)

def tryZone (shape : InstanceType) (region zone : String) (attempts : List String) :
    Job Progress := do
  if ← Circumstance.cancelled.learn then Job.fail cancelled
  let c : Candidate := { claim, cls, shape, region, zone }
  match ← (c.launch settings).attempt with
  | .ok node => return .found node
  | .error e => return .missed (attempts ++ [failure c e])

/-- The zones to try: those that the claim names and the region has, else all with room. -/
def candidateZones (rs : Requirements) (region : String) (shape : InstanceType) :
    Plan (List String) := do
  match Placement.namedZones? rs with
  | some named =>
    let known ← (Question.zones region).ask
    return named.filter known.contains
  | none => (Question.zonesWithRoom region shape.capacity).ask

def orderedZones (region : String) (zones : List String) : Plan (List String) := do
  let load ← (Question.loads region).ask
  let draw ← Circumstance.draws.learn
  return Placement.orderZones cls.spec.zoneBalance load draw zones

def tryRegion (shape : InstanceType) (region : String) (attempts : List String) :
    Job Progress := do
  match ← candidateZones claim.requirements region shape with
  | [] => return .missed (attempts ++ [noRoom shape region])
  | z :: zs =>
    let zones ← orderedZones cls region (z :: zs)
    tryEach (tryZone settings claim cls shape region) zones attempts

def candidateRegions (rs : Requirements) : Plan (List String) := do
  return Placement.regions cls rs (← Question.capacityRegions.ask)

def tryShape (shape : InstanceType) (attempts : List String) : Job Progress := do
  let regions ← candidateRegions cls claim.requirements
  tryEach (tryRegion settings claim cls shape) regions attempts

end Search

namespace NodeClaim

def create (settings : Settings) (claim : NodeClaim) (cls : NodeClass)
    (types : List InstanceType) : Job NodeClaim := do
  let rs := claim.requirements
  let hopeless := (Placement.unpriced types rs).map Search.noOffering
  let shapes := Placement.priced types rs
  match ← Search.tryEach (Search.tryShape settings claim cls) shapes hopeless with
  | .found node => return node
  | .missed attempts => Job.fail (.insufficientCapacity attempts)

end NodeClaim
end NodeProvisioner
