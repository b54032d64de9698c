import NodeProvisioner.World.Plan

/-! Keeping the inventory of templates up to date. The snapshot of a region is gathered first and
then swapped in at once, so that a failure leaves the former one in place. -/
namespace NodeProvisioner.Sync

def storageOf (region : String) (m : Machine) : Plan (Option Storage) :=
  match TemplateEntry.onlyStorage? m with
  | some id => (Question.storage region id).ask
  | none => return none

/-- Describes a listed template, also one whose configuration cannot be read. -/
def describe (region : String) (seen : Location) : Plan TemplateEntry := do
  match ← (Hypervisor.send region (.readMachine seen.zone seen.machine)).run with
  | .ok m => return .classify region seen m (← storageOf region m)
  | .error _ => return .unreadable region seen

def describeAll (region : String) : List Location → Plan (List TemplateEntry)
  | [] => return []
  | seen :: rest => do
    let entry ← describe region seen
    return entry :: (← describeAll region rest)

def region (region : String) : Job Unit := do
  connect region
  let listed ← Hypervisor.send region .listTemplates
  let entries ← describeAll region (listed.filter (·.template))
  Memory.access (.publish region entries)

def each : List String → Plan (List Fault)
  | [] => return []
  | r :: rest => do
    let faults := match ← (region r).run with
      | .ok _ => []
      | .error e => [e]
    return faults ++ (← each rest)

/-- Takes new snapshots of all regions, whatever becomes of the single ones. -/
def all : Job Unit := do
  let regions ← Question.clusterRegions.ask
  let faults ← each regions
  Job.ofExcept (Fault.joined "template inventory sync" faults)

/-- How many times a thing is done that is done at once and then after each interval, before the
span is over. -/
def ticks (interval span : Nat) : Nat := (span + (interval - 1)) / interval

/-- Takes new snapshots a number of times, with a pause after each. A caller who cancels ends the
whole in the next pause, and never while snapshots are taken. -/
def repeatedly (interval : Nat) : Nat → Plan Unit
  | 0 => return ()
  | n + 1 => do
    all.tolerate
    if ← (Circumstance.pause interval true).learn then return ()
    else repeatedly interval n

def during (interval span : Nat) : Plan Unit := do
  if ← Circumstance.cancelled.learn then return ()
  else repeatedly interval (ticks interval span)

end NodeProvisioner.Sync
