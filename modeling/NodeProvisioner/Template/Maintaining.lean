import NodeProvisioner.Template.Installing

/-! Updating and removing an installed template class, entry by entry of its recorded zones. An
entry that fails does not keep the others from being tried. -/
namespace NodeProvisioner

/-- The outcome of one recorded entry; an entry that cannot be read has failed. -/
structure EntryOutcome where
  entry : String
  installation : Option Installation
  result : Except Fault Unit

namespace EntryOutcome

def faults (os : List EntryOutcome) : List Fault :=
  os.filterMap fun o =>
    match o.result with
    | .ok _ => none
    | .error e => some e

def remaining (os : List EntryOutcome) : List String :=
  (os.filter fun o => match o.result with | .ok _ => false | .error _ => true).map (·.entry)

/-- The regions of all entries that could be read, each once, in ascending order. -/
def regions (os : List EntryOutcome) : List String :=
  (KeySet.ofList (os.filterMap fun o => o.installation.map (·.region))).toList

def of (job : Installation → Job Unit) (entry : String) : Plan EntryOutcome := do
  match Installation.parse entry with
  | .ok i => return { entry, installation := some i, result := ← (job i).run }
  | .error u => return { entry, installation := none, result := .error u.fault }

def forEach (job : Installation → Job Unit) : List String → Plan (List EntryOutcome)
  | [] => return []
  | entry :: rest => do
    let outcome ← of job entry
    return outcome :: (← forEach job rest)

end EntryOutcome

namespace TemplateClass

/-- Renews the inventory of regions, as far as that is possible. -/
def renew (regions : List String) : Plan Unit := do
  let _ ← Sync.each regions

def updateEntry (t : TemplateClass) (i : Installation) : Job Unit := do
  connect i.region
  let current ← Hypervisor.send i.region (.readMachine i.zone i.machine)
  let change := Blueprint.mutableChange t.spec (some current)
  unless change.isEmpty do
    Hypervisor.send i.region (.configure i.zone i.machine change)

def update (t : TemplateClass) : Job Unit := do
  let outcomes ← EntryOutcome.forEach t.updateEntry t.currentStatus.zones
  renew (EntryOutcome.regions outcomes)
  Job.ofExcept (Fault.joined t.context (EntryOutcome.faults outcomes))

/-- The image file that is removed: the recorded one, else the one that the class asks for. -/
def removedImage (t : TemplateClass) : String := t.currentStatus.imageId.getD t.imageFile

def removeImages (settings : Settings) (file region zone : String) : List String → Job Unit
  | [] => return ()
  | storage :: rest => do
    let volume := Image.volume storage file
    let present ← Hypervisor.send region (.listContent zone storage Image.importContent)
    if present.contains volume then
      let task ← Hypervisor.send region (.deleteVolume zone volume)
      Task.succeed settings.taskPatience true region zone task
    removeImages settings file region zone rest

def removeMachine (settings : Settings) (i : Installation) : Job Unit := do
  match ← Hypervisor.send i.region (.findMachine i.machine) with
  | none => return ()
  | some seen =>
    let task ← Hypervisor.send i.region (.delete seen.zone i.machine)
    Task.succeed settings.taskPatience true i.region seen.zone task

/-- Removes the machine and the images of one entry, under the lock of its zone. -/
def removeEntry (settings : Settings) (t : TemplateClass) (i : Installation) : Job Unit := do
  connect i.region
  withZone i.region i.zone do
    removeMachine settings i
    let storages ← storagesOf i.region t.spec.storageIds
    removeImages settings t.removedImage i.region i.zone (importStoragesInZone i.zone storages)

/-- Removes all that is recorded. What could not be removed stays recorded, with the image file, so
that the next try removes the same. -/
def delete (settings : Settings) (t : TemplateClass) : Job Unit := do
  let outcomes ← EntryOutcome.forEach (t.removeEntry settings) t.currentStatus.zones
  let remaining := EntryOutcome.remaining outcomes
  let status : Status :=
    { imageId := if remaining.isEmpty then none else some t.removedImage, zones := remaining }
  writeStatus t.displayName status
  renew (EntryOutcome.regions outcomes)
  Job.ofExcept (Fault.joined t.context (EntryOutcome.faults outcomes))

end TemplateClass
end NodeProvisioner
