import NodeProvisioner.Launch.Removal
import NodeProvisioner.Proofs.Refusals

/-! What it means that a machine is not found. Either each region that was searched has said that it
has no such machine, or somebody who was asked has said that something does not exist, and that
ended the request. -/
namespace NodeProvisioner

def Trace.lookedIn (machine : MachineId) (region : String) : Trace :=
  [⟨.connect region, .ok ()⟩, ⟨.hypervisor region (.findMachine machine), .ok none⟩]

/-- How a request that looks for a machine comes to say that something does not exist. -/
inductive Missing (id : String) (machine : MachineId) (regions : List String) :
    Trace → Fault → Prop where
  /-- None of the regions has the machine. -/
  | absent : Missing id machine regions (regions.flatMap (Trace.lookedIn machine))
      (.notFound "vm" id)
  /-- The regions before this one do not have the machine, and the last call was answered so. -/
  | refused (before : List String) {after : List String} {region : String} {t : Trace} {e : Fault}
      (hregions : regions = before ++ region :: after) (h : t.lastRefusal? = some e) :
      Missing id machine regions (before.flatMap (Trace.lookedIn machine) ++ t) e

namespace Missing
variable {id : String} {machine : MachineId} {region : String} {regions : List String}
  {t : Trace} {e : Fault}

theorem of_first (h : t.lastRefusal? = some e) : Missing id machine (region :: regions) t e :=
  .refused [] rfl h

theorem cons (h : Missing id machine regions t e) :
    Missing id machine (region :: regions) (Trace.lookedIn machine region ++ t) e := by
  cases h with
  | absent => exact .absent
  | refused before hregions h =>
    rw [← List.append_assoc, ← List.flatMap_cons]
    exact .refused (region :: before) (by rw [hregions, List.cons_append]) h

end Missing

namespace ProviderId

theorem parse_error {id : String} {e : Fault} (h : parse id = .error e) : e.isNotFound = false := by
  unfold parse at h
  split at h <;> cases h
  rfl

end ProviderId

namespace NodeClaim
variable {settings : Settings} {claim : NodeClaim} {id : String} {p : ProviderId} {region : String}

def stopMachine (settings : Settings) (region : String) (seen : Location) : Job Unit :=
  if seen.power = .stopped then return ()
  else do
    let task ← Hypervisor.send region (.stop seen.zone seen.machine)
    Task.succeed settings.taskPatience true region seen.zone task

def deleteMachine (settings : Settings) (region : String) (seen : Location) : Job Unit := do
  let task ← Hypervisor.send region (.delete seen.zone seen.machine)
  Task.succeed settings.taskPatience true region seen.zone task

theorem removeMachine_eq (settings : Settings) (region : String) (seen : Location) :
    removeMachine settings region seen = (do
      stopMachine settings region seen
      deleteMachine settings region seen) := by
  unfold removeMachine stopMachine
  by_cases h : seen.power = .stopped
  · rw [if_pos h, Job.pure_bind]
    exact if_neg fun hne => hne h
  · rw [if_neg h, Job.bind_assoc]
    exact if_pos h

theorem removeMachine_passesOn (seen : Location) :
    (removeMachine settings region seen).PassesOn := by
  have hstop : (stopMachine settings region seen).PassesOn := by
    unfold stopMachine
    split
    · exact Job.passesOn_pure ()
    · exact (Hypervisor.send_passesOn _ _).bind fun _ => Task.succeed_passesOn
  have hdelete : (deleteMachine settings region seen).PassesOn :=
    (Hypervisor.send_passesOn _ _).bind fun _ => Task.succeed_passesOn
  rw [removeMachine_eq]
  exact hstop.bind fun _ => hdelete

/-- Whatever the replies are, the job says that something does not exist only if its search of the
regions came to that. -/
def Seeks {α : Type} (id : String) (machine : MachineId) (regions : List String)
    (j : Job α) : Prop :=
  j.Ensures fun t r => ∀ e, r = .error e → e.isNotFound = true → Missing id machine regions t e

theorem seeks_cons {α : Type} {machine : MachineId} {regions : List String}
    {f : Option Location → Job α} (hfound : ∀ seen, (f (some seen)).PassesOn)
    (hrest : Seeks id machine regions (f none)) :
    Seeks id machine (region :: regions) (do
      connect region
      f (← Hypervisor.send region (.findMachine machine))) := by
  unfold Seeks
  rw [Job.ensures_bind]
  refine (Plan.ensures_perform (.connect region) _).2 fun r => ?_
  cases r with
  | error e =>
    rintro _ ⟨⟩ -
    exact .of_first rfl
  | ok u =>
    refine (Job.ensures_bind _ _ _).2 ((Hypervisor.ensures_send _ _ _).2 fun r => ?_)
    rcases r with e | _ | seen
    · rintro _ ⟨⟩ -
      exact .of_first rfl
    · exact hrest.mono fun t r hr e he hmissing => (hr e he hmissing).cons
    · refine (hfound seen).mono fun t r hr e he hmissing => .of_first ?_
      exact Trace.lastRefusal?_append (Trace.lastRefusal?_append (hr e he hmissing))

structure Names (claim : NodeClaim) (id : String) (p : ProviderId) (region : String) : Prop where
  providerId : claim.providerId = some id
  parsed : ProviderId.parse id = .ok p
  /-- The region of the id comes first, the label of the claim second. -/
  region : (p.region <|> claim.label Label.region) = some region

theorem identify_cases (claim : NodeClaim) :
    (∃ e, claim.identify = .error e ∧ e.isNotFound = false) ∨
      ∃ id p region, claim.identify = .ok (id, p, region) ∧ claim.Names id p region := by
  unfold identify
  cases hid : claim.providerId with
  | none => exact .inl ⟨notLaunched, rfl, rfl⟩
  | some id =>
    cases hp : ProviderId.parse id with
    | error e => exact .inl ⟨e, by simp [hp, bind, Except.bind], ProviderId.parse_error hp⟩
    | ok p =>
      cases hregion : p.region <|> claim.label Label.region with
      | none =>
        exact .inl ⟨regionUnknown id, by simp [hp, hregion, regionOf, bind, Except.bind], rfl⟩
      | some region =>
        refine .inr ⟨id, p, region, ?_, hid, hp, hregion⟩
        simp [hp, hregion, regionOf, bind, Except.bind, pure, Except.pure]

theorem delete_seeks (settings : Settings) (claim : NodeClaim) :
    (claim.delete settings).Ensures fun t r => ∀ e, r = .error e → e.isNotFound = true →
      ∃ id p region, claim.Names id p region ∧ Missing id p.machine [region] t e := by
  unfold delete
  rcases claim.identify_cases with ⟨e, hid, hvalid⟩ | ⟨id, p, region, hid, hnames⟩
  · rw [hid]
    refine (Job.ensures_bind _ _ _).2 ((Job.ensures_ofExcept _ _).2 ?_)
    rintro _ ⟨⟩ hmissing
    simp [hvalid] at hmissing
  · rw [hid]
    have hfound (seen : Location) : (do
        let m ← Hypervisor.send region (.readMachine seen.zone seen.machine)
        removeMachine settings region seen
        giveBack claim region seen m : Job Unit).PassesOn :=
      (Hypervisor.send_passesOn _ _).bind fun m =>
        (removeMachine_passesOn seen).bind fun _ => Job.passesOn_lift _
    have hnone : Seeks id p.machine [] (Job.fail (.notFound "vm" id) : Job Unit) := by
      refine (Job.ensures_fail _ _).2 ?_
      rintro _ ⟨⟩ -
      exact .absent
    refine Job.Ensures.mono (seeks_cons hfound hnone) fun t r hr e he hmissing => ?_
    exact ⟨id, p, region, hnames, hr e he hmissing⟩

theorem findIn_seeks (machine : MachineId) (regions : List String) :
    Seeks id machine regions (findIn id machine regions) := by
  induction regions with
  | nil =>
    refine (Job.ensures_fail _ _).2 ?_
    rintro _ ⟨⟩ -
    exact .absent
  | cons region regions ih =>
    have hfound (seen : Location) : (do
        let m ← Hypervisor.send region (.readMachine seen.zone seen.machine)
        return ofMachine region seen m).PassesOn :=
      (Hypervisor.send_passesOn _ _).bind fun m => Job.passesOn_pure _
    unfold findIn
    exact seeks_cons hfound ih

/-- The regions that are searched for an id, with the calls of the search: the id's own region, or
else all that there are. -/
inductive Searches (p : ProviderId) : Trace → List String → Trace → Prop where
  | own {region : String} (h : p.region = some region) (t : Trace) : Searches p t [region] t
  | all (h : p.region = none) (regions : List String) (t : Trace) :
      Searches p (⟨.ask .clusterRegions, regions⟩ :: t) regions t

theorem get_seeks (id : String) :
    (NodeClaim.get id).Ensures fun t r => ∀ e, r = .error e → e.isNotFound = true →
      ∃ p regions searched, ProviderId.parse id = .ok p ∧ Searches p t regions searched ∧
        Missing id p.machine regions searched e := by
  unfold NodeClaim.get
  refine (Job.ensures_bind _ _ _).2 ((Job.ensures_ofExcept _ _).2 ?_)
  cases hp : ProviderId.parse id with
  | error e =>
    rintro _ ⟨⟩ hmissing
    simp [ProviderId.parse_error hp] at hmissing
  | ok p =>
    dsimp only
    cases hregion : p.region with
    | some region =>
      refine (findIn_seeks p.machine [region]).mono fun t r hr e he hmissing => ?_
      exact ⟨p, [region], t, rfl, .own hregion t, hr e he hmissing⟩
    | none =>
      refine (Job.ensures_perform_bind (.ask _) _ _).2 fun regions => ?_
      refine (findIn_seeks p.machine regions).mono fun t r hr e he hmissing => ?_
      exact ⟨p, regions, t, rfl, .all hregion regions t, hr e he hmissing⟩

/-- Where a deletion or a lookup says that something does not exist, either every region that was to
be searched was reached and has no such machine, or the last call was answered by this very fault,
after all the regions before had no such machine. -/
theorem notFound_missing :
    (∀ (settings : Settings) (claim : NodeClaim) (t : Trace) (e : Fault),
      (claim.delete settings).run.Yields t (.error e) → e.isNotFound = true →
        ∃ id p region, claim.Names id p region ∧ Missing id p.machine [region] t e) ∧
    ∀ (id : String) (t : Trace) (e : Fault),
      (NodeClaim.get id).run.Yields t (.error e) → e.isNotFound = true →
        ∃ p regions searched, ProviderId.parse id = .ok p ∧ Searches p t regions searched ∧
          Missing id p.machine regions searched e :=
  ⟨fun settings claim t e h => delete_seeks settings claim t _ h e rfl,
    fun id t e h => get_seeks id t _ h e rfl⟩

def launchedAs (id : String) : NodeClaim where
  name := some "a"
  spec := { nodeClass := { name := "default" } }
  status := some { providerId := some id }

def goneAndUnknown : (c : Call) → c.Reply
  | .ask .clusterRegions => ["r1", "r2"]
  | .connect "r2" => .error (.notFound "region" "r2")
  | .hypervisor _ (.findMachine _) => .ok none
  | c => c.grant

theorem notFound_missing_gone :
    (∃ t e, ((launchedAs "proxmox://r1/1000").delete {}).run.Yields t (.error e) ∧
      e.isNotFound = true ∧ ∃ id p region, (launchedAs "proxmox://r1/1000").Names id p region ∧
        Missing id p.machine [region] t e) ∧
    ∃ t e, (NodeClaim.get "proxmox://1000").run.Yields t (.error e) ∧ e.isNotFound = true ∧
      ∃ p regions searched, ProviderId.parse "proxmox://1000" = .ok p ∧
        Searches p t regions searched ∧ Missing "proxmox://1000" p.machine regions searched e := by
  obtain ⟨t, e, hdelete, he⟩ := Job.fails_of_play (fun _ => goneAndUnknown)
    ((launchedAs "proxmox://r1/1000").delete {}) (fun _ e => e.isNotFound) (by decide)
  obtain ⟨t', e', hget, he'⟩ := Job.fails_of_play (fun _ => goneAndUnknown)
    (NodeClaim.get "proxmox://1000") (fun _ e => e.isNotFound) (by decide)
  exact ⟨⟨t, e, hdelete, he, notFound_missing.1 _ _ t e hdelete he⟩,
    t', e', hget, he', notFound_missing.2 _ t' e' hget he'⟩

end NodeClaim

def Event.tellsAbsent : Event → Bool
  | ⟨.hypervisor _ (.findMachine _), .ok none⟩ => true
  | _ => false

/-- The job can say that something does not exist although no region says that it has no such
machine. -/
def Job.DeniesUnlooked {α : Type} (j : Job α) : Prop :=
  ∃ t e, j.run.Yields t (.error e) ∧ e.isNotFound = true ∧ ∀ event ∈ t, event.tellsAbsent = false

theorem Job.deniesUnlooked_of_play {α : Type} (answer : (c : Call) → c.Reply) {j : Job α}
    (h : (match j.run.play (fun _ => answer) [] with
      | (t, .error e) => e.isNotFound && !t.any Event.tellsAbsent
      | (_, .ok _) => false) = true) : j.DeniesUnlooked := by
  obtain ⟨t, e, hrun, hgood⟩ := fails_of_play (fun _ => answer) j
    (fun t e => e.isNotFound && !t.any Event.tellsAbsent) h
  simp only [Bool.and_eq_true, Bool.not_eq_true', List.any_eq_false] at hgood
  exact ⟨t, e, hrun, hgood.1, fun event hevent => by simpa using hgood.2 event hevent⟩

namespace NodeClaim

def regionsUnknown : (c : Call) → c.Reply
  | .connect region => .error (.notFound "region" region)
  | c => c.grant

def stopUnknown : (c : Call) → c.Reply
  | .hypervisor _ (.findMachine id) => .ok (some { machine := id, zone := "z1", power := .running })
  | .hypervisor _ (.taskStatus _ task) => .error (.notFound "task" task)
  | c => c.grant

/-- A region that is not known and a task that is not known are not found either. -/
theorem notFound_unlooked :
    ((launchedAs "proxmox://r1/1000").delete {}).DeniesUnlooked ∧
      (NodeClaim.get "proxmox://r1/1000").DeniesUnlooked ∧
      (NodeClaim.get "proxmox://1000").DeniesUnlooked :=
  ⟨Job.deniesUnlooked_of_play stopUnknown (by decide +kernel),
    Job.deniesUnlooked_of_play regionsUnknown (by decide),
    Job.deniesUnlooked_of_play regionsUnknown (by decide)⟩

end NodeClaim
end NodeProvisioner
