import NodeProvisioner.Launch.Removal
import NodeProvisioner.Proofs.Launch.Fleet

/-! Whose machine a deletion removes. A claim knows its machine by an id, and a deletion goes by the
id alone, so that it removes whatever machine has the id by then. -/
namespace NodeProvisioner

inductive Request where
  | create (claim : NodeClaim) (cls : NodeClass) (types : List InstanceType)
  | delete (claim : NodeClaim)

def Request.plan (settings : Settings) : Request → Plan Unit
  | create claim cls types => (claim.create settings cls types).tolerate
  | delete claim => (claim.delete settings).tolerate

structure Served where
  request : Request
  moments : List Moment

def Served.trace (s : Served) : Trace := s.moments.map (·.event)

/-- The requests are served one after the other, from these machines to those. -/
inductive Fleet.Runs (settings : Settings) : Fleet → List Served → Fleet → Prop where
  | nil (f : Fleet) : Runs settings f [] f
  | cons {f f₁ f' : Fleet} {s : Served} {run : List Served}
      (hplan : (s.request.plan settings).Yields s.trace ()) (hserve : f.Serves s.moments f₁)
      (rest : Runs settings f₁ run f') : Runs settings f (s :: run) f'

namespace Owners

/-- Only the creation of a node launches machines. -/
def after (own : Owners) (s : Served) : Owners :=
  match s.request with
  | .create claim _ _ => s.trace.foldl (note claim.displayName) own
  | .delete _ => own

def afterAll (own : Owners) (run : List Served) : Owners := run.foldl after own

end Owners

def Call.removes? : Call → Option (String × MachineId)
  | .hypervisor region (.stop _ id) => some (region, id)
  | .hypervisor region (.delete _ id) => some (region, id)
  | _ => none

/-- Stops and deletes no machine but that of the claim's provider id, and shapes none. -/
structure Call.AimsAt (claim : NodeClaim) (c : Call) : Prop where
  notShaping : c.isShaping = false
  removes : ∀ region id, c.removes? = some (region, id) →
    ∃ text p, claim.identify = .ok (text, p, region) ∧ id = p.machine

namespace NodeClaim

theorem succeed_aims {claim : NodeClaim} {p : Patience} {region zone : String} {task : TaskId} :
    (Task.succeed p true region zone task).Only (Call.AimsAt claim) :=
  Task.succeed_only ⟨rfl, nofun⟩ ⟨rfl, nofun⟩ fun _ => ⟨rfl, nofun⟩

theorem removeMachine_aims {settings : Settings} {claim : NodeClaim} {region text : String}
    {p : ProviderId} {seen : Location} (hid : claim.identify = .ok (text, p, region))
    (hseen : seen.machine = p.machine) :
    (removeMachine settings region seen).Only (Call.AimsAt claim) := by
  have haims : ∀ r id, some (region, seen.machine) = some (r, id) →
      ∃ text p, claim.identify = .ok (text, p, r) ∧ id = p.machine := by
    rintro _ _ ⟨⟩
    exact ⟨text, p, hid, hseen⟩
  have hdelete : (do
      let task ← Hypervisor.send region (.delete seen.zone seen.machine)
      Task.succeed settings.taskPatience true region seen.zone task : Job Unit).Only
        (Call.AimsAt claim) :=
    (Hypervisor.only_send ⟨rfl, haims⟩).bind fun _ => succeed_aims
  unfold removeMachine
  dsimp only
  split
  · exact (Hypervisor.only_send ⟨rfl, haims⟩).bind fun _ => succeed_aims.bind fun _ => hdelete
  · exact hdelete

theorem giveBack_aims {claim : NodeClaim} {region : String} {seen : Location} {m : Machine} :
    (giveBack claim region seen m).Only (Call.AimsAt claim) := by
  have hrevoke : claim.revokeToken.Only (Call.AimsAt claim) := by
    unfold revokeToken
    split
    · exact (Bootstrap.only_send ⟨rfl, nofun⟩).tolerate
    · exact Plan.only_pure _
  refine (Capacity.only_send ⟨rfl, nofun⟩).tolerate.bind fun _ => hrevoke.bind fun _ => ?_
  refine Plan.Only.bind (Memory.only_access ⟨rfl, nofun⟩) fun _ => ?_
  exact (Capacity.only_send ⟨rfl, nofun⟩).tolerate

theorem findMachine_aims {claim : NodeClaim} {region : String} {id : MachineId}
    {f : Option Location → Job Unit}
    (hnone : (f none).OnlyWhen Event.FindsExactly (Call.AimsAt claim))
    (hsome : ∀ seen : Location, seen.machine = id →
      (f (some seen)).OnlyWhen Event.FindsExactly (Call.AimsAt claim)) :
    (Hypervisor.send region (.findMachine id) >>= f).OnlyWhen Event.FindsExactly
      (Call.AimsAt claim) := by
  have hfind : Call.AimsAt claim (.hypervisor region (.findMachine id)) := ⟨rfl, nofun⟩
  refine (Job.ensures_bind _ _ _).2 ((Hypervisor.ensures_send _ _ _).2 fun r => ?_)
  rcases r with e | _ | seen
  · exact fun _ => List.forall_mem_singleton.2 hfind
  · refine Job.Ensures.mono hnone fun t _ ht hgiven => ?_
    exact List.forall_mem_cons.2 ⟨hfind, ht (List.forall_mem_cons.1 hgiven).2⟩
  · intro t r hrun hgiven
    obtain ⟨hseen, hgiven⟩ := List.forall_mem_cons.1 hgiven
    exact List.forall_mem_cons.2 ⟨hfind, hsome seen hseen t r hrun hgiven⟩

theorem delete_aims {settings : Settings} {claim : NodeClaim} :
    (claim.delete settings).OnlyWhen Event.FindsExactly (Call.AimsAt claim) := by
  unfold delete
  refine (Job.ensures_bind _ _ _).2 ((Job.ensures_ofExcept _ _).2 ?_)
  cases hid : claim.identify with
  | error e => simp
  | ok known =>
    obtain ⟨text, p, region⟩ := known
    refine Job.OnlyWhen.bind (only_connect ⟨rfl, nofun⟩).when fun _ => ?_
    apply findMachine_aims (Job.only_fail _).when
    intro seen hseen
    refine (Hypervisor.only_send ⟨rfl, nofun⟩).when.bind fun m => ?_
    apply (removeMachine_aims hid hseen).when.bind
    intro _
    exact (Job.only_lift giveBack_aims).when

end NodeClaim

def Request.Plain : Request → Prop
  | create claim cls types => Text.Plain claim.displayName ∧ Text.Plain cls.displayName ∧
    ∀ shape ∈ types, Text.Plain shape.name
  | delete _ => True

/-- All names keep to their lines: those that a request brings along, and those of regions and
zones that it comes across. -/
structure Served.Plain (s : Served) : Prop where
  request : s.request.Plain
  regions : ∀ m ∈ s.moments, m.event.call.RegionPlain
  templates : ∀ m ∈ s.moments, m.event.TemplatesPlain

instance (r : Request) : Decidable r.Plain :=
  match r with
  | .create _ _ _ => inferInstanceAs (Decidable (_ ∧ _ ∧ _))
  | .delete _ => .isTrue trivial

instance (c : Call) : Decidable c.RegionPlain := inferInstanceAs (Decidable (∀ _ ∈ c.region?, _))

instance (e : Event) : Decidable e.TemplatesPlain :=
  inferInstanceAs (Decidable (∀ _ ∈ e.templates, _))

instance (s : Served) : Decidable s.Plain :=
  decidable_of_iff (_ ∧ _ ∧ _)
    ⟨fun h => ⟨h.1, h.2.1, h.2.2⟩, fun h => ⟨h.request, h.regions, h.templates⟩⟩

namespace Served

def Removes (s : Served) (region : String) (id : MachineId) (g : Guest) : Prop :=
  ∃ m ∈ s.moments, m.event.call.removes? = some (region, id) ∧ m.fleet region id = some g

theorem forall_mem_trace {s : Served} {good : Event → Prop} :
    (∀ e ∈ s.trace, good e) ↔ ∀ m ∈ s.moments, good m.event := List.forall_mem_map

end Served

namespace Fleet
variable {settings : Settings} {f f' : Fleet} {own : Owners} {s : Served}

/-- What a deletion stops or deletes is the machine of its claim's provider id, and the record of
owners is true of it. -/
theorem Agrees.removed (h : f.Agrees own) {claim : NodeClaim} (hrequest : s.request = .delete claim)
    (hplan : (s.request.plan settings).Yields s.trace ()) (hserve : f.Serves s.moments f')
    {region : String} {id : MachineId} {g : Guest} (hremoves : s.Removes region id g) :
    g.nodeClaim = own region id ∧
      ∃ text p, claim.identify = .ok (text, p, region) ∧ id = p.machine := by
  rw [hrequest] at hplan
  have haims := NodeClaim.delete_aims.tolerate _ _ hplan
    (Served.forall_mem_trace.2 hserve.findsExactly)
  rw [Served.forall_mem_trace] at haims
  obtain ⟨m, hm, hcall, hg⟩ := hremoves
  refine ⟨?_, (haims m hm).removes region id hcall⟩
  exact (h.throughout (fun m hm => (haims m hm).notShaping) hserve).1 m hm region id g hg

theorem Agrees.after (h : f.Agrees own) (hplan : (s.request.plan settings).Yields s.trace ())
    (hserve : f.Serves s.moments f') (hplain : s.Plain) : f'.Agrees (own.after s) := by
  obtain ⟨hnames, hregions, htemplates⟩ := hplain
  unfold Owners.after
  cases hrequest : s.request with
  | create claim cls types =>
    rw [hrequest] at hplan hnames
    obtain ⟨hclaim, hcls, htypes⟩ := hnames
    have hdescribes := (NodeClaim.create_describes hclaim hcls htypes).tolerate _ _ hplan
      (Served.forall_mem_trace.2 htemplates)
    exact h.serves hregions (Served.forall_mem_trace.1 hdescribes) hserve
  | delete claim =>
    rw [hrequest] at hplan
    have haims := NodeClaim.delete_aims.tolerate _ _ hplan
      (Served.forall_mem_trace.2 hserve.findsExactly)
    exact (h.throughout (fun m hm => (Served.forall_mem_trace.1 haims m hm).notShaping) hserve).2

theorem Runs.agrees {before after : List Served} (h : f.Agrees own)
    (hruns : f.Runs settings (before ++ s :: after) f') (hplain : ∀ s ∈ before, s.Plain) :
    ∃ f₁ f₂ : Fleet, f₁.Agrees (own.afterAll before) ∧
      (s.request.plan settings).Yields s.trace () ∧ f₁.Serves s.moments f₂ := by
  induction before generalizing f own with
  | nil =>
    cases hruns with
    | cons hplan hserve _ => exact ⟨f, _, h, hplan, hserve⟩
  | cons b bs ih =>
    obtain ⟨hb, hbs⟩ := List.forall_mem_cons.1 hplain
    cases hruns with
    | cons hplan hserve rest => exact ih (h.after hplan hserve hb) rest hbs

end Fleet

def RemovesOwn (run : List Served) : Prop :=
  ∀ s ∈ run, ∀ claim, s.request = .delete claim → ∀ region id g, s.Removes region id g →
    g.nodeClaim = some claim.displayName

/-- Each time that a deletion gets as far as a machine, the machine that has the provider id of the
claim by then was launched for that claim, and not for another one since. -/
def StillOwned (f : Fleet) (run : List Served) : Prop :=
  ∀ before s after claim, run = before ++ s :: after → s.request = .delete claim →
    ∀ text p region, claim.identify = .ok (text, p, region) →
      (∃ g, s.Removes region p.machine g) →
      f.owners.afterAll before region p.machine = some claim.displayName

/-- A deletion does not look whose machine it removes: the machines removed name the claims that are
deleted if and only if the provider ids of these are still their own. -/
theorem removesOwn_iff {settings : Settings} {f f' : Fleet} {run : List Served}
    (hruns : f.Runs settings run f') (hplain : ∀ s ∈ run, s.Plain) :
    RemovesOwn run ↔ StillOwned f run := by
  constructor
  · rintro hown before s after claim rfl hrequest text p region hid ⟨g, hg⟩
    obtain ⟨f₁, f₂, hagrees, hplan, hserve⟩ := hruns.agrees f.agrees_owners
      fun s hs => hplain s (List.mem_append_left _ hs)
    -- The record agrees with the machines, so it says what the machine itself says.
    rw [← (hagrees.removed hrequest hplan hserve hg).1]
    exact hown s (by simp) claim hrequest region p.machine g hg
  · intro howner s hs claim hrequest region id g hg
    obtain ⟨before, after, rfl⟩ := List.append_of_mem hs
    obtain ⟨f₁, f₂, hagrees, hplan, hserve⟩ := hruns.agrees f.agrees_owners
      fun s hs => hplain s (List.mem_append_left _ hs)
    obtain ⟨hnode, text, p, hid, rfl⟩ := hagrees.removed hrequest hplan hserve hg
    rw [hnode]
    exact howner before s after claim rfl hrequest text p region hid ⟨g, hg⟩

namespace Fleet

def serveAll (f : Fleet) (settings : Settings) : List Request → List Served × Fleet
  | [] => ([], f)
  | r :: rs =>
    let played := f.play (r.plan settings)
    let rest := played.2.1.serveAll settings rs
    (⟨r, played.1⟩ :: rest.1, rest.2)

theorem runs_serveAll (f : Fleet) (settings : Settings) (rs : List Request) :
    f.Runs settings (f.serveAll settings rs).1 (f.serveAll settings rs).2 := by
  induction rs generalizing f with
  | nil => exact .nil f
  | cons r rs ih =>
    obtain ⟨hyields, hserves⟩ := f.play_runs (r.plan settings)
    exact .cons hyields hserves (ih _)

end Fleet

def Request.launching (name : String) : Request :=
  .create { name := some name, spec := { nodeClass := { name := "default" } } }
    { name := some "default", spec := { template := "noble" } }
    [{ name := "m.large", capacity := {}, offerings := [{ price := default, available := true }] }]

def Request.deleting (name : String) : Request :=
  .delete { name := some name, spec := { nodeClass := { name := "default" } }, status := some {
    providerId := some "proxmox://r1/1000" } }

def launchedAnew : List Request := [.launching "a", .deleting "a", .launching "b", .deleting "b"]

def deletedTwice : List Request := [.launching "a", .deleting "a", .launching "b", .deleting "a"]

theorem removesOwn_iff_launchedAnew :
    let run := (Fleet.serveAll (fun _ _ => none) {} launchedAnew).1
    (∀ s ∈ run, s.Plain) ∧ (RemovesOwn run ↔ StillOwned (fun _ _ => none) run) := by
  have hplain : ∀ s ∈ (Fleet.serveAll (fun _ _ => none) {} launchedAnew).1, s.Plain := by
    decide +kernel
  exact ⟨hplain, removesOwn_iff (Fleet.runs_serveAll _ _ _) hplain⟩

def Served.removals (s : Served) : List (Option String) :=
  s.moments.filterMap fun m => m.event.call.removes?.bind fun (region, id) =>
    (m.fleet region id).map Guest.nodeClaim

theorem Served.removes_of_mem {s : Served} {owner : Option String} (h : owner ∈ s.removals) :
    ∃ region id g, s.Removes region id g ∧ g.nodeClaim = owner := by
  obtain ⟨m, hm, howner⟩ := List.mem_filterMap.1 h
  obtain ⟨⟨region, id⟩, hcall, hguest⟩ := Option.bind_eq_some_iff.1 howner
  obtain ⟨g, hg, rfl⟩ := Option.map_eq_some_iff.1 hguest
  exact ⟨region, id, g, ⟨m, hm, hcall, hg⟩, rfl⟩

/-- The repeated deletion of a claim removes the machine of another. -/
theorem not_removesOwn_deletedTwice :
    ∃ (f f' : Fleet) (run : List Served), f.Runs {} run f' ∧ ¬ RemovesOwn run := by
  refine ⟨_, _, _, Fleet.runs_serveAll (fun _ _ => none) {} deletedTwice, fun hown => ?_⟩
  have hlast : some "b" ∈ (Fleet.serveAll (fun _ _ => none) {} deletedTwice).1[3].removals := by
    decide +kernel
  obtain ⟨region, id, g, hremoves, hg⟩ := Served.removes_of_mem hlast
  have hname := hown _ (List.getElem_mem _) _ rfl region id g hremoves
  rw [hg] at hname
  exact absurd hname (by decide)

end NodeProvisioner
