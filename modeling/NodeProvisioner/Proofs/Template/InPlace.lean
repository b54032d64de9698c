import NodeProvisioner.Proofs.Machine.Change
import NodeProvisioner.Proofs.Template.Installing
import NodeProvisioner.Proofs.World.Waiting

/-! Images and template machines that are in place: what a run leaves in a zone, and what a run does
in a zone that shows them. -/
namespace NodeProvisioner

/-- An answer to every question. -/
abbrev Facts := (q : Question) → q.Answer

def Call.installs : Call → Bool
  | .hypervisor _ (.download _ _ _) | .hypervisor _ (.create _ _ _) => true
  | _ => false

def Call.createsOnly (machine : MachineId) : Call → Bool
  | .hypervisor _ (.create _ created _) => created == machine
  | _ => true

def Event.failed : Event → Bool
  | ⟨.connect _, .error _⟩ | ⟨.hypervisor _ _, .error _⟩ | ⟨.capacity _, .error _⟩
  | ⟨.bootstrap _, .error _⟩ | ⟨.writeStatus _ _, .error _⟩ => true
  | _ => false

def Event.succeeded (region zone : String) (task : TaskId) : Event :=
  ⟨.hypervisor region (.taskStatus zone task), .ok { running := false, exit := some "OK" }⟩

namespace Trace

def Tells (trace : Trace) (facts : Facts) : Prop :=
  ∀ q answer, ⟨.ask q, answer⟩ ∈ trace → answer = facts q

def Smooth (trace : Trace) : Prop := ∀ e ∈ trace, e.failed = false

def Quiet (trace : Trace) : Prop := ∀ e ∈ trace, e.call.installs = false

theorem Tells.of_sublist {trace trace' : Trace} {facts : Facts} (h : trace.Tells facts)
    (hsub : trace'.Sublist trace) : trace'.Tells facts :=
  fun q answer hmem => h q answer (hsub.mem hmem)

theorem Smooth.of_sublist {trace trace' : Trace} (h : trace.Smooth) (hsub : trace'.Sublist trace) :
    trace'.Smooth := fun e he => h e (hsub.mem he)

theorem Quiet.append {trace trace' : Trace} (h : trace.Quiet) (h' : trace'.Quiet) :
    Quiet (trace ++ trace') := List.forall_mem_append.2 ⟨h, h'⟩

theorem quiet_singleton {e : Event} (h : e.call.installs = false) : Quiet [e] :=
  List.forall_mem_singleton.2 h

def downloads (trace : Trace) : List String := trace.calls.filterMap fun
  | .hypervisor _ (.download _ storage request) => some (Image.volume storage request.fileName)
  | _ => none

/-- A volume is there for a zone: it was listed, or a download of it came to a good end. -/
inductive Holds (trace : Trace) (region zone storage : String) : String → Prop where
  | listed {present : List String} {volume : String}
      (h : ⟨.hypervisor region (.listContent zone storage Image.importContent), .ok present⟩ ∈
        trace) (hmem : volume ∈ present) : Holds trace region zone storage volume
  | downloaded {request : DownloadRequest} {task : TaskId}
      (hcontent : request.content = Image.importContent)
      (h : List.Sublist [⟨.hypervisor region (.download zone storage request), .ok task⟩,
        .succeeded region zone task] trace) :
      Holds trace region zone storage (Image.volume storage request.fileName)

/-- A template machine of a name is there: it was found, or its creation came to a good end. -/
inductive Has (trace : Trace) (region zone name : String) : MachineId → Prop where
  | found {machine : MachineId}
      (h : ⟨.hypervisor region (.findTemplate zone name), .ok (some machine)⟩ ∈ trace) :
      Has trace region zone name machine
  | created {machine : MachineId} {options : Change} {task : TaskId}
      (hname : options.set.get? "name" = some name)
      (htemplate : options.set.get? "template" = some "1")
      (h : List.Sublist [⟨.hypervisor region (.create zone machine options), .ok task⟩,
        .succeeded region zone task] trace) : Has trace region zone name machine

theorem Holds.mono {trace trace' : Trace} {region zone storage volume : String}
    (h : trace.Holds region zone storage volume) (hsub : trace.Sublist trace') :
    trace'.Holds region zone storage volume := by
  cases h with
  | listed h hmem => exact .listed (hsub.mem h) hmem
  | downloaded hcontent h => exact .downloaded hcontent (h.trans hsub)

theorem Has.mono {trace trace' : Trace} {region zone name : String} {machine : MachineId}
    (h : trace.Has region zone name machine) (hsub : trace.Sublist trace') :
    trace'.Has region zone name machine := by
  cases h with
  | found h => exact .found (hsub.mem h)
  | created hname htemplate h => exact .created hname htemplate (h.trans hsub)

end Trace

theorem pair_sublist (before waited : Trace) {first last : Event} {after : Trace}
    (h : waited.getLast? = some last) :
    [first, last].Sublist (before ++ first :: (waited ++ after)) := by
  have hlast : [last].Sublist waited := List.singleton_sublist.2 (List.mem_of_getLast? h)
  have hpair : [first, last].Sublist (first :: (waited ++ after)) :=
    (hlast.trans (List.sublist_append_left _ _)).cons_cons first
  exact hpair.trans (List.sublist_append_right _ _)

namespace Blueprint

theorem ne_numbered {device k : String} (h : Text.after? device k = none) (index : Nat) :
    numbered device index ≠ k := by
  rintro rfl
  rw [numbered, Text.after?_append] at h
  cases h

theorem get?_mutableChange_eq_none (spec : TemplateClass.Spec) {k : String}
    (hshape : k ∉ ["machine", "agent", "cpu", "vga", "tags"]) (hnet : Text.after? "net" k = none)
    (hpci : Text.after? "hostpci" k = none) : (mutableChange spec none).set.get? k = none := by
  have hnics : k ∉ (nicOptions spec none).map (·.1) := by
    simp [nicOptions, ne_numbered hnet]
  have hdevices : k ∉ (passthroughOptions spec).map (·.1) := by
    simp [passthroughOptions, ne_numbered hpci]
  simp only [List.mem_cons, List.not_mem_nil, or_false, not_or] at hshape
  obtain ⟨hmachine, hagent, hcpu, hvga, htags⟩ := hshape
  simp only [mutableChange, Change.get?_put, if_neg htags,
    Change.get?_putAll_of_not_mem hdevices, Change.get?_putAll_of_not_mem hnics,
    Change.get?_putOrRemove_of_ne _ _ hmachine, Change.get?_putOrRemove_of_ne _ _ hagent,
    Change.get?_putOrRemove_of_ne _ _ hcpu, Change.get?_putOrRemove_of_ne _ _ hvga]
  rfl

def fixedKeys : List String :=
  ["name", "template", "ostype", "scsihw", "cores", "memory", "serial0", bootSlot, "ide2", "boot"]

theorem fixedKeys_apart : ∀ k ∈ fixedKeys, k ∉ ["machine", "agent", "cpu", "vga", "tags"] ∧
    Text.after? "net" k = none ∧ Text.after? "hostpci" k = none := by decide

theorem get?_options_of_fixed {cls : String} {roles : StorageRoles} {file k v : String}
    (h : (k, v) ∈ fixedOptions cls roles file) (spec : TemplateClass.Spec) :
    (options cls spec roles file).set.get? k = some v := by
  have hkeys : (fixedOptions cls roles file).map (·.1) = fixedKeys := rfl
  have hnodup : ((fixedOptions cls roles file).map (·.1)).Nodup := by
    rw [hkeys]
    decide
  have hk : k ∈ fixedKeys := by
    rw [← hkeys]
    exact List.mem_map_of_mem h
  obtain ⟨hshape, hnet, hpci⟩ := fixedKeys_apart k hk
  rw [options, Change.get?_putAll_of_not_mem, Change.get?_putAll_of_mem hnodup h]
  intro hmem
  obtain ⟨e, he, rfl⟩ := List.mem_map.1 hmem
  have hnone := get?_mutableChange_eq_none spec hshape hnet hpci
  rw [KeyMap.mem_entries.1 he] at hnone
  cases hnone

end Blueprint

namespace Installing
variable {settings : Settings} {t : TemplateClass} {region zone : String} {roles : StorageRoles}

/-! ### What the first run leaves in a zone -/

theorem ensureImage_holds : (ensureImage settings t region zone roles).Ensures fun trace r =>
    r = .ok () → trace.Holds region zone roles.imports.id
      (Image.volume roles.imports.id t.imageFile) := by
  refine (Job.ensures_bind _ _ _).2 ((Hypervisor.ensures_send _ _ _).2 fun reply => ?_)
  cases reply with
  | error e => exact nofun
  | ok present =>
    dsimp only
    split
    · next hpresent =>
      exact (Job.ensures_pure _ _).2 fun _ => .listed List.mem_cons_self (by simpa using hpresent)
    refine (Job.ensures_bind _ _ _).2 ((Hypervisor.ensures_send _ _ _).2 fun reply => ?_)
    cases reply with
    | error e => exact nofun
    | ok task =>
      refine (Job.ensures_bind _ _ _).2 (Task.finish_looked.mono fun waited r hlooked => ?_)
      cases r with
      | error e => exact nofun
      | ok status =>
        dsimp only
        split
        · next hsuccess =>
          have hlast := hlooked status rfl
          rw [Task.eq_of_isSuccess hsuccess] at hlast
          exact (Job.ensures_pure _ _).2 fun _ =>
            .downloaded rfl (pair_sublist [_] waited hlast)
        · exact (Job.ensures_fail _ _).2 nofun

theorem createMachine_has : (createMachine settings t region zone roles).Ensures fun trace r =>
    ∀ machine, r = .ok machine → trace.Has region zone t.displayName machine := by
  refine Job.Ensures.after (fun allocated machine => ?_) fun _ _ => nofun
  refine (Job.ensures_bind _ _ _).2 ((Hypervisor.ensures_send _ _ _).2 fun reply => ?_)
  cases reply with
  | error e => exact nofun
  | ok task =>
    refine (Job.ensures_bind _ _ _).2 ((Job.ensures_attempt _ _).2
      (Task.succeed_awaited.mono fun waited r hawaited => ?_))
    cases r with
    | ok _ =>
      refine (Job.ensures_pure _ _).2 ?_
      rintro _ ⟨⟩
      have hlast := (hawaited rfl).succeeded
      exact .created (Blueprint.get?_options_of_fixed List.mem_cons_self t.spec)
        (Blueprint.get?_options_of_fixed (List.mem_cons_of_mem _ List.mem_cons_self) t.spec)
        (pair_sublist allocated waited hlast)
    | error e => exact Job.Ensures.after (fun _ _ => (Job.ensures_fail _ _).2 nofun) nofun

theorem ensureMachine_has : (ensureMachine settings t region zone roles).Ensures fun trace r =>
    ∀ machine, r = .ok machine → trace.Has region zone t.displayName machine := by
  refine (Job.ensures_bind _ _ _).2 ((Hypervisor.ensures_send _ _ _).2 fun reply => ?_)
  rcases reply with e | _ | machine
  · exact nofun
  · refine createMachine_has.mono fun trace r hcreated machine hr => ?_
    exact (hcreated machine hr).mono (List.sublist_append_right _ _)
  · refine (Job.ensures_pure _ _).2 ?_
    rintro _ ⟨⟩
    exact .found List.mem_cons_self

structure Settled (t : TemplateClass) (region zone : String) (roles : StorageRoles)
    (machine : MachineId) (trace : Trace) : Prop where
  image : trace.Holds region zone roles.imports.id (Image.volume roles.imports.id t.imageFile)
  machine : trace.Has region zone t.displayName machine

theorem Settled.mono {trace trace' : Trace} {machine : MachineId}
    (h : Settled t region zone roles machine trace) (hsub : trace.Sublist trace') :
    Settled t region zone roles machine trace' :=
  ⟨h.image.mono hsub, h.machine.mono hsub⟩

theorem inZone_settled : (inZone settings t region zone roles).Ensures fun trace r =>
    ∀ machine, r = .ok machine → Settled t region zone roles machine trace := by
  have hinside : (do
      ensureImage settings t region zone roles
      ensureMachine settings t region zone roles : Job MachineId).Ensures fun trace r =>
        ∀ machine, r = .ok machine → Settled t region zone roles machine trace := by
    refine ensureImage_holds.bind (fun before _ himage => ?_) fun _ _ _ => nofun
    refine ensureMachine_has.mono fun after r hmachine machine hr => ⟨?_, ?_⟩
    · exact (himage rfl).mono (List.sublist_append_left _ _)
    · exact (hmachine machine hr).mono (List.sublist_append_right _ _)
  have hlocked : (withZone region zone do
      ensureImage settings t region zone roles
      ensureMachine settings t region zone roles).Ensures fun trace r =>
        ∀ machine, r = .ok machine → Settled t region zone roles machine trace := by
    refine withZone_ensures (hinside.mono fun inside r hsettled machine hr => ?_)
    exact (hsettled machine hr).mono
      ((List.sublist_append_left _ _).trans (List.sublist_cons_self _ _))
  refine Job.Ensures.after (fun connected _ => ?_) fun _ _ => nofun
  refine hlocked.bind (fun here machine hsettled => ?_) fun _ _ _ => nofun
  refine Job.Ensures.after (fun renewed _ => (Job.ensures_pure _ _).2 ?_) fun _ _ => nofun
  rintro _ ⟨⟩
  exact (hsettled machine rfl).mono
    ((List.sublist_append_left _ _).trans (List.sublist_append_right _ _))

/-! ### What the second run does in a zone -/

/-- Every listing and every search of a zone shows what is there. -/
structure Shown (t : TemplateClass) (region zone : String) (roles : StorageRoles)
    (machine : MachineId) (trace : Trace) : Prop where
  image : ∀ present, ⟨.hypervisor region (.listContent zone roles.imports.id
    Image.importContent), .ok present⟩ ∈ trace →
      Image.volume roles.imports.id t.imageFile ∈ present
  machine : ∀ answer, ⟨.hypervisor region (.findTemplate zone t.displayName), .ok answer⟩ ∈ trace →
    answer = some machine

theorem Shown.of_sublist {trace trace' : Trace} {machine : MachineId}
    (h : Shown t region zone roles machine trace) (hsub : trace'.Sublist trace) :
    Shown t region zone roles machine trace' :=
  ⟨fun present hmem => h.image present (hsub.mem hmem),
    fun answer hmem => h.machine answer (hsub.mem hmem)⟩

/-- Where nothing fails and everything is shown, the result is as expected and nothing is put in
place. -/
def Unneeded {α : Type} (t : TemplateClass) (region zone : String) (roles : StorageRoles)
    (expected : MachineId → α) (trace : Trace) (r : Except Fault α) : Prop :=
  ∀ machine, trace.Smooth → Shown t region zone roles machine trace →
    r = .ok (expected machine) ∧ trace.Quiet

theorem ensureImage_unneeded : (ensureImage settings t region zone roles).Ensures
    (Unneeded t region zone roles fun _ => ()) := by
  refine (Job.ensures_bind _ _ _).2 ((Hypervisor.ensures_send _ _ _).2 fun reply => ?_)
  cases reply with
  | error e =>
    intro machine hsmooth _
    cases hsmooth _ List.mem_cons_self
  | ok present =>
    dsimp only
    split
    · exact (Job.ensures_pure _ _).2 fun machine _ _ => ⟨rfl, Trace.quiet_singleton rfl⟩
    · next habsent =>
      intro trace r _ machine _ hshown
      have hpresent := hshown.image present (List.mem_append_left _ List.mem_cons_self)
      exact absurd (by simpa using hpresent) habsent

theorem ensureMachine_unneeded : (ensureMachine settings t region zone roles).Ensures
    (Unneeded t region zone roles id) := by
  refine (Job.ensures_bind _ _ _).2 ((Hypervisor.ensures_send _ _ _).2 fun reply => ?_)
  rcases reply with e | _ | found
  · intro machine hsmooth _
    cases hsmooth _ List.mem_cons_self
  · intro trace r _ machine _ hshown
    cases hshown.machine none (List.mem_append_left _ List.mem_cons_self)
  · refine (Job.ensures_pure _ _).2 fun machine _ hshown => ?_
    cases hshown.machine (some found) List.mem_cons_self
    exact ⟨rfl, Trace.quiet_singleton rfl⟩

theorem Unneeded.bind {α β : Type} {j : Job α} {f : α → Job β} {expected : MachineId → α}
    {expected' : MachineId → β} (h : j.Ensures (Unneeded t region zone roles expected))
    (h' : ∀ a, (f a).Ensures fun trace r => ∀ machine, a = expected machine → trace.Smooth →
      Shown t region zone roles machine trace → r = .ok (expected' machine) ∧ trace.Quiet) :
    (j >>= f).Ensures (Unneeded t region zone roles expected') := by
  refine h.bind (fun before a hbefore => (h' a).mono fun after r hafter machine hsmooth hshown =>
    ?_) fun before e hbefore machine hsmooth hshown => ?_
  · have hleft : before.Sublist (before ++ after) := List.sublist_append_left _ _
    have hright : after.Sublist (before ++ after) := List.sublist_append_right _ _
    obtain ⟨ha, hquiet⟩ := hbefore machine (hsmooth.of_sublist hleft) (hshown.of_sublist hleft)
    obtain ⟨hr, hquiet'⟩ := hafter machine (Except.ok.inj ha) (hsmooth.of_sublist hright)
      (hshown.of_sublist hright)
    exact ⟨hr, hquiet.append hquiet'⟩
  · cases (hbefore machine hsmooth hshown).1

theorem Unneeded.after {β : Type} {j : Job Unit} {f : Unit → Job β} {expected : MachineId → β}
    (h : j.Ensures (Unneeded t region zone roles fun _ => ()))
    (h' : (f ()).Ensures (Unneeded t region zone roles expected)) :
    (j >>= f).Ensures (Unneeded t region zone roles expected) :=
  Unneeded.bind h fun _ => h'.mono fun _ _ hr machine _ => hr machine

theorem inZone_unneeded : (inZone settings t region zone roles).Ensures
    (Unneeded t region zone roles id) := by
  have hinside : (do
      ensureImage settings t region zone roles
      ensureMachine settings t region zone roles : Job MachineId).Ensures
        (Unneeded t region zone roles id) :=
    Unneeded.after ensureImage_unneeded ensureMachine_unneeded
  have hconnect : (connect region).Ensures (Unneeded t region zone roles fun _ => ()) := by
    refine (Plan.ensures_perform (.connect region) _).2 fun reply machine hsmooth _ => ?_
    cases reply with
    | error e => cases hsmooth _ List.mem_cons_self
    | ok _ => exact ⟨rfl, Trace.quiet_singleton rfl⟩
  have hlocked : (withZone region zone do
      ensureImage settings t region zone roles
      ensureMachine settings t region zone roles).Ensures (Unneeded t region zone roles id) := by
    refine withZone_ensures (hinside.mono fun inside r h machine hsmooth hshown => ?_)
    have hsub : inside.Sublist (⟨.enterZone region zone, ()⟩ ::
        (inside ++ [⟨.leaveZone region zone, ()⟩])) :=
      (List.sublist_append_left _ _).trans (List.sublist_cons_self _ _)
    obtain ⟨hr, hquiet⟩ := h machine (hsmooth.of_sublist hsub) (hshown.of_sublist hsub)
    exact ⟨hr, List.forall_mem_cons.2 ⟨rfl, hquiet.append (Trace.quiet_singleton rfl)⟩⟩
  have hrenew : (Sync.region region).Only fun c => c.installs = false :=
    Sync.region_only (fun _ _ => rfl) (fun _ => rfl) rfl rfl fun _ => rfl
  refine Unneeded.after hconnect (Unneeded.bind hlocked fun found => ?_)
  refine (Job.ensures_bind _ _ _).2 ((Job.ensures_lift _ _).2
    (Plan.Ensures.mono (Job.Only.tolerate hrenew) fun renewed _ hquiet => ?_))
  refine (Job.ensures_pure _ _).2 fun machine hfound _ _ => ?_
  rw [List.append_nil]
  exact ⟨congrArg Except.ok hfound, hquiet⟩

end Installing
end NodeProvisioner
