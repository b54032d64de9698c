import NodeProvisioner.Proofs.Calls
import NodeProvisioner.Template.Maintaining

/-! What the deletion of a template class writes into its status: once, after all entries have been
tried, what could not be removed. -/
namespace NodeProvisioner

def Call.writesStatus : Call → Bool
  | .writeStatus _ _ => true
  | _ => false

def Event.statusWrite? : Event → Option (String × TemplateClass.Status)
  | ⟨.writeStatus template status, .ok _⟩ => some (template, status)
  | _ => none

namespace Trace

def statusWrites (t : Trace) : List (String × TemplateClass.Status) :=
  t.filterMap Event.statusWrite?

@[simp] theorem statusWrites_append (t t' : Trace) :
    statusWrites (t ++ t') = statusWrites t ++ statusWrites t' := List.filterMap_append

theorem statusWrites_eq_nil {t : Trace} (h : ∀ e ∈ t, e.call.writesStatus = false) :
    t.statusWrites = [] := by
  apply List.filterMap_eq_nil_iff.2
  intro e he
  have hcall := h e he
  unfold Event.statusWrite?
  split
  · cases hcall
  · rfl

end Trace

structure Call.Unwritten (c : Call) : Prop where
  notWriting : c.writesStatus = false

def Call.uninstalls : Call → Bool
  | .connect _ | .enterZone _ _ | .leaveZone _ _ | .ask (.storage _ _) | .circumstance .jitter
  | .circumstance (.pause _ _) => true
  | .hypervisor _ r =>
    match r with
    | .findMachine _ | .delete _ _ | .listContent _ _ _ | .deleteVolume _ _
    | .taskStatus _ _ => true
    | _ => false
  | _ => false

def Call.deletedVolume? : Call → Option String
  | .hypervisor _ (.deleteVolume _ volume) => some volume
  | _ => none

/-- Taking an installation away can ask for it, where no volumes but those of the image file are
deleted. -/
structure Call.Uninstalls (file : String) (c : Call) : Prop where
  kind : c.uninstalls = true
  image : ∀ volume, c.deletedVolume? = some volume → ∃ storage, volume = Image.volume storage file

theorem Call.Uninstalls.of_none {file : String} {c : Call} (h : c.uninstalls = true)
    (hnone : c.deletedVolume? = none) : c.Uninstalls file where
  kind := h
  image volume hvolume := by
    rw [hnone] at hvolume
    cases hvolume

theorem Call.unwritten_of_uninstalls {c : Call} (h : c.uninstalls = true) : c.Unwritten := by
  cases c with
  | writeStatus => cases h
  | _ => exact ⟨rfl⟩

namespace Sync

section only
variable {allowed : Call → Prop} {r : String}
  (hread : ∀ zone machine, allowed (.hypervisor r (.readMachine zone machine)))
  (hstorage : ∀ id, allowed (.ask (.storage r id)))

include hread hstorage in
theorem describeAll_only (listed : List Location) : (describeAll r listed).Only allowed := by
  induction listed with
  | nil => exact Plan.only_pure _
  | cons seen rest ih =>
    have hdescribe : (describe r seen).Only allowed := by
      refine Plan.Only.bind (Hypervisor.only_send (hread _ _)) fun reply => ?_
      cases reply with
      | ok m =>
        refine Plan.Only.bind ?_ fun _ => Plan.only_pure _
        unfold storageOf
        split
        · exact Plan.only_perform (hstorage _)
        · exact Plan.only_pure _
      | error e => exact Plan.only_pure _
    exact hdescribe.bind fun _ => ih.bind fun _ => Plan.only_pure _

include hread hstorage in
theorem region_only (hconnect : allowed (.connect r))
    (hlist : allowed (.hypervisor r .listTemplates))
    (hpublish : ∀ entries, allowed (.memory (.publish r entries))) : (region r).Only allowed :=
  (only_connect hconnect).bind fun _ => (Hypervisor.only_send hlist).bind fun _ =>
    (Job.only_lift (describeAll_only hread hstorage _)).bind fun _ =>
      Job.only_lift (Memory.only_access (hpublish _))

end only

theorem region_unwritten (r : String) : (region r).Only Call.Unwritten :=
  region_only (fun _ _ => ⟨rfl⟩) (fun _ => ⟨rfl⟩) ⟨rfl⟩ ⟨rfl⟩ fun _ => ⟨rfl⟩

theorem each_only {allowed : Call → Prop} (h : ∀ r, (region r).Only allowed)
    (regions : List String) : (each regions).Only allowed := by
  induction regions with
  | nil => exact Plan.only_pure _
  | cons r rest ih => exact Plan.Only.bind (h r) fun _ => ih.bind fun _ => Plan.only_pure _

end Sync

namespace TemplateClass

theorem succeed_unwritten {p : Patience} {region zone : String} {task : TaskId} :
    (Task.succeed p true region zone task).Only Call.Unwritten :=
  Task.succeed_only ⟨rfl⟩ ⟨rfl⟩ fun _ => ⟨rfl⟩

theorem storagesOf_only {allowed : Call → Prop} {region : String}
    (h : ∀ id, allowed (.ask (.storage region id))) (ids : List String) :
    (storagesOf region ids).Only allowed := by
  induction ids with
  | nil => exact Plan.only_pure _
  | cons id rest ih =>
    exact (Plan.only_perform (h id)).bind fun _ => ih.bind fun _ => Plan.only_pure _

theorem removeImages_only {allowed : Call → Prop} {settings : Settings} {file region zone : String}
    (hlist : ∀ storage,
      allowed (.hypervisor region (.listContent zone storage Image.importContent)))
    (hdelete : ∀ storage,
      allowed (.hypervisor region (.deleteVolume zone (Image.volume storage file))))
    (hwait : ∀ task, (Task.succeed settings.taskPatience true region zone task).Only allowed)
    (storages : List String) :
    (removeImages settings file region zone storages).Only allowed := by
  induction storages with
  | nil => exact Job.only_pure _
  | cons storage rest ih =>
    refine (Hypervisor.only_send (hlist storage)).bind fun present => ?_
    dsimp only
    split
    · exact (Hypervisor.only_send (hdelete _)).bind fun task => (hwait task).bind fun _ => ih
    · exact ih

theorem renew_only {allowed : Call → Prop} (h : ∀ r, (Sync.region r).Only allowed)
    (regions : List String) : (renew regions).Only allowed :=
  (Sync.each_only h regions).bind fun _ => Plan.only_pure _

theorem removeEntry_only {settings : Settings} {t : TemplateClass} {i : Installation} :
    (t.removeEntry settings i).Only (Call.Uninstalls t.removedImage) := by
  have hwait (zone : String) (task : TaskId) : (Task.succeed settings.taskPatience true i.region
      zone task).Only (Call.Uninstalls t.removedImage) :=
    Task.succeed_only (.of_none rfl rfl) (.of_none rfl rfl) fun _ => .of_none rfl rfl
  have hmachine : (removeMachine settings i).Only (Call.Uninstalls t.removedImage) := by
    refine Job.Only.bind (Hypervisor.only_send (.of_none rfl rfl)) fun found => ?_
    cases found with
    | none => exact Job.only_pure _
    | some seen =>
      exact Job.Only.bind (Hypervisor.only_send (.of_none rfl rfl)) fun task => hwait seen.zone task
  have hdelete (storage : String) : Call.Uninstalls t.removedImage
      (.hypervisor i.region (.deleteVolume i.zone (Image.volume storage t.removedImage))) :=
    ⟨rfl, fun _ hvolume => ⟨storage, (Option.some.inj hvolume).symm⟩⟩
  refine Job.Only.bind (only_connect (.of_none rfl rfl)) fun _ =>
    withZone_only (.of_none rfl rfl) (.of_none rfl rfl) (hmachine.bind fun _ => ?_)
  exact Job.Only.bind (Job.only_lift (storagesOf_only (fun _ => .of_none rfl rfl) _)) fun _ =>
    removeImages_only (fun _ => .of_none rfl rfl) hdelete (hwait i.zone) _

theorem removeEntry_unwritten (settings : Settings) (t : TemplateClass) (i : Installation) :
    (t.removeEntry settings i).Only Call.Unwritten :=
  removeEntry_only.mono fun _ h => Call.unwritten_of_uninstalls h.kind

end TemplateClass

namespace EntryOutcome

theorem forEach_only {allowed : Call → Prop} {job : Installation → Job Unit}
    (h : ∀ i, (job i).Only allowed) (entries : List String) :
    (forEach job entries).Only allowed := by
  induction entries with
  | nil => exact Plan.only_pure _
  | cons entry rest ih =>
    have hone : (of job entry).Only allowed := by
      unfold of
      split
      · exact Plan.Only.bind (h _) fun _ => Plan.only_pure _
      · exact Plan.only_pure _
    exact hone.bind fun _ => ih.bind fun _ => Plan.only_pure _

theorem faults_eq_nil {os : List EntryOutcome} :
    faults os = [] ↔ ∀ o ∈ os, o.result = .ok () := by
  unfold faults
  rw [List.filterMap_eq_nil_iff]
  refine forall₂_congr fun o _ => ?_
  cases o.result <;> simp

theorem remaining_eq_nil {os : List EntryOutcome} :
    remaining os = [] ↔ ∀ o ∈ os, o.result = .ok () := by
  unfold remaining
  rw [List.map_eq_nil_iff, List.filter_eq_nil_iff]
  refine forall₂_congr fun o _ => ?_
  cases o.result <;> simp

end EntryOutcome

theorem Fault.joined_eq_ok {context : String} {es : List Fault} :
    joined context es = .ok () ↔ es = [] := by
  match es with
  | [] => simp [joined, join]
  | [e] => simp [joined, join]
  | e :: e' :: es => simp [joined, join]

theorem TemplateClass.delete_only {allowed : Call → Prop} {settings : Settings} {t : TemplateClass}
    (huninstall : ∀ c : Call, c.Uninstalls t.removedImage → allowed c)
    (hwrite : ∀ status, allowed (.writeStatus t.displayName status))
    (hrenew : ∀ r, (Sync.region r).Only allowed) : (t.delete settings).Only allowed :=
  (Job.only_lift (EntryOutcome.forEach_only (fun _ => removeEntry_only.mono huninstall) _)).bind
    fun _ => Job.Only.bind (Plan.only_perform (hwrite _)) fun _ =>
      (Job.only_lift (renew_only hrenew _)).bind fun _ => Plan.only_pure _

theorem TemplateClass.delete_writes (settings : Settings) (t : TemplateClass) :
    (t.delete settings).Ensures fun trace r =>
      r = .ok () → trace.statusWrites = [(t.displayName, {})] := by
  have hentries := EntryOutcome.forEach_only (removeEntry_unwritten settings t)
    t.currentStatus.zones
  have hrenew := renew_only Sync.region_unwritten
  unfold delete
  refine (Job.ensures_bind _ _ _).2 ((Job.ensures_lift _ _).2
    (Plan.Ensures.mono hentries fun before outcomes hbefore => ?_))
  refine (Job.ensures_bind _ _ _).2
    ((Plan.ensures_perform (.writeStatus _ _) _).2 fun written => ?_)
  cases written with
  | error e => exact nofun
  | ok u =>
    refine (Job.ensures_bind _ _ _).2 ((Job.ensures_lift _ _).2
      (Plan.Ensures.mono (hrenew _) fun after _ hafter => ?_))
    refine (Job.ensures_ofExcept _ _).2 fun hjoined => ?_
    -- Nothing is joined into a success, so no entry has failed and none remains.
    have hremaining := EntryOutcome.remaining_eq_nil.2
      (EntryOutcome.faults_eq_nil.1 (Fault.joined_eq_ok.1 hjoined))
    simp only [Trace.statusWrites_append, List.append_nil,
      Trace.statusWrites_eq_nil fun e he => (hbefore e he).notWriting,
      Trace.statusWrites_eq_nil fun e he => (hafter e he).notWriting, List.nil_append]
    simp [Trace.statusWrites, Event.statusWrite?, hremaining]

end NodeProvisioner
