import NodeProvisioner.Proofs.Machine.Change
import NodeProvisioner.Proofs.Template.Removing
import NodeProvisioner.Proofs.Template.Renewing

/-! Updating a template class entry by entry. Every recorded entry is tried, whatever came of those
before it, then each region that is recorded is renewed once, and all failures are reported
together. -/
namespace NodeProvisioner

theorem KeySet.nodup_toList (s : KeySet String) : s.toList.Nodup :=
  List.pairwise_map.2 (s.ascending.imp KeyMap.ne_of_lt)

/-- An update always has something to say: a template machine has a tag at least. -/
theorem Blueprint.mutableChange_isEmpty (spec : TemplateClass.Spec) (current : Option Machine) :
    (mutableChange spec current).isEmpty = false := by
  have htags : (mutableChange spec current).set.get? "tags" =
      some (Setting.writeTags (tags spec)) := KeyMap.get?_insert_self _ _ _
  have hset : (mutableChange spec current).set.isEmpty = false :=
    List.isEmpty_eq_false_iff_exists_mem.2 ⟨_, KeyMap.mem_entries_of_get? htags⟩
  rw [Change.isEmpty, hset, Bool.false_and]

/-- What is reported of independent failures. A single one stays as it is; of several every text is
told, and they can be retried if one of them can. -/
inductive Fault.Reported (context : String) : List Fault → Except Fault Unit → Prop where
  | none : Reported context [] (.ok ())
  | single (e : Fault) : Reported context [e] (.error e)
  | several {es : List Fault} (h : 2 ≤ es.length) (retryable : Bool)
      (hretryable : retryable = true ↔ ∃ e ∈ es, e.isRetryable = true) :
      Reported context es (.error (.infrastructure context
        (String.intercalate "; " (es.map Fault.message)) retryable))

theorem Fault.joined_reported (context : String) (es : List Fault) :
    Reported context es (joined context es) := by
  match es with
  | [] => exact .none
  | [e] => exact .single e
  | e :: e' :: es => exact .several (by simp) _ List.any_eq_true

def Call.configures : Call → Bool
  | .hypervisor _ (.configure _ _ _) => true
  | _ => false

structure Call.Unconfiguring (c : Call) : Prop where
  notConfiguring : c.configures = false

namespace TemplateClass
variable {t : TemplateClass} {i : Installation}

/-- What an update does for one entry. Once the region is reached and the machine is read, the
machine is given the options of the class, just once. -/
inductive Updated (t : TemplateClass) (i : Installation) : Trace → Except Fault Unit → Prop where
  | unconnected (e : Fault) : Updated t i [⟨.connect i.region, .error e⟩] (.error e)
  | unread (e : Fault) : Updated t i [⟨.connect i.region, .ok ()⟩,
      ⟨.hypervisor i.region (.readMachine i.zone i.machine), .error e⟩] (.error e)
  | configured (m : Machine) (answer : Except Fault Unit) :
      Updated t i [⟨.connect i.region, .ok ()⟩,
        ⟨.hypervisor i.region (.readMachine i.zone i.machine), .ok m⟩,
        ⟨.hypervisor i.region (.configure i.zone i.machine
          (Blueprint.mutableChange t.spec (some m))), answer⟩] answer

theorem updateEntry_updated (t : TemplateClass) (i : Installation) :
    (t.updateEntry i).Ensures (Updated t i) := by
  refine (Job.ensures_bind _ _ _).2
    ((Plan.ensures_perform (.connect i.region) _).2 fun reply => ?_)
  cases reply with
  | error e => exact .unconnected e
  | ok _ =>
  refine (Job.ensures_bind _ _ _).2 ((Hypervisor.ensures_send _ _ _).2 fun reply => ?_)
  cases reply with
  | error e => exact .unread e
  | ok m =>
  dsimp only
  rw [Blueprint.mutableChange_isEmpty]
  exact (Hypervisor.ensures_send _ _ _).2 fun answer => .configured m answer

/-- The renewals after an update: one for each region that a readable entry names. -/
structure Renewed (entries : List String) (parts : List Sync.Part) : Prop where
  runs : ∀ p ∈ parts, (Sync.region p.region).run.Yields p.trace p.result
  once : (parts.map (·.region)).Nodup
  named : ∀ region, region ∈ parts.map (·.region) ↔
    ∃ entry ∈ entries, ∃ i, Installation.parse entry = .ok i ∧ i.region = region
  unconfiguring : ∀ p ∈ parts, ∀ e ∈ p.trace, e.call.Unconfiguring

/-- An update that tries every entry, with what it renews and reports after that. -/
structure Reaches (t : TemplateClass) (trace : Trace) (r : Except Fault Unit)
    (os : List EntryOutcome) : Prop where
  tried : ∃ toured parts, trace = toured ++ (parts.map (·.trace)).flatten ∧
    EntriesTried (Updated t) t.currentStatus.zones toured os ∧
    Renewed t.currentStatus.zones parts
  ok_iff : r = .ok () ↔ ∀ o ∈ os, o.result = .ok ()
  reported : Fault.Reported t.context (EntryOutcome.faults os) r

end TemplateClass

theorem EntriesTried.mem_regions {tried : Installation → Trace → Except Fault Unit → Prop}
    {entries : List String} {toured : Trace} {os : List EntryOutcome}
    (h : EntriesTried tried entries toured os) {region : String} :
    region ∈ EntryOutcome.regions os ↔
      ∃ entry ∈ entries, ∃ i, Installation.parse entry = .ok i ∧ i.region = region := by
  rw [EntryOutcome.regions, KeySet.mem_toList_ofList, List.mem_filterMap]
  simp only [Option.map_eq_some_iff]
  induction h with
  | nil => simp
  | unreadable hparse _ ih => simp [ih, hparse]
  | tried hparse _ _ ih => simp [ih, hparse]

namespace TemplateClass

theorem region_unconfiguring (region : String) : (Sync.region region).Only Call.Unconfiguring :=
  Sync.region_only (fun _ _ => ⟨rfl⟩) (fun _ => ⟨rfl⟩) ⟨rfl⟩ ⟨rfl⟩ fun _ => ⟨rfl⟩

theorem update_reached (t : TemplateClass) : t.update.Ensures fun trace r =>
    ∃ os, Reaches t trace r os := by
  refine (Job.ensures_bind _ _ _).2 ((Job.ensures_lift _ _).2
    ((EntryOutcome.forEach_tried t.updateEntry_updated _).mono fun toured os htried => ?_))
  refine (Job.ensures_bind _ _ _).2 ((Job.ensures_lift _ _).2 ((Plan.ensures_bind _ _ _).2
    ((Sync.each_parts (EntryOutcome.regions os)).mono ?_)))
  rintro renewed faults ⟨parts, hruns, hregions, rfl, -⟩
  refine (Plan.ensures_pure _ _).2 ((Job.ensures_ofExcept _ _).2 ⟨os, ?_⟩)
  rw [List.append_nil, List.append_nil]
  have hparts : Renewed t.currentStatus.zones parts :=
    ⟨hruns, hregions ▸ KeySet.nodup_toList _, fun region => hregions ▸ htried.mem_regions,
      fun p hp => region_unconfiguring p.region _ _ (hruns p hp)⟩
  refine ⟨⟨toured, parts, rfl, htried, hparts⟩, ?_, Fault.joined_reported _ _⟩
  rw [Fault.joined_eq_ok, EntryOutcome.faults_eq_nil]

/-- An update configures every recorded machine that it can read, whatever becomes of the others,
renews each recorded region once after that, and reports every failure. -/
theorem update_reaches {t : TemplateClass} {trace : Trace} {r : Except Fault Unit}
    (h : t.update.run.Yields trace r) : ∃ os, Reaches t trace r os :=
  t.update_reached trace r h

def oneUnread : (c : Call) → c.Reply
  | .hypervisor _ (.readMachine "z1" _) => .error (.transient "z1" "unreachable")
  | c => c.grant

theorem update_reaches_others : ∃ trace e, noble.update.run.Yields trace (.error e) ∧
    e.message = "infrastructure error [template noble]: infrastructure error [z1]: " ++
      "unreachable; serialization error: invalid template installation 'r1/z2'" ∧
    e.isRetryable = true ∧ (trace.calls.filter Call.configures).length = 1 ∧
    ∃ os, Reaches noble trace (.error e) os := by
  obtain ⟨trace, e, hrun, hgood⟩ := Job.fails_of_play (fun _ => oneUnread) noble.update
    (fun trace e => e.message == "infrastructure error [template noble]: " ++
        "infrastructure error [z1]: unreachable; " ++
        "serialization error: invalid template installation 'r1/z2'" &&
      e.isRetryable && (trace.calls.filter Call.configures).length == 1) (by decide +kernel)
  simp only [Bool.and_eq_true, beq_iff_eq] at hgood
  obtain ⟨⟨hmessage, hretryable⟩, hconfigured⟩ := hgood
  exact ⟨trace, e, hrun, hmessage, hretryable, hconfigured, update_reaches hrun⟩

end TemplateClass
end NodeProvisioner
