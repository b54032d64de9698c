import NodeProvisioner.Proofs.Identity.Installation
import NodeProvisioner.Proofs.Template.Deleting

/-! Installing a template class in all of its zones. Each zone is tried once, whatever came of those
before it, and what is stored and answered follows from what came of them all. -/
namespace NodeProvisioner

namespace Installing

/-! ### What is recorded -/

/-- The installations that no later one of the same zone is recorded over. -/
def lasting : List Installation → List Installation
  | [] => []
  | e :: es => if es.all fun e' => isElsewhere e' e.render then e :: lasting es else lasting es

theorem foldl_recordEntry (es : List Installation) (recorded : List String) :
    es.foldl recordEntry recorded =
      recorded.filter (fun s => es.all fun e => isElsewhere e s) ++
        (lasting es).map Installation.render := by
  induction es generalizing recorded with
  | nil => simp [lasting]
  | cons e es ih =>
    rw [List.foldl_cons, ih, recordEntry, List.filter_append, List.filter_filter, lasting]
    by_cases h : (es.all fun e' => isElsewhere e' e.render) = true
    · simp [h, Bool.and_comm]
    · simp [h, Bool.and_comm]

theorem mem_of_mem_lasting {e : Installation} {es : List Installation} (h : e ∈ lasting es) :
    e ∈ es := by
  induction es with
  | nil => exact h
  | cons e' es ih =>
    unfold lasting at h
    split at h
    · rcases List.mem_cons.1 h with rfl | h
      · exact List.mem_cons_self
      · exact List.mem_cons_of_mem e' (ih h)
    · exact List.mem_cons_of_mem e' (ih h)

theorem pairwise_lasting (es : List Installation) :
    (lasting es).Pairwise fun e e' => isElsewhere e' e.render = true := by
  induction es with
  | nil => exact .nil
  | cons e es ih =>
    unfold lasting
    split
    · next h =>
      refine List.pairwise_cons.2 ⟨fun e' he' => ?_, ih⟩
      exact List.all_eq_true.1 h e' (mem_of_mem_lasting he')
    · exact ih

theorem isElsewhere_render {e e' : Installation} (h : isElsewhere e e'.render = false) :
    e'.region = e.region ∧ e'.zone = e.zone := by
  unfold isElsewhere at h
  split at h
  · next i hi =>
    rw [Installation.eq_of_parse?_render hi] at h
    simpa using h
  · cases h

theorem exists_lasting {e : Installation} {es : List Installation} (h : e ∈ es) :
    ∃ e' ∈ lasting es, e'.region = e.region ∧ e'.zone = e.zone := by
  induction es generalizing e with
  | nil => cases h
  | cons e₀ es ih =>
    have hlater {e' : Installation} (he' : e' ∈ es) :
        ∃ e'' ∈ lasting (e₀ :: es), e''.region = e'.region ∧ e''.zone = e'.zone := by
      obtain ⟨e'', hmem, hplace⟩ := ih he'
      refine ⟨e'', ?_, hplace⟩
      unfold lasting
      split
      · exact List.mem_cons_of_mem e₀ hmem
      · exact hmem
    rcases List.mem_cons.1 h with rfl | h
    · by_cases hall : (es.all fun e' => isElsewhere e' e.render) = true
      · exact ⟨e, by simp [lasting, hall], rfl, rfl⟩
      · simp only [List.all_eq_true, not_forall] at hall
        obtain ⟨e', he', hsame⟩ := hall
        obtain ⟨hregion, hzone⟩ := isElsewhere_render (by simpa using hsame)
        rw [hregion, hzone]
        exact hlater he'
    · exact hlater h

theorem isElsewhere_congr {e e' : Installation} (hregion : e'.region = e.region)
    (hzone : e'.zone = e.zone) : isElsewhere e' = isElsewhere e := by
  unfold isElsewhere
  rw [hregion, hzone]

/-- Of two entries for one zone, the former would have been recorded over. -/
theorem length_filter_foldl {e : Installation} {es : List Installation} (h : e ∈ es)
    (recorded : List String) :
    ((es.foldl recordEntry recorded).filter fun s => !isElsewhere e s).length ≤ 1 := by
  have hold : (recorded.filter fun s => es.all fun e => isElsewhere e s).filter
      (fun s => !isElsewhere e s) = [] := by
    simp only [List.filter_eq_nil_iff, List.mem_filter, List.all_eq_true]
    intro s hs
    simp [hs.2 e h]
  have hnew (es' : List Installation)
      (hes' : es'.Pairwise fun e e' => isElsewhere e' e.render = true) :
      ((es'.map Installation.render).filter fun s => !isElsewhere e s).length ≤ 1 := by
    induction hes' with
    | nil => simp
    | @cons e' es' he' _ ih =>
      by_cases hhere : isElsewhere e e'.render = true
      · simpa [hhere] using ih
      · have hnone : (es'.map Installation.render).filter (fun s => !isElsewhere e s) = [] := by
          simp only [List.filter_eq_nil_iff, List.forall_mem_map]
          intro e'' he'' hsame
          obtain ⟨hregion, hzone⟩ := isElsewhere_render (by simpa using hsame)
          exact hhere (isElsewhere_congr hregion hzone ▸ he' e'' he'')
        simp [hhere, hnone]
  rw [foldl_recordEntry, List.filter_append, hold, List.nil_append]
  exact hnew _ (pairwise_lasting es)

/-! ### The tour of the zones -/

inductive Outcome where
  | refused (region : String) (e : Fault)
  | tried (region zone : String) (result : Except Fault MachineId)

namespace Outcome

def installation? : Outcome → Option Installation
  | tried region zone (.ok machine) => some { region, zone, machine }
  | _ => none

def fault? : Outcome → Option Fault
  | refused _ e | tried _ _ (.error e) => some e
  | tried _ _ (.ok _) => none

def installations (os : List Outcome) : List Installation := os.filterMap installation?

def faults (os : List Outcome) : List Fault := os.filterMap fault?

@[simp] theorem installations_append (os os' : List Outcome) :
    installations (os ++ os') = installations os ++ installations os' := List.filterMap_append

@[simp] theorem faults_append (os os' : List Outcome) :
    faults (os ++ os') = faults os ++ faults os' := List.filterMap_append

end Outcome

def Ledger.after (l : Ledger) (os : List Outcome) : Ledger where
  installed := (Outcome.installations os).foldl recordEntry l.installed
  faults := l.faults ++ Outcome.faults os

theorem Ledger.after_nil (l : Ledger) : l.after [] = l := by
  simp [Ledger.after, Outcome.installations, Outcome.faults]

theorem Ledger.after_refused (l : Ledger) (region : String) (e : Fault) (os : List Outcome) :
    l.after (.refused region e :: os) = { l with faults := l.faults ++ [e] : Ledger }.after os := by
  simp [Ledger.after, Outcome.installations, Outcome.faults, Outcome.installation?, Outcome.fault?,
    List.filterMap_cons]

theorem Ledger.after_append (l : Ledger) (os os' : List Outcome) :
    l.after (os ++ os') = (l.after os).after os' := by
  simp [Ledger.after]

theorem Ledger.after_tried (l : Ledger) (region zone : String) (result : Except Fault MachineId)
    (os : List Outcome) :
    l.after (.tried region zone result :: os) = (l.add region zone result).after os := by
  cases result <;> simp [Ledger.after, Ledger.add, Outcome.installations, Outcome.faults,
    Outcome.installation?, Outcome.fault?, List.filterMap_cons]

section tour
variable (settings : Settings) (t : TemplateClass)

/-- A run through zones of one region, each of which is tried once. -/
inductive ZonesTried (region : String) (roles : StorageRoles) :
    List String → Trace → List Outcome → Prop where
  | nil : ZonesTried region roles [] [] []
  | cons {zone : String} {zones : List String} {here rest : Trace}
      {result : Except Fault MachineId} {os : List Outcome}
      (h : (inZone settings t region zone roles).run.Yields here result)
      (hrest : ZonesTried region roles zones rest os) :
      ZonesTried region roles (zone :: zones) (here ++ rest) (.tried region zone result :: os)

/-- A run through regions, in each of which the zones are tried that its storages serve. -/
inductive RegionsTried : List String → Trace → List Outcome → Prop where
  | nil : RegionsTried [] [] []
  | refused {region : String} {regions : List String} {asked rest : Trace} {e : Fault}
      {os : List Outcome} (h : (t.rolesIn region).run.Yields asked (.error e))
      (hrest : RegionsTried regions rest os) :
      RegionsTried (region :: regions) (asked ++ rest) (.refused region e :: os)
  | offered {region : String} {regions : List String} {asked here rest : Trace}
      {roles : StorageRoles} {os os' : List Outcome}
      (h : (t.rolesIn region).run.Yields asked (.ok roles))
      (hzones : ZonesTried settings t region roles roles.zones here os)
      (hrest : RegionsTried regions rest os') :
      RegionsTried (region :: regions) (asked ++ (here ++ rest)) (os ++ os')

variable {settings t}

theorem inZones_ensures (region : String) (roles : StorageRoles) (zones : List String)
    (l : Ledger) : (inZones settings t region roles zones l).Ensures fun trace l' =>
      ∃ os, ZonesTried settings t region roles zones trace os ∧ l' = l.after os := by
  induction zones generalizing l with
  | nil =>
    exact (Plan.ensures_pure _ _).2 ⟨[], .nil, l.after_nil.symm⟩
  | cons zone zones ih =>
    refine (Plan.ensures_bind _ _ _).2 fun here result hhere => ?_
    refine (ih _).mono fun rest l' ⟨os, hos, hl⟩ => ⟨_, .cons hhere hos, ?_⟩
    rw [hl, Ledger.after_tried]

theorem inRegions_ensures (regions : List String) (l : Ledger) :
    (inRegions settings t regions l).Ensures fun trace l' =>
      ∃ os, RegionsTried settings t regions trace os ∧ l' = l.after os := by
  induction regions generalizing l with
  | nil =>
    exact (Plan.ensures_pure _ _).2 ⟨[], .nil, l.after_nil.symm⟩
  | cons region regions ih =>
    refine (Plan.ensures_bind _ _ _).2 fun asked reply hasked => ?_
    cases reply with
    | error e =>
      refine (ih _).mono fun rest l' ⟨os, hos, hl⟩ => ⟨_, .refused hasked hos, ?_⟩
      rw [hl, Ledger.after_refused]
    | ok roles =>
      refine (Plan.ensures_bind _ _ _).2 ((inZones_ensures region roles _ l).mono ?_)
      rintro here l' ⟨os, hos, rfl⟩
      refine (ih _).mono fun rest l'' ⟨os', hos', hl⟩ => ⟨_, .offered hasked hos hos', ?_⟩
      rw [hl, Ledger.after_append]

end tour

/-! ### The calls of the tour -/

theorem inZone_unwritten (settings : Settings) (t : TemplateClass) (region zone : String)
    (roles : StorageRoles) : (inZone settings t region zone roles).Only Call.Unwritten := by
  have himage : (ensureImage settings t region zone roles).Only Call.Unwritten := by
    refine (Hypervisor.only_send ⟨rfl⟩).bind fun present => ?_
    split
    · exact Job.only_pure _
    · refine (Hypervisor.only_send ⟨rfl⟩).bind fun task =>
        (Task.finish_only ⟨rfl⟩ ⟨rfl⟩ fun _ => ⟨rfl⟩).bind fun status => ?_
      split
      · exact Job.only_pure _
      · exact Job.only_fail _
  have hcleanUp (machine : MachineId) :
      (cleanUp settings region zone machine).Only Call.Unwritten := by
    refine Plan.Only.bind (Hypervisor.only_send ⟨rfl⟩) fun reply => ?_
    cases reply with
    | ok task => exact TemplateClass.succeed_unwritten.tolerate
    | error e => exact Plan.only_pure _
  have hcreate : (createMachine settings t region zone roles).Only Call.Unwritten := by
    refine (MachineIds.allocateFrom_only (fun _ => ⟨rfl⟩) (fun _ => ⟨rfl⟩) _ _).bind fun machine =>
      (Hypervisor.only_send ⟨rfl⟩).bind fun task =>
        TemplateClass.succeed_unwritten.attempt.bind fun reply => ?_
    cases reply with
    | ok _ => exact Job.only_pure _
    | error e => exact (Job.only_lift (hcleanUp machine)).bind fun _ => Job.only_fail _
  have hmachine : (ensureMachine settings t region zone roles).Only Call.Unwritten := by
    refine (Hypervisor.only_send ⟨rfl⟩).bind fun found => ?_
    cases found with
    | some machine => exact Job.only_pure _
    | none => exact hcreate
  refine (only_connect ⟨rfl⟩).bind fun _ =>
    (withZone_only ⟨rfl⟩ ⟨rfl⟩ (himage.bind fun _ => hmachine)).bind fun machine => ?_
  exact (Job.only_lift (Sync.region_unwritten region).tolerate).bind fun _ => Job.only_pure _

theorem rolesIn_only {allowed : Call → Prop} (t : TemplateClass) {region : String}
    (h : ∀ id, allowed (.ask (.storage region id))) : (t.rolesIn region).Only allowed :=
  (Job.only_lift (TemplateClass.storagesOf_only h _)).bind fun _ => Plan.only_pure _

section tour
variable {settings : Settings} {t : TemplateClass}

theorem ZonesTried.unwritten {region : String} {roles : StorageRoles} {zones : List String}
    {trace : Trace} {os : List Outcome} (h : ZonesTried settings t region roles zones trace os) :
    ∀ e ∈ trace, e.call.Unwritten := by
  induction h with
  | nil => simp
  | @cons zone _ here _ result _ h _ ih =>
    have hhere := inZone_unwritten settings t region zone roles here result h
    exact List.forall_mem_append.2 ⟨hhere, ih⟩

theorem RegionsTried.unwritten {regions : List String} {trace : Trace} {os : List Outcome}
    (h : RegionsTried settings t regions trace os) : ∀ e ∈ trace, e.call.Unwritten := by
  induction h with
  | nil => simp
  | @refused region _ asked _ e _ h _ ih =>
    have hasked : ∀ e ∈ asked, e.call.Unwritten := rolesIn_only t (fun _ => ⟨rfl⟩) asked _ h
    exact List.forall_mem_append.2 ⟨hasked, ih⟩
  | @offered region _ asked _ _ roles _ _ h hzones _ ih =>
    have hasked : ∀ e ∈ asked, e.call.Unwritten := rolesIn_only t (fun _ => ⟨rfl⟩) asked _ h
    exact List.forall_mem_append.2 ⟨hasked, List.forall_mem_append.2 ⟨hzones.unwritten, ih⟩⟩

end tour

end Installing

namespace TemplateClass
open Installing

def Conflicting (t : TemplateClass) : Prop :=
  (∃ id, t.currentStatus.imageId = some id ∧ id ≠ t.imageFile) ∧ t.currentStatus.zones ≠ []

theorem imageConflict_eq (t : TemplateClass) :
    (t.Conflicting → ∃ message, t.imageConflict = some (.configuration t.displayName message)) ∧
      (¬ t.Conflicting → t.imageConflict = none) := by
  unfold Conflicting imageConflict
  cases t.currentStatus.imageId with
  | none => simp
  | some id => by_cases hid : id = t.imageFile <;> by_cases hz : t.currentStatus.zones = [] <;>
      simp [hid, hz]

def statusAfter (t : TemplateClass) (os : List Outcome) : Status where
  imageId := some t.imageFile
  zones := (Outcome.installations os).foldl recordEntry t.currentStatus.zones

/-- The end of a creation: what is written, and what is answered. -/
inductive Concluded (t : TemplateClass) (os : List Outcome) :
    Trace → Except Fault Status → Prop where
  | nowhere (h : (t.statusAfter os).zones = []) (e : Fault) : Concluded t os [] (.error e)
  | unwritten (h : (t.statusAfter os).zones ≠ []) (e : Fault) :
      Concluded t os [⟨.writeStatus t.displayName (t.statusAfter os), .error e⟩] (.error e)
  | failed (h : (t.statusAfter os).zones ≠ []) (hfaults : Outcome.faults os ≠ []) (e : Fault) :
      Concluded t os [⟨.writeStatus t.displayName (t.statusAfter os), .ok ()⟩] (.error e)
  | installed (h : (t.statusAfter os).zones ≠ []) (hfaults : Outcome.faults os = []) :
      Concluded t os [⟨.writeStatus t.displayName (t.statusAfter os), .ok ()⟩]
        (.ok (t.statusAfter os))

theorem join_eq_none {context : String} {es : List Fault} :
    Fault.join context es = none ↔ es = [] := by
  match es with
  | [] => simp [Fault.join]
  | [e] => simp [Fault.join]
  | e :: e' :: es => simp [Fault.join]

theorem conclusion_ensures (t : TemplateClass) (os : List Outcome) :
    (do
      t.writeUnlessEmpty (t.statusAfter os)
      match Fault.join t.context (Outcome.faults os) with
      | some e => Job.fail e
      | none =>
        if (t.statusAfter os).zones.isEmpty then Job.fail t.noStorage
        else return t.statusAfter os : Job Status).Ensures (Concluded t os) := by
  unfold writeUnlessEmpty
  by_cases hzones : (t.statusAfter os).zones = []
  · refine (Job.ensures_bind _ _ _).2 ?_
    cases hjoin : Fault.join t.context (Outcome.faults os) with
    | some e => simp [hzones, Concluded.nowhere]
    | none => simp [hzones, Concluded.nowhere]
  · have hwrite : (t.statusAfter os).zones.isEmpty = false := by simpa using hzones
    simp only [hwrite]
    refine (Job.ensures_bind _ _ _).2 ((Plan.ensures_perform (.writeStatus _ _) _).2 ?_)
    intro written
    cases written with
    | error e => exact .unwritten hzones e
    | ok _ =>
      cases hjoin : Fault.join t.context (Outcome.faults os) with
      | some e =>
        have hfaults : Outcome.faults os ≠ [] := fun hnil => by simp [hnil, Fault.join] at hjoin
        exact (Job.ensures_fail _ _).2 (.failed hzones hfaults e)
      | none => exact (Job.ensures_pure _ _).2 (.installed hzones (join_eq_none.1 hjoin))

theorem create_of_conflicting (settings : Settings) {t : TemplateClass} (h : t.Conflicting) :
    (t.create settings).Ensures fun trace r => trace = [] ∧ ∃ message,
      r = .error (.configuration t.displayName message) := by
  obtain ⟨message, hfault⟩ := t.imageConflict_eq.1 h
  unfold create
  rw [hfault]
  exact (Job.ensures_fail _ _).2 ⟨rfl, message, rfl⟩

theorem create_concluded (settings : Settings) {t : TemplateClass} (h : ¬ t.Conflicting) :
    (t.create settings).Ensures fun trace r => ∃ asked regions toured os written,
      trace = asked ++ (toured ++ written) ∧ t.targetRegions.Yields asked regions ∧
        RegionsTried settings t regions toured os ∧ Concluded t os written r := by
  unfold create
  rw [t.imageConflict_eq.2 h]
  refine (Job.ensures_bind _ _ _).2 ((Job.ensures_lift _ _).2 fun asked regions hasked => ?_)
  refine (Job.ensures_bind _ _ _).2 ((Job.ensures_lift _ _).2
    ((inRegions_ensures regions _).mono ?_))
  rintro toured ledger ⟨os, hos, rfl⟩
  have hfaults : (Ledger.after { installed := t.currentStatus.zones } os).faults =
      Outcome.faults os := List.nil_append _
  dsimp only
  rw [hfaults]
  exact (conclusion_ensures t os).mono fun written r hconcluded =>
    ⟨asked, regions, toured, os, written, rfl, hasked, hos, hconcluded⟩

/-- How recorded zones follow from what was recorded before and from what was installed since. -/
structure Recorded (before : List String) (es : List Installation) (zones : List String) :
    Prop where
  /-- Entries of other zones are kept, and so are those that cannot be read. -/
  kept : zones = before.filter (fun s => es.all fun e => isElsewhere e s) ++
    (lasting es).map Installation.render
  present : ∀ e ∈ es, ∃ e' ∈ lasting es, e'.region = e.region ∧ e'.zone = e.zone
  once : ∀ e ∈ es, (zones.filter fun s => !isElsewhere e s).length ≤ 1

theorem recorded_statusAfter (t : TemplateClass) (os : List Outcome) :
    Recorded t.currentStatus.zones (Outcome.installations os) (t.statusAfter os).zones where
  kept := foldl_recordEntry _ _
  present _ he := exists_lasting he
  once _ he := length_filter_foldl he _

theorem targetRegions_only {allowed : Call → Prop} (t : TemplateClass)
    (h : allowed (.ask .clusterRegions)) : t.targetRegions.Only allowed := by
  unfold targetRegions
  split
  · exact Plan.only_pure _
  · exact Plan.only_perform h

theorem filter_writesStatus_eq_nil {trace : Trace} (h : ∀ e ∈ trace, e.call.Unwritten) :
    trace.calls.filter Call.writesStatus = [] := by
  simp only [Trace.calls, List.filter_eq_nil_iff, List.forall_mem_map]
  intro e he
  simp [(h e he).notWriting]

/-- A creation that tries every zone once, with what it stores and answers after that. -/
structure Isolated (settings : Settings) (t : TemplateClass) (trace : Trace)
    (r : Except Fault Status) (os : List Outcome) : Prop where
  tried : ∃ asked regions toured written, trace = asked ++ (toured ++ written) ∧
    t.targetRegions.Yields asked regions ∧ RegionsTried settings t regions toured os
  recorded : Recorded t.currentStatus.zones (Outcome.installations os) (t.statusAfter os).zones
  written : trace.calls.filter Call.writesStatus =
    if (t.statusAfter os).zones = [] then []
    else [.writeStatus t.displayName (t.statusAfter os)]
  ok_iff : (∃ status, r = .ok status) ↔ (t.statusAfter os).zones ≠ [] ∧ Outcome.faults os = [] ∧
    ⟨.writeStatus t.displayName (t.statusAfter os), .ok ()⟩ ∈ trace

theorem isolated_of_concluded {settings : Settings} {t : TemplateClass}
    {asked toured written : Trace} {regions : List String} {os : List Outcome}
    {r : Except Fault Status} (hasked : t.targetRegions.Yields asked regions)
    (htoured : RegionsTried settings t regions toured os) (hend : Concluded t os written r) :
    Isolated settings t (asked ++ (toured ++ written)) r os where
  tried := ⟨asked, regions, toured, written, rfl, hasked, htoured⟩
  recorded := recorded_statusAfter t os
  written := by
    have hasked' := filter_writesStatus_eq_nil (targetRegions_only t ⟨rfl⟩ _ _ hasked)
    have htoured' := filter_writesStatus_eq_nil htoured.unwritten
    simp only [Trace.calls, List.map_append, List.filter_append] at hasked' htoured' ⊢
    rw [hasked', htoured', List.nil_append, List.nil_append]
    cases hend with
    | nowhere h => simp [h]
    | unwritten h | failed h | installed h => simp [h, Call.writesStatus]
  ok_iff := by
    have habsent {before : Trace} (h : ∀ e ∈ before, e.call.Unwritten) :
        (⟨.writeStatus t.displayName (t.statusAfter os), .ok ()⟩ : Event) ∉ before :=
      fun hmem => by simpa [Call.writesStatus] using (h _ hmem).notWriting
    have hasked' := habsent (targetRegions_only t ⟨rfl⟩ _ _ hasked)
    have htoured' := habsent htoured.unwritten
    simp only [List.mem_append, hasked', htoured', false_or]
    cases hend with
    | nowhere h => simp [h]
    | unwritten h => simp
    | failed h hfaults => simp [hfaults]
    | installed h hfaults => simp [h, hfaults]

def noble : TemplateClass where
  name := some "noble"
  spec := { image := { url := "https://images/noble.qcow2" }, storageIds := ["local"] }
  status := some { zones := ["r1/z1/9000", "r1/z2/9001", "r1/z2"] }

def oneZoneDown : (c : Call) → c.Reply
  | .ask (.storage _ id) => some { id, content := ["import", "images"], zones := ["z1", "z2"] }
  | .hypervisor _ (.listContent "z1" _ _) => .error (.transient "z1" "unreachable")
  | .hypervisor _ (.nextId _) => .ok 9002
  | c => c.grant

end TemplateClass
end NodeProvisioner
