import NodeProvisioner.Proofs.Template.Roles

/-! Installing a template class once more. The second run finds the images and the machines of the
first, so it makes none, and it records what is recorded already. -/
namespace NodeProvisioner

namespace Installing
variable {settings : Settings} {t : TemplateClass} {region zone : String} {roles : StorageRoles}

/-! ### Two runs -/

/-- What is assumed between two runs: questions are answered alike, what the first run found or made
is shown to the second, and no call of the second fails. -/
structure Repeats (facts : Facts) (first second : Trace) : Prop where
  told : first.Tells facts
  tells : second.Tells facts
  lists : ∀ region zone storage volume present, first.Holds region zone storage volume →
    ⟨.hypervisor region (.listContent zone storage Image.importContent), .ok present⟩ ∈ second →
      volume ∈ present
  finds : ∀ region zone name machine answer, first.Has region zone name machine →
    ⟨.hypervisor region (.findTemplate zone name), .ok answer⟩ ∈ second → answer = some machine
  smooth : second.Smooth

theorem Settled.shown {facts : Facts} {first second : Trace} {machine : MachineId}
    (h : Settled t region zone roles machine first) (hrepeats : Repeats facts first second) :
    Shown t region zone roles machine second :=
  ⟨fun present => hrepeats.lists _ _ _ _ present h.image,
    fun answer => hrepeats.finds _ _ _ _ answer h.machine⟩

def regionsTold (t : TemplateClass) (facts : Facts) : List String :=
  match t.spec.region with
  | some region => [region]
  | none => facts .clusterRegions

theorem targetRegions_told (t : TemplateClass) : t.targetRegions.Ensures fun trace regions =>
    ∀ facts, trace.Tells facts → regions = regionsTold t facts := by
  unfold TemplateClass.targetRegions regionsTold
  cases t.spec.region with
  | some region => exact (Plan.ensures_pure _ _).2 fun _ _ => rfl
  | none =>
    refine (Plan.ensures_perform (.ask .clusterRegions) _).2 fun answer facts htells => ?_
    exact htells .clusterRegions answer List.mem_cons_self

section again
variable {facts : Facts} {first second : Trace} (hrepeats : Repeats facts first second)

include hrepeats in
theorem ZonesTried.again {zones : List String} {here here' : Trace} {os os' : List Outcome}
    (h : ZonesTried settings t region roles zones here os)
    (h' : ZonesTried settings t region roles zones here' os') (hfaults : Outcome.faults os = [])
    (hsub : here.Sublist first) (hsub' : here'.Sublist second) : os' = os ∧ here'.Quiet := by
  induction h generalizing here' os' with
  | nil =>
    cases h'
    exact ⟨rfl, List.forall_mem_nil _⟩
  | @cons zone zones here rest result os h _ ih =>
    cases h' with
    | @cons _ _ here' rest' result' os' h' hrest' =>
      cases result with
      | error e => simp [Outcome.faults, Outcome.fault?] at hfaults
      | ok machine =>
        have hsettled := (inZone_settled _ _ h machine rfl).mono
          ((List.sublist_append_left _ _).trans hsub)
        have hhere : here'.Sublist second := (List.sublist_append_left _ _).trans hsub'
        obtain ⟨rfl, hquiet⟩ := inZone_unneeded _ _ h' machine
          (hrepeats.smooth.of_sublist hhere) ((hsettled.shown hrepeats).of_sublist hhere)
        have hfaults' : Outcome.faults os = [] := by
          simpa [Outcome.faults, Outcome.fault?, List.filterMap_cons] using hfaults
        obtain ⟨rfl, hquiet'⟩ := ih hrest' hfaults' ((List.sublist_append_right _ _).trans hsub)
          ((List.sublist_append_right _ _).trans hsub')
        exact ⟨rfl, hquiet.append hquiet'⟩

include hrepeats in
theorem rolesIn_again {asked asked' : Trace} {r r' : Except Fault StorageRoles}
    (h : (t.rolesIn region).run.Yields asked r) (h' : (t.rolesIn region).run.Yields asked' r')
    (hsub : asked.Sublist first) (hsub' : asked'.Sublist second) : r' = r := by
  rw [rolesIn_told t region _ _ h facts (hrepeats.told.of_sublist hsub),
    rolesIn_told t region _ _ h' facts (hrepeats.tells.of_sublist hsub')]

include hrepeats in
theorem RegionsTried.again {regions : List String} {toured toured' : Trace}
    {os os' : List Outcome} (h : RegionsTried settings t regions toured os)
    (h' : RegionsTried settings t regions toured' os') (hfaults : Outcome.faults os = [])
    (hsub : toured.Sublist first) (hsub' : toured'.Sublist second) : os' = os ∧ toured'.Quiet := by
  induction h generalizing toured' os' with
  | nil =>
    cases h'
    exact ⟨rfl, List.forall_mem_nil _⟩
  | refused h _ _ => simp [Outcome.faults, Outcome.fault?] at hfaults
  | @offered region regions asked here rest roles os₁ os₂ h hzones _ ih =>
    obtain ⟨hfaults₁, hfaults₂⟩ : Outcome.faults os₁ = [] ∧ Outcome.faults os₂ = [] := by
      simpa using hfaults
    cases h' with
    | @refused _ _ asked' rest' e os' h' hrest' =>
      cases rolesIn_again hrepeats h h' ((List.sublist_append_left _ _).trans hsub)
        ((List.sublist_append_left _ _).trans hsub')
    | @offered _ _ asked' here' rest' roles' os₁' os₂' h' hzones' hrest' =>
      cases rolesIn_again hrepeats h h' ((List.sublist_append_left _ _).trans hsub)
        ((List.sublist_append_left _ _).trans hsub')
      have hlater : (here ++ rest).Sublist first := (List.sublist_append_right _ _).trans hsub
      have hlater' : (here' ++ rest').Sublist second := (List.sublist_append_right _ _).trans hsub'
      obtain ⟨rfl, hquiet⟩ := hzones.again hrepeats hzones' hfaults₁
        ((List.sublist_append_left _ _).trans hlater) ((List.sublist_append_left _ _).trans hlater')
      obtain ⟨rfl, hquiet'⟩ := ih hrest' hfaults₂ ((List.sublist_append_right _ _).trans hlater)
        ((List.sublist_append_right _ _).trans hlater')
      have honly : (t.rolesIn region).Only fun c => c.installs = false :=
        rolesIn_only t fun _ => rfl
      have hasked : asked'.Quiet := honly _ _ h'
      exact ⟨rfl, hasked.append (hquiet.append hquiet')⟩

end again

/-! ### Recording the same again -/

theorem isElsewhere_self {e : Installation} (hregion : Installation.Name e.region)
    (hzone : Installation.Name e.zone) : isElsewhere e e.render = false := by
  simp [isElsewhere, Installation.parse?_render hregion hzone]

theorem foldl_recordEntry_again {es : List Installation}
    (hnames : ∀ e ∈ es, Installation.Name e.region ∧ Installation.Name e.zone)
    (before : List String) :
    es.foldl recordEntry (es.foldl recordEntry before) = es.foldl recordEntry before := by
  have hnew : ((lasting es).map Installation.render).filter
      (fun s => es.all fun e => isElsewhere e s) = [] := by
    simp only [List.filter_eq_nil_iff, List.forall_mem_map, List.all_eq_true]
    intro e he hall
    have hmem := mem_of_mem_lasting he
    have hself := isElsewhere_self (hnames e hmem).1 (hnames e hmem).2
    rw [hall e hmem] at hself
    cases hself
  rw [foldl_recordEntry es before, foldl_recordEntry es, List.filter_append, List.filter_filter,
    hnew, List.append_nil]
  simp only [Bool.and_self]

structure Named (t : TemplateClass) (facts : Facts) : Prop where
  region : ∀ region ∈ t.spec.region, Installation.Name region
  regions : ∀ region ∈ facts .clusterRegions, Installation.Name region
  zones : ∀ region id storage, facts (.storage region id) = some storage →
    ∀ zone ∈ storage.zones, Installation.Name zone

/-- The roles have fallen to storages that are there, and the zones reach both of them. -/
structure TakenFrom (storages : List Storage) (roles : StorageRoles) : Prop where
  imports : roles.imports ∈ storages
  images : roles.images ∈ storages
  supports : roles.imports.supports Image.importContent = true
  reached : ∀ zone ∈ roles.zones, zone ∈ roles.imports.zones ∧ zone ∈ roles.images.zones

theorem takenFrom_of_rolesTold {facts : Facts} (h : rolesTold t facts region = .ok roles) :
    TakenFrom (t.spec.storageIds.filterMap (facts.storages region)) roles := by
  have hassigned := assigned_of_rolesTold h
  obtain ⟨_, _, _, -, -, hfills, -⟩ := hassigned.imports
  exact ⟨hassigned.imports.mem, hassigned.images.mem, List.contains_iff_mem.2 hfills.takes,
    hassigned.reached⟩

theorem Named.zones_of_roles {facts : Facts} (h : Named t facts)
    (hroles : rolesTold t facts region = .ok roles) {zone : String} (hzone : zone ∈ roles.zones) :
    Installation.Name zone := by
  have htaken := takenFrom_of_rolesTold hroles
  obtain ⟨id, _, htold⟩ := List.mem_filterMap.1 htaken.images
  exact h.zones region id roles.images htold zone (htaken.reached zone hzone).2

theorem ZonesTried.installations {zones : List String} {here : Trace} {os : List Outcome}
    (h : ZonesTried settings t region roles zones here os) :
    ∀ e ∈ Outcome.installations os, e.region = region ∧ e.zone ∈ zones := by
  induction h with
  | nil => exact List.forall_mem_nil _
  | @cons zone zones _ _ result os _ _ ih =>
    have hrest : ∀ e ∈ Outcome.installations os, e.region = region ∧ e.zone ∈ zone :: zones :=
      fun e he => ⟨(ih e he).1, List.mem_cons_of_mem zone (ih e he).2⟩
    cases result with
    | error e => exact hrest
    | ok machine => exact List.forall_mem_cons.2 ⟨⟨rfl, List.mem_cons_self⟩, hrest⟩

theorem RegionsTried.named {facts : Facts} (hnames : Named t facts) {regions : List String}
    {toured : Trace} {os : List Outcome} (h : RegionsTried settings t regions toured os)
    (htells : toured.Tells facts) (hregions : ∀ region ∈ regions, Installation.Name region) :
    ∀ e ∈ Outcome.installations os, Installation.Name e.region ∧ Installation.Name e.zone := by
  induction h with
  | nil => exact List.forall_mem_nil _
  | refused h _ ih =>
    exact ih (htells.of_sublist (List.sublist_append_right _ _))
      fun region hregion => hregions region (List.mem_cons_of_mem _ hregion)
  | @offered region regions asked here rest roles os₁ os₂ h hzones _ ih =>
    have hroles := rolesIn_told t region _ _ h facts
      (htells.of_sublist (List.sublist_append_left _ _))
    have hlater := ih (htells.of_sublist
      ((List.sublist_append_right _ _).trans (List.sublist_append_right _ _)))
      fun region hregion => hregions region (List.mem_cons_of_mem _ hregion)
    rw [Outcome.installations_append]
    refine List.forall_mem_append.2 ⟨fun e he => ?_, hlater⟩
    obtain ⟨rfl, hzone⟩ := hzones.installations e he
    exact ⟨hregions _ List.mem_cons_self, hnames.zones_of_roles hroles.symm hzone⟩

theorem Named.regionsTold {t : TemplateClass} {facts : Facts} (h : Named t facts) :
    ∀ region ∈ regionsTold t facts, Installation.Name region := by
  unfold Installing.regionsTold
  have hregion := h.region
  cases hspec : t.spec.region with
  | some region =>
    rw [hspec] at hregion
    exact List.forall_mem_singleton.2 (hregion region rfl)
  | none => exact h.regions

/-! ### The recorded status changes no zone's installation -/

theorem inZone_status (status : Option TemplateClass.Status) :
    inZone settings { t with status } region zone roles = inZone settings t region zone roles := by
  have hcreate : createMachine settings { t with status } region zone roles =
      createMachine settings t region zone roles := by
    unfold createMachine
    rfl
  have hmachine : ensureMachine settings { t with status } region zone roles =
      ensureMachine settings t region zone roles := by
    unfold ensureMachine
    congr 1
    funext found
    cases found with
    | some _ => rfl
    | none => exact hcreate
  unfold inZone
  rw [hmachine]
  rfl

theorem ZonesTried.of_status {status : Option TemplateClass.Status} {zones : List String}
    {here : Trace} {os : List Outcome}
    (h : ZonesTried settings { t with status } region roles zones here os) :
    ZonesTried settings t region roles zones here os := by
  induction h with
  | nil => exact .nil
  | cons h _ ih =>
    rw [inZone_status] at h
    exact .cons h ih

theorem RegionsTried.of_status {status : Option TemplateClass.Status} {regions : List String}
    {toured : Trace} {os : List Outcome}
    (h : RegionsTried settings { t with status } regions toured os) :
    RegionsTried settings t regions toured os := by
  induction h with
  | nil => exact .nil
  | refused h _ ih => exact .refused h ih
  | offered h hzones _ ih => exact .offered h hzones.of_status ih

end Installing

namespace TemplateClass
open Installing

theorem create_installs {settings : Settings} {t : TemplateClass} {trace : Trace}
    {status : Status} (h : (t.create settings).run.Yields trace (.ok status)) :
    ∃ asked regions toured os written, trace = asked ++ (toured ++ written) ∧
      t.targetRegions.Yields asked regions ∧ RegionsTried settings t regions toured os ∧
      Concluded t os written (.ok status) := by
  by_cases hconflict : t.Conflicting
  · obtain ⟨-, message, hr⟩ := create_of_conflicting settings hconflict _ _ h
    cases hr
  · exact create_concluded settings hconflict _ _ h

theorem not_conflicting_statusAfter (t : TemplateClass) (os : List Outcome) :
    ¬ Conflicting { t with status := some (t.statusAfter os) } :=
  fun ⟨⟨_, hid, hne⟩, _⟩ => hne (Option.some.inj hid).symm

theorem statusAfter_again {t : TemplateClass} {os : List Outcome}
    (hnames : ∀ e ∈ Outcome.installations os,
      Installation.Name e.region ∧ Installation.Name e.zone) :
    ({ t with status := some (t.statusAfter os) } : TemplateClass).statusAfter os =
      t.statusAfter os :=
  congrArg (Status.mk (some t.imageFile)) (foldl_recordEntry_again hnames t.currentStatus.zones)

/-- Creating a class anew that carries the status of a successful creation puts nothing in place and
gives the same status. -/
theorem create_again {settings : Settings} {t : TemplateClass} {facts : Facts}
    {first second : Trace} {status : Status} {r : Except Fault Status}
    (hfirst : (t.create settings).run.Yields first (.ok status))
    (hsecond : (create settings { t with status := some status }).run.Yields second r)
    (hnames : Named t facts) (hrepeats : Repeats facts first second) :
    r = .ok status ∧ second.Quiet := by
  obtain ⟨asked, regions, toured, os, written, rfl, hasked, htoured, hend⟩ :=
    create_installs hfirst
  cases hend with
  | installed hzones hfaults =>
  obtain ⟨asked', regions', toured', os', written', rfl, hasked', htoured', hend'⟩ :=
    create_concluded settings (t.not_conflicting_statusAfter os) _ _ hsecond
  have hsub : toured.Sublist (asked ++ (toured ++ [⟨.writeStatus t.displayName
      (t.statusAfter os), .ok ()⟩])) := by simp
  have hsub' : toured'.Sublist (asked' ++ (toured' ++ written')) := by simp
  have hsmooth : Trace.Smooth written' := hrepeats.smooth.of_sublist (by simp)
  have htold := hrepeats.told.of_sublist hsub
  have hregions := targetRegions_told t _ _ hasked facts
    (hrepeats.told.of_sublist (List.sublist_append_left _ _))
  have hregions' := targetRegions_told _ _ _ hasked' facts
    (hrepeats.tells.of_sublist (List.sublist_append_left _ _))
  obtain rfl : regions' = regions := hregions'.trans hregions.symm
  have hplaces := htoured.named hnames htold (hregions ▸ hnames.regionsTold)
  obtain ⟨rfl, hquiet'⟩ := htoured.again hrepeats htoured'.of_status hfaults hsub hsub'
  rw [← statusAfter_again hplaces] at hzones
  cases hend' with
  | nowhere h => exact absurd h hzones
  | unwritten => cases hsmooth _ List.mem_cons_self
  | failed h hfaults' => exact absurd hfaults hfaults'
  | installed h _ =>
    refine ⟨congrArg Except.ok (statusAfter_again hplaces), ?_⟩
    have honly : t.targetRegions.Only fun c => c.installs = false := t.targetRegions_only rfl
    have hquiet : asked'.Quiet := honly _ _ hasked'
    exact hquiet.append (hquiet'.append (Trace.quiet_singleton rfl))

def twoRegions : Facts
  | .clusterRegions => ["r1", "r2"]
  | .storage _ id => some { id, content := ["import", "images"], zones := ["z1"] }
  | q => Call.grant (.ask q)

def nothingThere : (c : Call) → c.Reply
  | .ask q => twoRegions q
  | .hypervisor _ (.nextId _) => .ok 9002
  | c => c.grant

def thereAfter (first : Trace) : (c : Call) → c.Reply
  | .ask q => twoRegions q
  | .hypervisor _ (.listContent _ _ _) => .ok first.downloads
  | .hypervisor _ (.findTemplate _ _) => .ok (some 9002)
  | c => c.grant

theorem named_twoRegions : Named noble twoRegions where
  region := nofun
  regions := by
    intro region hregion
    rcases List.mem_pair.1 hregion with rfl | rfl
    · exact ⟨by decide, by decide⟩
    · exact ⟨by decide, by decide⟩
  zones := by
    rintro region id _ ⟨⟩ zone hzone
    obtain rfl := List.mem_singleton.1 hzone
    exact ⟨by decide, by decide⟩

theorem repeats_thereAfter {first second : Trace}
    (hfirst : ∀ e ∈ first, e.reply = nothingThere e.call)
    (hcreated : first.calls.all (Call.createsOnly 9002) = true)
    (hsecond : ∀ e ∈ second, e.reply = thereAfter first e.call) :
    Repeats twoRegions first second where
  told q _ h := hfirst _ h
  tells q _ h := hsecond _ h
  lists region zone storage volume present hholds hlisted := by
    cases hsecond _ hlisted
    cases hholds with
    | listed h hmem =>
      cases hfirst _ h
      cases hmem
    | @downloaded request task hcontent h =>
      have hevent := h.mem List.mem_cons_self
      exact List.mem_filterMap.2 ⟨_, List.mem_map_of_mem hevent, rfl⟩
  finds region zone name machine answer hhas hfound := by
    cases hsecond _ hfound
    cases hhas with
    | found h => cases hfirst _ h
    | created hname htemplate h =>
      have hevent := h.mem List.mem_cons_self
      have hmachine := List.all_eq_true.1 hcreated _ (List.mem_map_of_mem hevent)
      have hsame : machine = 9002 := by simpa [Call.createsOnly] using hmachine
      rw [hsame]
  smooth e he := by
    obtain ⟨c, reply⟩ := e
    obtain rfl : reply = thereAfter first c := hsecond _ he
    rcases c with _ | ⟨_, request⟩ | request | _ | request | _ | _ | _ | _ | _
    case hypervisor => cases request <;> rfl
    case capacity => cases request <;> rfl
    case bootstrap => cases request <;> rfl
    all_goals rfl

theorem create_again_twoRegions : ∃ first second status,
    (noble.create {}).run.Yields first (.ok status) ∧
    status.zones = ["r1/z2/9001", "r1/z2", "r1/z1/9002", "r2/z1/9002"] ∧
    (create {} { noble with status := some status }).run.Yields second (.ok status) ∧
    ¬ first.Quiet ∧ second.Quiet := by
  obtain ⟨first, status, hfirst, hgood, hreplies⟩ := Job.yields_of_replies nothingThere
    (noble.create {}) (fun first status =>
      status.zones == ["r1/z2/9001", "r1/z2", "r1/z1/9002", "r2/z1/9002"] &&
      first.calls.any Call.installs && first.calls.all (Call.createsOnly 9002)) (by decide +kernel)
  simp only [Bool.and_eq_true, beq_iff_eq] at hgood
  obtain ⟨⟨hzones, hinstalls⟩, hcreated⟩ := hgood
  have hsecond := Plan.yields_play (fun _ => thereAfter first) []
    (create {} { noble with status := some status }).run
  have hreplies' := Plan.reply_of_mem_play (thereAfter first) []
    (create {} { noble with status := some status }).run
  have hrepeats := repeats_thereAfter hreplies hcreated hreplies'
  obtain ⟨hr, hquiet⟩ := create_again hfirst hsecond named_twoRegions hrepeats
  rw [hr] at hsecond
  refine ⟨first, _, status, hfirst, hzones, hsecond, fun hquiet => ?_, hquiet⟩
  obtain ⟨c, hc, hinstalls⟩ := List.any_eq_true.1 hinstalls
  obtain ⟨e, he, rfl⟩ := List.mem_map.1 hc
  rw [hquiet e he] at hinstalls
  cases hinstalls

end TemplateClass
end NodeProvisioner
