import NodeProvisioner.Proofs.Template.Repeating
import NodeProvisioner.Proofs.World.Estate

/-! What a creation puts where, on hypervisors on which all goes well. -/
namespace NodeProvisioner

namespace Installing
variable {settings : Settings} {t : TemplateClass} {region zone : String} {roles : StorageRoles}
  {site : Site} {w w' : Estate}

def imageCell (site : Site) (region zone storage file : String) : Cell :=
  site.volume region zone (Image.volume storage file)

/-! ### One zone -/

theorem ensureImage_leads (hidle : w.running = [])
    (hlimit : site.limit ≤ settings.taskPatience.timeout) :
    (ensureImage settings t region zone roles).Leads site w (fun _ w' => w'.running = [] ∧
      ∀ c, c ≠ imageCell site region zone roles.imports.id t.imageFile → w'.held c = w.held c)
      fun _ => False := by
  refine leads_listContent.andThen ?_
  rintro present _ ⟨rfl, -⟩
  split
  · exact Job.leads_pure ⟨hidle, fun _ _ => rfl⟩
  refine leads_download.andThen ?_
  rintro task _ ⟨content, rfl⟩
  refine (Task.leads_finish (Estate.busy_start hidle _) rfl hlimit).andThen ?_
  rintro status _ ⟨hsuccess, rfl⟩
  rw [if_pos hsuccess]
  exact Job.leads_pure ⟨rfl, fun c hc => Function.update_of_ne hc _ _⟩

theorem allocateFrom_leads (attempts : Nat) (floor : MachineId) :
    (MachineIds.allocateFrom region attempts floor).Leads site w
      (fun id w' => w' = w ∧ w.held (.machine region id) = none) fun _ => True := by
  induction attempts generalizing floor with
  | zero => exact Job.leads_fail trivial
  | succ attempts ih =>
    refine leads_nextId.andThen ?_
    rintro id _ ⟨rfl, hfree⟩
    have hclaim : (Memory.access (.claimId region id)).Only fun c => c.idle = true :=
      Plan.only_perform rfl
    refine (Job.leads_lift hclaim.leads).andThen ?_
    rintro claimed _ rfl
    split
    · exact Job.leads_pure ⟨rfl, hfree⟩
    · exact ih _

theorem createMachine_leads (hidle : w.running = [])
    (hlimit : site.limit ≤ settings.taskPatience.timeout) :
    (createMachine settings t region zone roles).Leads site w (fun id w' =>
      w.held (.machine region id) = none ∧ w' = w.put (.machine region id)
        (some ⟨zone, (Blueprint.options t.displayName t.spec roles t.imageFile).set⟩))
      fun _ => True := by
  refine (allocateFrom_leads _ _).bind ?_
  rintro id _ ⟨rfl, hfree⟩
  refine leads_create.andThen ?_
  rintro task _ rfl
  refine (Task.leads_succeed (Estate.busy_start hidle _) rfl hlimit).attempt.andThen ?_
  rintro _ _ ⟨_, rfl, rfl⟩
  exact Job.leads_pure ⟨hfree, rfl⟩

theorem isTemplate_options : Tenant.IsTemplate
    ⟨zone, (Blueprint.options t.displayName t.spec roles t.imageFile).set⟩ t.displayName zone where
  here := rfl
  named := Blueprint.get?_options_of_fixed List.mem_cons_self t.spec
  marked := Blueprint.get?_options_of_fixed (List.mem_cons_of_mem _ List.mem_cons_self) t.spec

/-- What a successful visit to a zone has changed: it is made sure that the template is there, and
beyond that only the image may have been put in place. -/
structure Installed (site : Site) (t : TemplateClass) (region zone : String) (roles : StorageRoles)
    (w : Estate) (machine : MachineId) (w' : Estate) : Prop where
  idle : w'.running = []
  present : ∃ tenant, w'.held (.machine region machine) = some tenant ∧
    tenant.IsTemplate t.displayName zone
  /-- A machine is new only if there was no template, and then its id was free. -/
  fresh : w'.held (.machine region machine) = w.held (.machine region machine) ∨
    w.held (.machine region machine) = none ∧ w.TemplateSought region zone t.displayName none
  kept : ∀ c, c ≠ .machine region machine →
    c ≠ imageCell site region zone roles.imports.id t.imageFile → w'.held c = w.held c

theorem ensureMachine_leads (hidle : w.running = [])
    (hlimit : site.limit ≤ settings.taskPatience.timeout) :
    (ensureMachine settings t region zone roles).Leads site w
      (Installed site t region zone roles w) fun _ => True := by
  refine leads_findTemplate.andThen ?_
  rintro found _ ⟨rfl, hfound⟩
  cases found with
  | some machine => exact Job.leads_pure ⟨hidle, hfound, .inl rfl, fun _ _ _ => rfl⟩
  | none =>
    refine (createMachine_leads hidle hlimit).mono ?_ fun _ _ => trivial
    rintro machine _ ⟨hfree, rfl⟩
    exact ⟨rfl, ⟨_, Function.update_self _ _ _, isTemplate_options⟩, .inr ⟨hfree, hfound⟩,
      fun c hc _ => Function.update_of_ne hc _ _⟩

theorem Installed.of_image {mid : Estate} {machine : MachineId}
    (h : Installed site t region zone roles mid machine w')
    (hkept : ∀ c, c ≠ imageCell site region zone roles.imports.id t.imageFile →
      mid.held c = w.held c) : Installed site t region zone roles w machine w' := by
  have hmachine (id : MachineId) : mid.held (.machine region id) = w.held (.machine region id) :=
    hkept _ nofun
  refine ⟨h.idle, h.present, ?_, fun c hc himage => (h.kept c hc himage).trans (hkept c himage)⟩
  have hchange := h.fresh
  simpa only [hmachine, Estate.TemplateSought] using hchange

namespace Installed
variable {machine : MachineId} {region' zone' : String}

theorem other (h : Installed site t region zone roles w machine w') {id : MachineId}
    (hne : Cell.machine region' id ≠ .machine region machine) :
    w'.held (.machine region' id) = w.held (.machine region' id) := h.kept _ hne nofun

theorem stays (h : Installed site t region zone roles w machine w') {id : MachineId}
    {tenant : Tenant} (hbefore : w.held (.machine region' id) = some tenant) :
    w'.held (.machine region' id) = some tenant := by
  by_cases hne : Cell.machine region' id = .machine region machine
  · cases hne
    rcases h.fresh with hsame | ⟨hfree, -⟩
    · rw [hsame, hbefore]
    · rw [hfree] at hbefore
      cases hbefore
  · rw [h.other hne, hbefore]

theorem sole (h : Installed site t region zone roles w machine w')
    (hnone : w.TemplateSought region zone t.displayName none) :
    w'.SoleTemplate region zone t.displayName machine := by
  intro id tenant hafter htemplate
  by_contra hid
  rw [h.other fun heq => hid (Cell.machine.inj heq).2] at hafter
  exact hnone id tenant hafter htemplate

/-- A template that was the only one of its zone stays so: another one is not made beside it. -/
theorem staysSole (h : Installed site t region zone roles w machine w') {id former : MachineId}
    {tenant : Tenant} (hformer : w.held (.machine region' former) = some tenant)
    (htemplate : tenant.IsTemplate t.displayName zone')
    (hsole : w.SoleTemplate region' zone' t.displayName id) :
    w'.SoleTemplate region' zone' t.displayName id := by
  intro id' tenant' hafter htemplate'
  by_cases hne : Cell.machine region' id' = .machine region machine
  · cases hne
    rcases h.fresh with hsame | ⟨-, hnone⟩
    · rw [hsame] at hafter
      exact hsole _ _ hafter htemplate'
    · obtain ⟨made, hmade, hmade'⟩ := h.present
      rw [hmade] at hafter
      cases hafter
      -- The new machine lies in the same zone, where the former template would have been found.
      obtain rfl := hmade'.here.symm.trans htemplate'.here
      exact absurd htemplate (hnone former tenant hformer)
  · rw [h.other hne] at hafter
    exact hsole _ _ hafter htemplate'

end Installed

theorem inZone_leads (hidle : w.running = [])
    (hlimit : site.limit ≤ settings.taskPatience.timeout) :
    (inZone settings t region zone roles).Leads site w
      (Installed site t region zone roles w) fun _ => True := by
  have hinside : (do
      ensureImage settings t region zone roles
      ensureMachine settings t region zone roles : Job MachineId).Leads site w
        (Installed site t region zone roles w) fun _ => True := by
    refine (ensureImage_leads hidle hlimit).andThen ?_
    rintro _ mid ⟨hidle, hkept⟩
    exact (ensureMachine_leads hidle hlimit).mono (fun machine w' h => h.of_image hkept)
      fun _ _ => trivial
  refine leads_connect.andThen ?_
  rintro _ _ rfl
  refine (withZone_leads hinside).bind fun machine w' hinstalled => ?_
  have hrenew : (Sync.region region).Only fun c => c.idle = true :=
    Sync.region_only (fun _ _ => rfl) (fun _ => rfl) rfl rfl fun _ => rfl
  refine (Job.leads_lift hrenew.tolerate.leads).andThen ?_
  rintro _ _ rfl
  exact Job.leads_pure hinstalled

/-! ### All zones -/

structure ImportStorage (site : Site) (ids : List String) (i : Installation) (storage : Storage) :
    Prop where
  told : ∃ id ∈ ids, site.facts (.storage i.region id) = some storage
  supports : storage.supports Image.importContent = true
  reaches : i.zone ∈ storage.zones

theorem mem_importStoragesInZone {ids : List String} {i : Installation} {id : String} :
    id ∈ importStoragesInZone i.zone (ids.filterMap fun id => site.facts (.storage i.region id)) ↔
      ∃ storage, ImportStorage site ids i storage ∧ storage.id = id := by
  unfold importStoragesInZone
  simp only [List.mem_map, List.mem_filter, List.mem_filterMap, Bool.and_eq_true,
    List.contains_iff_mem]
  constructor
  · rintro ⟨storage, ⟨htold, hsupports, hreaches⟩, hid⟩
    exact ⟨storage, ⟨htold, hsupports, hreaches⟩, hid⟩
  · rintro ⟨storage, h, hid⟩
    exact ⟨storage, ⟨h.told, h.supports, h.reaches⟩, hid⟩

def IsImageCell (site : Site) (ids : List String) (file : String) (i : Installation) (c : Cell) :
    Prop :=
  ∃ storage, ImportStorage site ids i storage ∧
    c = imageCell site i.region i.zone storage.id file

theorem imports_of_rolesTold (h : rolesTold t site.facts region = .ok roles)
    (hzone : zone ∈ roles.zones) (machine : MachineId) :
    ImportStorage site t.spec.storageIds { region, zone, machine } roles.imports := by
  have htaken := takenFrom_of_rolesTold h
  exact ⟨List.mem_filterMap.1 htaken.imports, htaken.supports, (htaken.reached zone hzone).1⟩

/-- What installations have put in place, on top of what was there before. -/
structure Placed (site : Site) (t : TemplateClass) (before : Estate) (es : List Installation)
    (w : Estate) : Prop where
  idle : w.running = []
  present : ∀ e ∈ es, ∃ tenant, w.held (.machine e.region e.machine) = some tenant ∧
    tenant.IsTemplate t.displayName e.zone
  /-- A new machine is the only template of the class in a zone where it was installed. -/
  machines : ∀ region id, w.held (.machine region id) = before.held (.machine region id) ∨
    before.held (.machine region id) = none ∧ ∃ e ∈ es, e.region = region ∧ e.machine = id ∧
      w.SoleTemplate region e.zone t.displayName id
  volumes : ∀ region place name, w.held (.volume region place name) =
      before.held (.volume region place name) ∨
    ∃ e ∈ es, IsImageCell site t.spec.storageIds t.imageFile e (.volume region place name)

theorem Placed.refl {before : Estate} (hidle : before.running = []) :
    Placed site t before [] before :=
  ⟨hidle, List.forall_mem_nil _, fun _ _ => .inl rfl, fun _ _ _ => .inl rfl⟩

theorem Placed.add {before : Estate} {es : List Installation} {i : Installation}
    (h : Placed site t before es w)
    (hinstalled : Installed site t i.region i.zone roles w i.machine w')
    (himports : ImportStorage site t.spec.storageIds i roles.imports) :
    Placed site t before (es ++ [i]) w' := by
  have hkept {region : String} {id : MachineId}
      (hsame : w'.held (.machine region id) = w.held (.machine region id)) :
      w'.held (.machine region id) = before.held (.machine region id) ∨
        before.held (.machine region id) = none ∧ ∃ e ∈ es ++ [i], e.region = region ∧
          e.machine = id ∧ w'.SoleTemplate region e.zone t.displayName id := by
    rcases h.machines region id with hbefore | ⟨hfree, e, he, rfl, hmachine, hsole⟩
    · exact .inl (hsame.trans hbefore)
    · obtain ⟨tenant, hformer, htemplate⟩ := h.present e he
      exact .inr ⟨hfree, e, List.mem_append_left _ he, rfl, hmachine,
        hinstalled.staysSole hformer htemplate hsole⟩
  refine ⟨hinstalled.idle, List.forall_mem_append.2 ⟨fun e he => ?_,
    List.forall_mem_singleton.2 hinstalled.present⟩, fun region id => ?_,
    fun region place name => ?_⟩
  · obtain ⟨tenant, hbefore, htemplate⟩ := h.present e he
    exact ⟨tenant, hinstalled.stays hbefore, htemplate⟩
  · by_cases hne : Cell.machine region id = .machine i.region i.machine
    · cases hne
      rcases hinstalled.fresh with hsame | ⟨hfree, hnone⟩
      · exact hkept hsame
      · have hbefore : before.held (.machine i.region i.machine) = none := by
          rcases h.machines i.region i.machine with hsame | ⟨hbefore, -⟩
          · rw [← hsame, hfree]
          · exact hbefore
        exact .inr ⟨hbefore, i, by simp, rfl, rfl, hinstalled.sole hnone⟩
    · exact hkept (hinstalled.other hne)
  · by_cases himage : Cell.volume region place name =
        imageCell site i.region i.zone roles.imports.id t.imageFile
    · exact .inr ⟨i, by simp, roles.imports, himports, himage⟩
    · rw [hinstalled.kept (.volume region place name) nofun himage]
      rcases h.volumes region place name with hsame | ⟨e, he, hcell⟩
      · exact .inl hsame
      · exact .inr ⟨e, List.mem_append_left _ he, hcell⟩

/-- What is recorded last for each zone accounts for all that was put in place. -/
theorem Placed.of_lasting {before : Estate} {es : List Installation}
    (h : Placed site t before es w) : Placed site t before (lasting es) w := by
  refine ⟨h.idle, fun e he => h.present e (mem_of_mem_lasting he), fun region id => ?_,
    fun region place name => ?_⟩
  · rcases h.machines region id with hsame | ⟨hfree, e, he, rfl, hmachine, hsole⟩
    · exact .inl hsame
    · obtain ⟨e', he', hregion, hzone⟩ := exists_lasting he
      obtain ⟨tenant, hheld, htemplate⟩ := h.present e' (mem_of_mem_lasting he')
      rw [hregion] at hheld
      rw [← hzone] at hsole
      exact .inr ⟨hfree, e', he', hregion, hsole _ tenant hheld htemplate, hsole⟩
  · rcases h.volumes region place name with hsame | ⟨e, he, hcell⟩
    · exact .inl hsame
    · obtain ⟨e', he', hregion, hzone⟩ := exists_lasting he
      obtain ⟨storage, hstorage, hcell⟩ := hcell
      refine .inr ⟨e', he', storage, ?_, ?_⟩
      · exact ⟨hregion ▸ hstorage.told, hstorage.supports, hzone ▸ hstorage.reaches⟩
      · rw [hcell, hregion, hzone]

section tour
variable {before : Estate} {es : List Installation}

theorem ZonesTried.placed {zones : List String} {here : Trace} {os : List Outcome}
    (h : ZonesTried settings t region roles zones here os) (hfaults : Outcome.faults os = [])
    (hlimit : site.limit ≤ settings.taskPatience.timeout)
    (hroles : rolesTold t site.facts region = .ok roles)
    (hzones : ∀ zone ∈ zones, zone ∈ roles.zones)
    (hplaced : Placed site t before es w) (hserves : site.Serves w here w') :
    Placed site t before (es ++ Outcome.installations os) w' := by
  induction h generalizing w es with
  | nil =>
    obtain rfl := hserves
    rwa [Outcome.installations, List.filterMap_nil, List.append_nil]
  | @cons zone zones here rest result os h _ ih =>
    obtain ⟨mid, hhere, hrest⟩ := Site.serves_append.1 hserves
    cases result with
    | error e => simp [Outcome.faults, Outcome.fault?] at hfaults
    | ok machine =>
      have hfaults' : Outcome.faults os = [] := by
        simpa [Outcome.faults, Outcome.fault?, List.filterMap_cons] using hfaults
      obtain ⟨hzone, hlater⟩ := List.forall_mem_cons.1 hzones
      have hinstalled := inZone_leads hplaced.idle hlimit _ _ h mid hhere
      have hadded := hplaced.add (i := { region, zone, machine }) hinstalled
        (imports_of_rolesTold hroles hzone machine)
      have hfinal := ih hfaults' hlater hadded hrest
      rwa [List.append_assoc] at hfinal

theorem RegionsTried.placed {regions : List String} {toured : Trace} {os : List Outcome}
    (h : RegionsTried settings t regions toured os) (hfaults : Outcome.faults os = [])
    (hlimit : site.limit ≤ settings.taskPatience.timeout)
    (hplaced : Placed site t before es w) (hserves : site.Serves w toured w') :
    Placed site t before (es ++ Outcome.installations os) w' := by
  induction h generalizing w es with
  | nil =>
    obtain rfl := hserves
    rwa [Outcome.installations, List.filterMap_nil, List.append_nil]
  | refused => simp [Outcome.faults, Outcome.fault?] at hfaults
  | @offered region _ asked here rest roles os₁ os₂ h hzones _ ih =>
    obtain ⟨hfaults₁, hfaults₂⟩ : Outcome.faults os₁ = [] ∧ Outcome.faults os₂ = [] := by
      simpa using hfaults
    obtain ⟨mid, hasked, hlater⟩ := Site.serves_append.1 hserves
    obtain ⟨mid', hhere, hrest⟩ := Site.serves_append.1 hlater
    have hidle : (t.rolesIn region).Only fun c => c.idle = true := rolesIn_only t fun _ => rfl
    obtain rfl := hidle.leads _ _ h mid hasked
    have hroles := rolesIn_told t region _ _ h site.facts hasked.tells
    have hplaced' := hzones.placed hfaults₁ hlimit hroles.symm (fun _ hzone => hzone) hplaced hhere
    have hfinal := ih hfaults₂ hplaced' hrest
    rwa [Outcome.installations_append, ← List.append_assoc]

end tour
end Installing

namespace TemplateClass
open Installing
variable {settings : Settings} {t : TemplateClass} {site : Site} {before after : Estate}

/-- What a creation has put in place is what its status records. -/
structure Furnished (site : Site) (t : TemplateClass) (before : Estate) (status : Status)
    (es : List Installation) (after : Estate) : Prop where
  image : status.imageId = some t.imageFile
  zones : status.zones = es.map Installation.render
  names : ∀ e ∈ es, Installation.Name e.region ∧ Installation.Name e.zone
  placed : Placed site t before es after

theorem create_furnished {trace : Trace} {status : Status}
    (h : (t.create settings).run.Yields trace (.ok status)) (hnew : t.status = none)
    (hnames : Named t site.facts) (hlimit : site.limit ≤ settings.taskPatience.timeout)
    (hidle : before.running = []) (hserves : site.Serves before trace after) :
    ∃ es, Furnished site t before status es after := by
  obtain ⟨asked, regions, toured, os, written, rfl, hasked, htoured, hend⟩ := create_installs h
  obtain ⟨mid, hbefore, hlater⟩ := Site.serves_append.1 hserves
  obtain ⟨mid', htour, hafter⟩ := Site.serves_append.1 hlater
  have hregions := targetRegions_told t _ _ hasked site.facts hbefore.tells
  have hquiet : t.targetRegions.Only fun c => c.idle = true := t.targetRegions_only rfl
  obtain rfl := hquiet.leads _ _ hasked mid hbefore
  cases hend with
  | installed _ hfaults =>
    obtain ⟨_, hwrite, rfl⟩ := hafter
    obtain rfl := hwrite.eq_of_idle rfl
    have hplaced := htoured.placed hfaults hlimit (.refl hidle) htour
    have hplaces := htoured.named hnames htour.tells (hregions ▸ hnames.regionsTold)
    refine ⟨lasting (Outcome.installations os), rfl, ?_,
      fun e he => hplaces e (mem_of_mem_lasting he), hplaced.of_lasting⟩
    unfold statusAfter
    rw [foldl_recordEntry, currentStatus, hnew]
    rfl

end TemplateClass
end NodeProvisioner
