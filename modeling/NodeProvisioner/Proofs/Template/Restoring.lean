import NodeProvisioner.Proofs.Template.Placing
import NodeProvisioner.Proofs.Template.Removing
import NodeProvisioner.Proofs.World.Depot

/-! Creating a template class and deleting it again, on hypervisors on which all goes well. The
machines that the status records are gone then, and so are the images in their zones; all else is as
it was before. -/
namespace NodeProvisioner

/-- Some cells have been emptied, and all others are as they were. -/
structure Emptied (emptied : Cell → Prop) (w w' : Estate) : Prop where
  idle : w'.running = []
  gone : ∀ c, emptied c → w'.held c = none
  kept : ∀ c, ¬ emptied c → w'.held c = w.held c

namespace Emptied
variable {emptied emptied' : Cell → Prop} {w w' w'' : Estate}

theorem refl (hidle : w.running = []) (h : ∀ c, emptied c → w.held c = none) :
    Emptied emptied w w := ⟨hidle, h, fun _ _ => rfl⟩

theorem put (w : Estate) (c : Cell) : Emptied (· = c) w (w.put c none) where
  idle := rfl
  gone := by
    rintro _ rfl
    exact Function.update_self _ _ _
  kept _ hc := Function.update_of_ne hc _ _

theorem trans (h : Emptied emptied w w') (h' : Emptied emptied' w' w'') :
    Emptied (fun c => emptied c ∨ emptied' c) w w'' where
  idle := h'.idle
  gone c hc := by
    by_cases hlater : emptied' c
    · exact h'.gone c hlater
    · rw [h'.kept c hlater]
      exact h.gone c (hc.resolve_right hlater)
  kept c hc := by
    obtain ⟨hfirst, hlater⟩ := not_or.1 hc
    rw [h'.kept c hlater, h.kept c hfirst]

theorem congr (h : Emptied emptied w w') (hiff : ∀ c, emptied c ↔ emptied' c) :
    Emptied emptied' w w' where
  idle := h.idle
  gone c hc := h.gone c ((hiff c).2 hc)
  kept c hc := h.kept c fun hemptied => hc ((hiff c).1 hemptied)

end Emptied

namespace TemplateClass
open Installing
variable {settings : Settings} {t : TemplateClass} {i : Installation} {site : Site} {w : Estate}

/-! ### Deleting -/

/-- What the removal of an entry empties. -/
def IsEntryCell (site : Site) (ids : List String) (file : String) (i : Installation) (c : Cell) :
    Prop :=
  c = .machine i.region i.machine ∨ IsImageCell site ids file i c

theorem removeMachine_leads (hidle : w.running = [])
    (hlimit : site.limit ≤ settings.taskPatience.timeout) :
    (removeMachine settings i).Leads site w
      (fun _ w' => Emptied (· = .machine i.region i.machine) w w') fun _ => False := by
  refine leads_findMachine.andThen ?_
  rintro found _ ⟨rfl, hfound⟩
  cases found with
  | none =>
    have hfree := Option.map_eq_none_iff.1 hfound.symm
    refine Job.leads_pure (.refl hidle ?_)
    rintro _ rfl
    exact hfree
  | some seen =>
    obtain ⟨tenant, hheld, hzone⟩ := Option.map_eq_some_iff.1 hfound.symm
    refine leads_delete.andThen ?_
    rintro task _ rfl
    -- The machine is deleted where it was seen, so that nothing is left of it.
    have hgone : Option.filter (fun tenant : Tenant => tenant.zone != seen.zone) (some tenant) =
        none := by simp [hzone]
    rw [hheld, hgone]
    refine (Task.leads_succeed (Estate.busy_start hidle _) rfl hlimit).mono ?_ fun _ => id
    rintro _ _ rfl
    exact .put _ _

theorem removeImages_leads {file region zone : String} (storages : List String)
    (hidle : w.running = []) (hlimit : site.limit ≤ settings.taskPatience.timeout) :
    (removeImages settings file region zone storages).Leads site w (fun _ w' =>
      Emptied (fun c => ∃ storage ∈ storages, c = imageCell site region zone storage file) w w')
      fun _ => False := by
  induction storages generalizing w with
  | nil => exact Job.leads_pure (.refl hidle nofun)
  | cons storage storages ih =>
    have hrest {w w' : Estate}
        (hhere : Emptied (· = imageCell site region zone storage file) w w') :
        (removeImages settings file region zone storages).Leads site w' (fun _ w'' =>
          Emptied (fun c => ∃ s ∈ storage :: storages, c = imageCell site region zone s file) w w'')
          fun _ => False := by
      refine (ih hhere.idle).mono (fun _ w'' hlater => ?_) fun _ => id
      refine (hhere.trans hlater).congr fun c => ?_
      simp only [List.mem_cons, exists_eq_or_imp]
    refine leads_listContent.andThen ?_
    rintro present _ ⟨rfl, hpresent⟩
    split
    · refine leads_deleteVolume.andThen ?_
      rintro task _ rfl
      refine (Task.leads_succeed (Estate.busy_start hidle _) rfl hlimit).andThen ?_
      rintro _ _ rfl
      exact hrest (.put _ _)
    · next habsent =>
      refine hrest (.refl hidle ?_)
      rintro _ rfl
      by_contra hheld
      exact habsent (List.contains_iff_mem.2 ((hpresent file).2 hheld))

theorem storagesOf_leads {region : String} (ids : List String) :
    (storagesOf region ids).Leads site w fun storages w' => w' = w ∧
      storages = ids.filterMap fun id => site.facts (.storage region id) := by
  have hidle : (storagesOf region ids).Only fun c => c.idle = true :=
    storagesOf_only (fun _ => rfl) _
  intro trace storages hrun w' hserves
  have htold := storagesOf_told region ids _ _ hrun site.facts hserves.tells
  exact ⟨hidle.leads _ _ hrun w' hserves, htold⟩

theorem removeEntry_leads (hidle : w.running = [])
    (hlimit : site.limit ≤ settings.taskPatience.timeout) :
    (t.removeEntry settings i).Leads site w (fun _ w' =>
      Emptied (IsEntryCell site t.spec.storageIds t.removedImage i) w w') fun _ => False := by
  refine leads_connect.andThen ?_
  rintro _ _ rfl
  refine withZone_leads ((removeMachine_leads hidle hlimit).andThen fun _ mid hmachine => ?_)
  refine (Job.leads_lift (storagesOf_leads _)).andThen ?_
  rintro _ _ ⟨rfl, rfl⟩
  refine (removeImages_leads _ hmachine.idle hlimit).mono (fun _ w' himages => ?_) fun _ => id
  refine (hmachine.trans himages).congr fun c => or_congr Iff.rfl ?_
  simp only [mem_importStoragesInZone, IsImageCell]
  constructor
  · rintro ⟨_, ⟨storage, hstorage, rfl⟩, hcell⟩
    exact ⟨storage, hstorage, hcell⟩
  · rintro ⟨storage, hstorage, hcell⟩
    exact ⟨_, ⟨storage, hstorage, rfl⟩, hcell⟩

theorem forEach_leads (es : List Installation)
    (hnames : ∀ e ∈ es, Installation.Name e.region ∧ Installation.Name e.zone)
    (hidle : w.running = []) (hlimit : site.limit ≤ settings.taskPatience.timeout) :
    (EntryOutcome.forEach (t.removeEntry settings) (es.map Installation.render)).Leads site w
      fun os w' => EntryOutcome.faults os = [] ∧ Emptied (fun c => ∃ e ∈ es,
        IsEntryCell site t.spec.storageIds t.removedImage e c) w w' := by
  induction es generalizing w with
  | nil => exact Plan.leads_pure ⟨rfl, .refl hidle nofun⟩
  | cons e es ih =>
    obtain ⟨⟨hregion, hzone⟩, hlater⟩ := List.forall_mem_cons.1 hnames
    have hparse : Installation.parse e.render = .ok e := by
      rw [Installation.parse, Installation.parse?_render hregion hzone]
    refine Plan.Leads.bind ?_
    unfold EntryOutcome.of
    rw [hparse]
    refine Plan.Leads.bind ((removeEntry_leads hidle hlimit).run_ok.mono ?_)
    rintro _ mid ⟨_, rfl, hhere⟩
    refine Plan.leads_pure (Plan.Leads.bind ((ih hlater hhere.idle).mono ?_))
    rintro os w' ⟨hfaults, hrest⟩
    refine Plan.leads_pure ⟨by simpa [EntryOutcome.faults] using hfaults, ?_⟩
    refine (hhere.trans hrest).congr fun c => ?_
    simp only [List.mem_cons, exists_eq_or_imp]

theorem delete_leads {es : List Installation} (hzones : t.currentStatus.zones =
      es.map Installation.render)
    (hnames : ∀ e ∈ es, Installation.Name e.region ∧ Installation.Name e.zone)
    (hidle : w.running = []) (hlimit : site.limit ≤ settings.taskPatience.timeout) :
    (t.delete settings).Leads site w (fun _ w' => Emptied (fun c => ∃ e ∈ es,
      IsEntryCell site t.spec.storageIds t.removedImage e c) w w') fun _ => False := by
  unfold delete
  rw [hzones]
  refine (Job.leads_lift (forEach_leads es hnames hidle hlimit)).andThen ?_
  rintro os mid ⟨hfaults, hemptied⟩
  refine leads_writeStatus.andThen ?_
  rintro _ _ rfl
  have hregion (region : String) : (Sync.region region).Only fun c => c.idle = true :=
    Sync.region_only (fun _ _ => rfl) (fun _ => rfl) rfl rfl fun _ => rfl
  refine (Job.leads_lift (renew_only hregion _).leads).andThen ?_
  rintro _ _ rfl
  rw [hfaults]
  exact Job.leads_pure hemptied

/-! ### Creating and deleting -/

def Status.Records (status : Status) (i : Installation) : Prop :=
  ∃ entry ∈ status.zones, Installation.parse? entry = some i

/-- Nothing is left of what a status records, and all else is as it was before. -/
structure Restored (site : Site) (t : TemplateClass) (status : Status) (before after : Estate) :
    Prop where
  readable : ∀ entry ∈ status.zones, ∃ i, Installation.parse? entry = some i
  machines : ∀ i, status.Records i → after.held (.machine i.region i.machine) = none
  images : ∀ i, status.Records i → ∀ storage, ImportStorage site t.spec.storageIds i storage →
    after.held (imageCell site i.region i.zone storage.id t.imageFile) = none
  others : ∀ c, (∀ i, status.Records i → ¬ IsEntryCell site t.spec.storageIds t.imageFile i c) →
    after.held c = before.held c
  /-- A recorded machine that is older than the status was a template of the class. -/
  former : ∀ i, status.Records i → ∀ tenant,
    before.held (.machine i.region i.machine) = some tenant →
      tenant.IsTemplate t.displayName i.zone

section furnished
variable {before between after : Estate} {status : Status} {es : List Installation}

theorem Furnished.records_iff (h : Furnished site t before status es between)
    (i : Installation) : status.Records i ↔ i ∈ es := by
  have hparse {e : Installation} (he : e ∈ es) : Installation.parse? e.render = some e :=
    Installation.parse?_render (h.names e he).1 (h.names e he).2
  unfold Status.Records
  rw [h.zones]
  constructor
  · rintro ⟨_, hentry, hparsed⟩
    obtain ⟨e, he, rfl⟩ := List.mem_map.1 hentry
    rw [hparse he] at hparsed
    cases hparsed
    exact he
  · intro hi
    exact ⟨i.render, List.mem_map_of_mem hi, hparse hi⟩

theorem Furnished.kept (h : Furnished site t before status es between) {c : Cell}
    (hc : ¬ ∃ e ∈ es, IsEntryCell site t.spec.storageIds t.imageFile e c) :
    between.held c = before.held c := by
  cases c with
  | machine region id =>
    rcases h.placed.machines region id with hsame | ⟨-, e, he, rfl, rfl, -⟩
    · exact hsame
    · exact absurd ⟨e, he, .inl rfl⟩ hc
  | volume region place name =>
    rcases h.placed.volumes region place name with hsame | ⟨e, he, himage⟩
    · exact hsame
    · exact absurd ⟨e, he, .inr himage⟩ hc

theorem Furnished.restored (h : Furnished site t before status es between)
    (hemptied : Emptied (fun c => ∃ e ∈ es, IsEntryCell site t.spec.storageIds t.imageFile e c)
      between after) : Restored site t status before after where
  readable entry hentry := by
    rw [h.zones] at hentry
    obtain ⟨e, he, rfl⟩ := List.mem_map.1 hentry
    exact ⟨e, Installation.parse?_render (h.names e he).1 (h.names e he).2⟩
  machines i hi := hemptied.gone _ ⟨i, (h.records_iff i).1 hi, .inl rfl⟩
  images i hi storage hstorage :=
    hemptied.gone _ ⟨i, (h.records_iff i).1 hi, .inr ⟨storage, hstorage, rfl⟩⟩
  others c hc := by
    have hnone : ¬ ∃ e ∈ es, IsEntryCell site t.spec.storageIds t.imageFile e c :=
      fun ⟨e, he, hcell⟩ => hc e ((h.records_iff e).2 he) hcell
    rw [hemptied.kept c hnone, h.kept hnone]
  former i hi tenant hbefore := by
    obtain ⟨tenant', hbetween, htemplate⟩ := h.placed.present i ((h.records_iff i).1 hi)
    rcases h.placed.machines i.region i.machine with hsame | ⟨hfree, -⟩
    · rw [hsame, hbefore] at hbetween
      cases hbetween
      exact htemplate
    · rw [hfree] at hbefore
      cases hbefore

end furnished

/-- Where all goes well, deleting a class that carries the status of its creation succeeds. It takes
away what the creation has put in place, and leaves what was there before, but for a template of the
class in its zone and for the image. -/
theorem delete_restores {again : TemplateClass} {before between after : Estate}
    {first second : Trace} {status : Status} {r : Except Fault Unit} (hnew : t.status = none)
    (hnames : Named t site.facts) (hlimit : site.limit ≤ settings.taskPatience.timeout)
    (hidle : before.running = []) (hcreate : (t.create settings).run.Yields first (.ok status))
    (hfirst : site.Serves before first between) (hcarries : again.status = some status)
    (hids : again.spec.storageIds = t.spec.storageIds)
    (hdelete : (again.delete settings).run.Yields second r)
    (hsecond : site.Serves between second after) :
    r = .ok () ∧ Restored site t status before after := by
  obtain ⟨es, hfurnished⟩ := create_furnished hcreate hnew hnames hlimit hidle hfirst
  have hcurrent : again.currentStatus = status := by rw [currentStatus, hcarries]; rfl
  have hfile : again.removedImage = t.imageFile := by
    rw [removedImage, hcurrent, hfurnished.image]
    rfl
  have hzones : again.currentStatus.zones = es.map Installation.render := by
    rw [hcurrent, hfurnished.zones]
  obtain ⟨_, hr, hemptied⟩ := (delete_leads hzones hfurnished.names hfurnished.placed.idle
    hlimit).run_ok second r hdelete after hsecond
  rw [hids, hfile] at hemptied
  exact ⟨hr, hfurnished.restored hemptied⟩

/-- Images come through a storage that two zones share, and disks lie in each zone by itself. -/
def twoZones : Site where
  facts
    | .storage _ id => some { id, content := if id = "nfs" then ["import"] else ["images"]
                              zones := ["z1", "z2"] }
    | q => Call.grant (.ask q)
  home _ zone volume := if volume.startsWith "nfs:" then "" else zone
  limit := 60 * Span.second

def nobleOnNfs (status : Option Status) : TemplateClass :=
  { noble with spec := { noble.spec with storageIds := ["nfs", "local"] }, status }

/-- A node in one zone, a template of the class in the other one, and another image. -/
def oneTemplateThere : Depot :=
  let node := Depot.empty.put (.machine "r1" 1000) (some ⟨"z1", .ofList [("name", "node-a")]⟩)
  let template := node.put (.machine "r1" 9001)
    (some ⟨"z2", .ofList [("name", "noble"), ("template", "1")]⟩)
  template.put (.volume "r1" "" "nfs:import/debian.raw") (some "https://images/debian.raw")

theorem named_twoZones : Named (nobleOnNfs none) twoZones.facts where
  region := nofun
  regions := by
    intro region hregion
    obtain rfl := List.mem_singleton.1 hregion
    exact ⟨by decide, by decide⟩
  zones := by
    rintro region id _ ⟨⟩ zone hzone
    rcases List.mem_pair.1 hzone with rfl | rfl
    · exact ⟨by decide, by decide⟩
    · exact ⟨by decide, by decide⟩

theorem answers_of_uninstalls {c : Call} (h : c.uninstalls = true) : Depot.answers c = true := by
  rcases c with _ | ⟨_, r⟩ | _ | _ | _ | _ | _ | _ | _ | c
  case hypervisor => cases r <;> first | rfl | cases h
  case circumstance => cases c <;> first | rfl | cases h
  all_goals first | rfl | cases h

theorem delete_answered : (t.delete settings).Only fun c => Depot.answers c = true :=
  delete_only (fun _ h => answers_of_uninstalls h.kind) (fun _ => rfl) fun _ =>
    Sync.region_only (fun _ _ => rfl) (fun _ => rfl) rfl rfl fun _ => rfl

theorem delete_restores_twoZones : ∃ first second between after status,
    ((nobleOnNfs none).create {}).run.Yields first (.ok status) ∧
    twoZones.Serves oneTemplateThere.estate first between ∧
    status.zones = ["r1/z1/1001", "r1/z2/9001"] ∧
    between.held (.machine "r1" 1001) ≠ none ∧
    ((nobleOnNfs (some status)).delete {}).run.Yields second (.ok ()) ∧
    twoZones.Serves between second after ∧
    Restored twoZones (nobleOnNfs none) status oneTemplateThere.estate after := by
  obtain ⟨first, status, between, hcreate, hfirst, hgood⟩ := Job.serves_of_playIn twoZones
    oneTemplateThere ((nobleOnNfs none).create {}) (fun status between =>
      status.zones == ["r1/z1/1001", "r1/z2/9001"] &&
      (between.estate.held (.machine "r1" 1001)).isSome) (by decide +kernel)
  obtain ⟨hzones, hmachine⟩ := Bool.and_eq_true_iff.1 hgood
  have hanswered : ((nobleOnNfs (some status)).delete {}).Only fun c => Depot.answers c = true :=
    delete_answered
  obtain ⟨second, r, after, hdeleted⟩ := Plan.Only.playIn hanswered twoZones between
  obtain ⟨hdelete, hsecond⟩ := Plan.serves_of_playIn hdeleted
  have hcarries : (nobleOnNfs (some status)).status = some status := rfl
  obtain ⟨rfl, hrestored⟩ := delete_restores rfl named_twoZones (by decide) rfl hcreate hfirst
    hcarries rfl hdelete hsecond
  exact ⟨first, second, _, _, status, hcreate, hfirst, beq_iff_eq.1 hzones,
    Option.isSome_iff_ne_none.1 hmachine, hdelete, hsecond, hrestored⟩

end TemplateClass
end NodeProvisioner
