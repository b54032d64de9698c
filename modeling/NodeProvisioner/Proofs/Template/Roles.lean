import NodeProvisioner.Proofs.Template.InPlace

/-! Through which storages a class is installed in a region, and in which zones. Each role falls to
the first listed storage that can fill it, and the zones are those that reach both storages. When a
zone is cleared, the storage that received the image is among those that are searched. -/
namespace NodeProvisioner

def Facts.storages (facts : Facts) (region : String) : String → Option Storage :=
  fun id => facts (.storage region id)

/-- Some zone reaches the storage, and it takes the content. -/
structure Storage.Fills (s : Storage) (content : String) : Prop where
  reached : s.zones ≠ []
  takes : content ∈ s.content

namespace StorageRoles

/-- Of the storages that are known under the listed ids, the first that can fill a role. -/
def First (known : String → Option Storage) (ids : List String) (content : String)
    (s : Storage) : Prop :=
  ∃ before id after, ids = before ++ id :: after ∧ known id = some s ∧ s.Fills content ∧
    ∀ earlier ∈ before, ∀ s', known earlier = some s' → ¬ s'.Fills content

def Unfilled (known : String → Option Storage) (ids : List String) (content : String) : Prop :=
  ∀ id ∈ ids, ∀ s, known id = some s → ¬ s.Fills content

/-- The roles and zones that fall to the listed storages. -/
structure Assigned (known : String → Option Storage) (ids : List String) (roles : StorageRoles) :
    Prop where
  imports : First known ids "import" roles.imports
  images : First known ids "images" roles.images
  nonempty : roles.zones ≠ []
  reached : ∀ zone ∈ roles.zones, zone ∈ roles.imports.zones ∧ zone ∈ roles.images.zones
  ordered : roles.zones.Sublist roles.images.zones
  /-- Disks that are kept apart need a template machine in every zone that reaches both storages. -/
  apart : roles.images.shared = false →
    roles.zones = roles.images.zones.filter (· ∈ roles.imports.zones)
  /-- Disks that are shared need one, in the first of these zones. -/
  shared : roles.images.shared = true → ∃ zone others,
    roles.images.zones.filter (· ∈ roles.imports.zones) = zone :: others ∧ roles.zones = [zone]

/-- A role stays unfilled, or the storages that fill the roles have no zone in common. -/
def Unassigned (known : String → Option Storage) (ids : List String) : Prop :=
  Unfilled known ids "import" ∨ Unfilled known ids "images" ∨ ∃ imports images,
    First known ids "import" imports ∧ First known ids "images" images ∧
      ∀ zone ∈ images.zones, zone ∉ imports.zones

variable {known : String → Option Storage} {ids : List String} {content : String} {s : Storage}

theorem fills_iff : (!s.zones.isEmpty && s.supports content) = true ↔ s.Fills content := by
  simp only [Bool.and_eq_true, Bool.not_eq_true', List.isEmpty_eq_false_iff, Storage.supports,
    List.contains_iff_mem]
  exact ⟨fun ⟨hreached, htakes⟩ => ⟨hreached, htakes⟩, fun h => ⟨h.reached, h.takes⟩⟩

theorem choose?_eq_some_iff :
    choose? (ids.filterMap known) content = some s ↔ First known ids content s := by
  have hany (id : String) : ((known id).any fun s => !s.zones.isEmpty && s.supports content) =
      true ↔ ∃ s, known id = some s ∧ s.Fills content := by
    simp only [Option.any_eq_true, fills_iff]
  unfold choose? First
  simp only [List.find?_filterMap, Option.bind_eq_some_iff, List.find?_eq_some_iff_append, hany]
  constructor
  · rintro ⟨id, ⟨⟨s', hs', hfills⟩, before, after, hids, hbefore⟩, hs⟩
    obtain rfl : s = s' := Option.some.inj (hs.symm.trans hs')
    refine ⟨before, id, after, hids, hs, hfills, fun earlier hmem s' hs' hfills' => ?_⟩
    have hnot := hbefore earlier hmem
    rw [Bool.not_eq_true', Bool.eq_false_iff] at hnot
    exact hnot ((hany earlier).2 ⟨s', hs', hfills'⟩)
  · rintro ⟨before, id, after, hids, hs, hfills, hbefore⟩
    refine ⟨id, ⟨⟨s, hs, hfills⟩, before, after, hids, fun earlier hmem => ?_⟩, hs⟩
    rw [Bool.not_eq_true', Bool.eq_false_iff]
    intro hfits
    obtain ⟨s', hs', hfills'⟩ := (hany earlier).1 hfits
    exact hbefore earlier hmem s' hs' hfills'

theorem choose?_eq_none_iff :
    choose? (ids.filterMap known) content = none ↔ Unfilled known ids content := by
  unfold choose? Unfilled
  simp only [List.find?_eq_none, List.mem_filterMap, fills_iff]
  constructor
  · exact fun h id hid s hs => h s ⟨id, hid, hs⟩
  · rintro h s ⟨id, hid, hs⟩
    exact h id hid s hs

theorem First.mem (h : First known ids content s) : s ∈ ids.filterMap known := by
  obtain ⟨before, id, after, rfl, hs, -⟩ := h
  exact List.mem_filterMap.2 ⟨id, by simp, hs⟩

theorem First.not_unfilled (h : First known ids content s) : ¬ Unfilled known ids content := by
  obtain ⟨before, id, after, rfl, hs, hfills, -⟩ := h
  exact fun hunfilled => hunfilled id (by simp) s hs hfills

theorem First.unique {s' : Storage} (h : First known ids content s)
    (h' : First known ids content s') : s' = s :=
  Option.some.inj ((choose?_eq_some_iff.2 h').symm.trans (choose?_eq_some_iff.2 h))

theorem common_eq (imports images : Storage) :
    images.zones.filter imports.zones.contains = images.zones.filter (· ∈ imports.zones) :=
  List.filter_congr fun zone _ => List.contains_eq_mem zone imports.zones

theorem assigned_of_common {imports images : Storage} {zone : String} {others : List String}
    (himports : First known ids "import" imports) (himages : First known ids "images" images)
    (h : images.zones.filter (· ∈ imports.zones) = zone :: others) :
    Assigned known ids
      { imports, images, zones := if images.shared then [zone] else zone :: others } := by
  have hsub : (if images.shared then [zone] else zone :: others).Sublist (zone :: others) := by
    split
    · exact List.singleton_sublist.2 List.mem_cons_self
    · exact List.Sublist.refl _
  have hcommon : ∀ z ∈ zone :: others, z ∈ imports.zones ∧ z ∈ images.zones := by
    intro z hz
    rw [← h] at hz
    obtain ⟨himage, himport⟩ := List.mem_filter.1 hz
    exact ⟨of_decide_eq_true himport, himage⟩
  refine ⟨himports, himages, ?_, fun z hz => hcommon z (hsub.mem hz), ?_, ?_, ?_⟩
  · dsimp only
    split <;> exact List.cons_ne_nil _ _
  · exact hsub.trans (h ▸ List.filter_sublist)
  · intro hshared
    rw [h]
    exact if_neg (by simpa using hshared)
  · intro hshared
    exact ⟨zone, others, h, if_pos hshared⟩

theorem resolve_cases (known : String → Option Storage) (ids : List String) :
    (∃ roles, resolve ids (ids.filterMap known) = .ok roles ∧ Assigned known ids roles ∧
      ¬ Unassigned known ids) ∨
    ∃ e, resolve ids (ids.filterMap known) = .error e ∧ Unassigned known ids := by
  unfold resolve
  cases himports : choose? (ids.filterMap known) Image.importContent with
  | none => exact .inr ⟨_, rfl, .inl (choose?_eq_none_iff.1 himports)⟩
  | some imports =>
  cases himages : choose? (ids.filterMap known) Image.imagesContent with
  | none => exact .inr ⟨_, rfl, .inr (.inl (choose?_eq_none_iff.1 himages))⟩
  | some images =>
  have hfirst : First known ids "import" imports := choose?_eq_some_iff.1 himports
  have hfirst' : First known ids "images" images := choose?_eq_some_iff.1 himages
  dsimp only
  rw [common_eq]
  cases hcommon : images.zones.filter (· ∈ imports.zones) with
  | nil =>
    refine .inr ⟨_, rfl, .inr (.inr ⟨imports, images, hfirst, hfirst', fun zone hzone => ?_⟩)⟩
    simpa using List.filter_eq_nil_iff.1 hcommon zone hzone
  | cons zone others =>
    refine .inl ⟨_, rfl, assigned_of_common hfirst hfirst' hcommon, ?_⟩
    rintro (h | h | ⟨imports', images', h, h', hdisjoint⟩)
    · exact hfirst.not_unfilled h
    · exact hfirst'.not_unfilled h
    · obtain rfl := hfirst.unique h
      obtain rfl := hfirst'.unique h'
      have hzone : zone ∈ images'.zones.filter (· ∈ imports'.zones) :=
        hcommon ▸ List.mem_cons_self
      obtain ⟨himage, himport⟩ := List.mem_filter.1 hzone
      exact hdisjoint zone himage (of_decide_eq_true himport)

theorem Assigned.mem_importStoragesInZone {roles : StorageRoles} (h : Assigned known ids roles)
    {zone : String} (hzone : zone ∈ roles.zones) :
    roles.imports.id ∈ importStoragesInZone zone (ids.filterMap known) := by
  have htakes : roles.imports.supports Image.importContent = true := by
    obtain ⟨_, _, _, -, -, hfills, -⟩ := h.imports
    exact List.contains_iff_mem.2 hfills.takes
  have hreached := List.contains_iff_mem.2 (h.reached zone hzone).1
  refine List.mem_map_of_mem (List.mem_filter.2 ⟨h.imports.mem, ?_⟩)
  rw [htakes, hreached]
  rfl

end StorageRoles

namespace Installing
variable {t : TemplateClass} {region : String} {roles : StorageRoles} {facts : Facts}

def rolesTold (t : TemplateClass) (facts : Facts) (region : String) : Except Fault StorageRoles :=
  (StorageRoles.resolve t.spec.storageIds
    (t.spec.storageIds.filterMap fun id => facts (.storage region id))).mapError (·.fault region)

theorem storagesOf_told (region : String) (ids : List String) :
    (TemplateClass.storagesOf region ids).Ensures fun trace storages =>
      ∀ facts, trace.Tells facts →
        storages = ids.filterMap fun id => facts (.storage region id) := by
  induction ids with
  | nil => exact (Plan.ensures_pure _ _).2 fun _ _ => rfl
  | cons id rest ih =>
    refine (Plan.ensures_bind _ _ _).2
      ((Plan.ensures_perform (.ask (.storage region id)) _).2 fun found => ?_)
    refine (Plan.ensures_bind _ _ _).2 (ih.mono fun trace storages hrest => ?_)
    refine (Plan.ensures_pure _ _).2 fun facts htells => ?_
    have hfound := htells (.storage region id) found List.mem_cons_self
    have hstorages := hrest facts (htells.of_sublist
      ((List.sublist_append_left _ _).trans (List.sublist_cons_self _ _)))
    rw [hstorages, hfound]
    cases hfact : facts (.storage region id) <;> simp [hfact]

theorem rolesIn_told (t : TemplateClass) (region : String) :
    (t.rolesIn region).Ensures fun trace r =>
      ∀ facts, trace.Tells facts → r = rolesTold t facts region := by
  refine (Job.ensures_bind _ _ _).2 ((Job.ensures_lift _ _).2
    ((storagesOf_told region _).mono fun trace storages h => ?_))
  refine (Job.ensures_ofExcept _ _).2 fun facts htells => ?_
  rw [List.append_nil] at htells
  rw [h facts htells, rolesTold]

theorem rolesTold_cases (t : TemplateClass) (facts : Facts) (region : String) :
    (∃ roles, rolesTold t facts region = .ok roles ∧
      StorageRoles.Assigned (facts.storages region) t.spec.storageIds roles ∧
      ¬ StorageRoles.Unassigned (facts.storages region) t.spec.storageIds) ∨
    ∃ e, rolesTold t facts region = .error e ∧
      StorageRoles.Unassigned (facts.storages region) t.spec.storageIds := by
  unfold rolesTold Facts.storages
  rcases StorageRoles.resolve_cases (fun id => facts (.storage region id)) t.spec.storageIds with
    ⟨roles, hroles, hassigned⟩ | ⟨e, he, himpossible⟩
  · rw [hroles]
    exact .inl ⟨roles, rfl, hassigned⟩
  · rw [he]
    exact .inr ⟨_, rfl, himpossible⟩

theorem assigned_of_rolesTold (h : rolesTold t facts region = .ok roles) :
    StorageRoles.Assigned (facts.storages region) t.spec.storageIds roles := by
  rcases rolesTold_cases t facts region with ⟨_, hroles, hassigned, -⟩ | ⟨_, he, -⟩
  · cases hroles.symm.trans h
    exact hassigned
  · cases he.symm.trans h

end Installing

namespace TemplateClass
open StorageRoles

/-- The storages of a class are assigned in a region whenever that is possible. Where they are, a
removal that is told the same looks for the image on the storage that has received it. -/
theorem rolesIn_assigns {t : TemplateClass} {region : String} {facts : Facts} {trace : Trace}
    {r : Except Fault StorageRoles} (h : (t.rolesIn region).run.Yields trace r)
    (htells : trace.Tells facts) :
    (∀ roles, r = .ok roles → Assigned (facts.storages region) t.spec.storageIds roles ∧
      ∀ zone ∈ roles.zones, ∀ asked storages,
        (storagesOf region t.spec.storageIds).Yields asked storages → asked.Tells facts →
          roles.imports.id ∈ importStoragesInZone zone storages) ∧
    ((∃ e, r = .error e) ↔ Unassigned (facts.storages region) t.spec.storageIds) := by
  rw [Installing.rolesIn_told t region trace r h facts htells]
  rcases Installing.rolesTold_cases t facts region with
    ⟨roles, hroles, hassigned, hpossible⟩ | ⟨e, he, himpossible⟩
  · rw [hroles]
    constructor
    · rintro _ ⟨⟩
      refine ⟨hassigned, fun zone hzone asked storages hasked htold => ?_⟩
      rw [Installing.storagesOf_told region _ asked storages hasked facts htold]
      exact hassigned.mem_importStoragesInZone hzone
    · refine iff_of_false ?_ hpossible
      rintro ⟨_, ⟨⟩⟩
  · rw [he]
    exact ⟨nofun, fun _ => himpossible, fun _ => ⟨_, rfl⟩⟩

/-- Of the listed storages one is not known, and one is reached by no zone. The others are a shared
one for disks, listed twice, and one for images, which fewer zones reach. -/
def sharedDisks : Facts
  | .storage _ "idle" => some { id := "idle", content := ["import", "images"] }
  | .storage _ "disks" =>
    some { id := "disks", content := ["images"], zones := ["z1", "z2", "z3"], shared := true }
  | .storage _ "downloads" =>
    some { id := "downloads", content := ["import"], zones := ["z3", "z2"] }
  | q => Call.grant (.ask q)

def nobleShared : TemplateClass :=
  { noble with spec.storageIds := ["lost", "idle", "disks", "downloads", "disks"] }

def sharedDisksOnly : (c : Call) → c.Reply
  | .ask q => sharedDisks q
  | c => c.grant

theorem rolesIn_assigns_sharedDisks : ∃ trace roles asked storages,
    (nobleShared.rolesIn "r1").run.Yields trace (.ok roles) ∧ trace.Tells sharedDisks ∧
    (storagesOf "r1" nobleShared.spec.storageIds).Yields asked storages ∧
    asked.Tells sharedDisks ∧ roles.zones = ["z2"] ∧
    Assigned (sharedDisks.storages "r1") nobleShared.spec.storageIds roles ∧
    roles.imports.id ∈ importStoragesInZone "z2" storages ∧
    ¬ Unassigned (sharedDisks.storages "r1") nobleShared.spec.storageIds := by
  obtain ⟨trace, roles, hrun, hgood, hreplies⟩ := Job.yields_of_replies sharedDisksOnly
    (nobleShared.rolesIn "r1") (fun _ roles => roles.zones == ["z2"]) (by decide +kernel)
  have hasked := Plan.yields_play (fun _ => sharedDisksOnly) []
    (storagesOf "r1" nobleShared.spec.storageIds)
  have htold : Trace.Tells _ sharedDisks := fun q _ => Plan.reply_of_mem_play sharedDisksOnly []
    (storagesOf "r1" nobleShared.spec.storageIds) ⟨.ask q, _⟩
  have htells : trace.Tells sharedDisks := fun q _ => hreplies ⟨.ask q, _⟩
  have hzones := eq_of_beq hgood
  have hzone : "z2" ∈ roles.zones := hzones ▸ List.mem_cons_self
  obtain ⟨hassigned, hfails⟩ := rolesIn_assigns hrun htells
  obtain ⟨hroles, hsearched⟩ := hassigned roles rfl
  refine ⟨trace, roles, _, _, hrun, htells, hasked, htold, hzones, hroles,
    hsearched "z2" hzone _ _ hasked htold, fun himpossible => ?_⟩
  obtain ⟨e, he⟩ := hfails.2 himpossible
  cases he

end TemplateClass
end NodeProvisioner
