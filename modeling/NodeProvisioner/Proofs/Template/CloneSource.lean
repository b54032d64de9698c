import NodeProvisioner.Proofs.Machine.Booting
import NodeProvisioner.Proofs.Template.Declaring
import NodeProvisioner.Proofs.Template.Renewing

/-! A new template machine is one that the inventory offers for cloning, whatever its class
declares. -/
namespace NodeProvisioner

open Setting (Place)

namespace KeySet
variable {s : KeySet String} {a : String}

theorem toList_eq_singleton (h : ∀ id, id ∈ s.toList ↔ id = a) : s.toList = [a] := by
  have hentries : s.entries = [(a, ())] := by
    refine KeyMap.entries_eq (List.pairwise_singleton _ _) fun e => ?_
    rw [← KeyMap.mem_entries, List.mem_singleton]
    constructor
    · rintro rfl
      exact mem_toList.1 ((h a).2 rfl)
    · intro he
      exact Prod.ext ((h e.1).1 (mem_toList.2 he)) rfl
  rw [toList, KeyMap.keys, hentries]
  rfl

end KeySet

theorem Text.infix_append_cons {part a b : List Char} {sep : Char} (hsep : sep ∉ part)
    (h : part <:+: a ++ sep :: b) : part <:+: a ∨ part <:+: b := by
  have hnothing {start : List Char} (hstart : start <+: sep :: b) (hnot : sep ∉ start) :
      start = [] := by
    rcases List.prefix_cons_iff.1 hstart with hnil | ⟨rest, rfl, -⟩
    · exact hnil
    · exact absurd List.mem_cons_self hnot
  rcases List.infix_append_iff.1 h with ha | hb | ⟨left, right, rfl, hleft, hright⟩
  · exact .inl ha
  · rcases List.infix_cons_iff.1 hb with hstart | hb
    · rw [hnothing hstart hsep]
      exact .inl List.nil_infix
    · exact .inr hb
  · rw [hnothing hright fun hmem => hsep (List.mem_append_right _ hmem), List.append_nil]
    exact .inl hleft.isInfix

namespace Blueprint
variable {spec : TemplateClass.Spec} {cls file k v : String} {roles : StorageRoles} {m : Machine}

theorem Sets.not_isDiskSlot (h : Sets spec k v) : Setting.isDiskSlot k = false := by
  refine Bool.eq_false_iff.2 fun hslot => ?_
  have hplace := Place.ofKey_disk hslot
  cases h with
  | nic _ =>
    rw [ofKey_net] at hplace
    split at hplace <;> cases hplace
  | passthrough _ =>
    rw [ofKey_hostpci] at hplace
    split at hplace <;> cases hplace
  | machine _ | agent _ | cpu _ | vga _ | tags => cases hplace

theorem slot_cases (h : (options cls spec roles file).set.get? k = some v)
    (hslot : Setting.isDiskSlot k = true) : k = bootSlot ∨ k = "ide2" := by
  have hfixed : ∀ k ∈ fixedKeys, Setting.isDiskSlot k = true → k = bootSlot ∨ k = "ide2" := by
    decide
  rcases fixed_or_sets_of_get? h with hmem | hsets
  · have hk : k ∈ (fixedOptions cls roles file).map (·.1) := List.mem_map_of_mem hmem
    exact hfixed k hk hslot
  · rw [hsets.not_isDiskSlot] at hslot
    cases hslot

theorem count_tags (spec : TemplateClass.Spec) : (tags spec).count templateTag = 1 := by
  have hothers : templateTag ∉ spec.tags.filter (· != templateTag) := by simp
  rw [tags, List.count_cons_self, List.count_eq_zero_of_not_mem hothers]

theorem get?_tags : (options cls spec roles file).set.get? "tags" =
    some (Setting.writeTags (tags spec)) := by
  rw [get?_options, mutableChange, Change.get?_put, if_pos rfl]
  rfl

theorem get?_lock : (options cls spec roles file).set.get? "lock" = none := by
  have hfixed : "lock" ∉ (fixedOptions cls roles file).map (·.1) := by
    have hkeys : "lock" ∉ fixedKeys := by decide
    exact hkeys
  rw [get?_options, get?_mutableChange_eq_none spec (by decide) (by decide) (by decide),
    Change.get?_putAll_of_not_mem hfixed]
  rfl

theorem storageId?_bootDisk (hnamed : Named roles file) (hcolon : ':' ∉ roles.images.id.toList) :
    (bootDisk roles file).storageId? = some roles.images.id := by
  have hcut : Text.cut? ':' (roles.images.id ++ ":" ++ "0") = some (roles.images.id, "0") :=
    Text.cut?_append rfl hcolon
  have hvolume : (bootDisk roles file).volume = roles.images.id ++ ":" ++ "0" := by
    rw [String.append_assoc]
    rfl
  simp [Disk.storageId?, hvolume, hcut, hnamed.images.nonempty]

theorem isCloudInit_bootDisk
    (hcloud : Text.includes "cloudinit".toList roles.images.id.toList = false) :
    (bootDisk roles file).isCloudInit = false := by
  refine Bool.eq_false_iff.2 fun h => ?_
  have hvolume : (bootDisk roles file).volume.toList = roles.images.id.toList ++ ':' :: ['0'] :=
    String.toList_append
  rw [Disk.isCloudInit, Text.includes_iff, hvolume] at h
  rcases Text.infix_append_cons (by decide) h with hid | hzero
  · rw [← Text.includes_iff, hcloud] at hid
    cases hid
  · exact absurd hzero.length_le (by decide)

theorem isCloudInit_drive (id : String) :
    Disk.isCloudInit { volume := id ++ ":cloudinit" } = true :=
  Text.includes_iff.2 ⟨id.toList ++ [':'], [], by simp⟩

/-- A configuration of which clones can be made: a template with one imported boot disk and a drive
for bootstrap data, on one storage. -/
structure CloneSource (cls : String) (roles : StorageRoles) (file : String) (m : Machine) :
    Prop where
  name : m.name = some cls
  template : m.template = true
  boot : ∃ d, m.bootDisk? = some ("scsi0", d) ∧ d.storageId? = some roles.images.id ∧
    d.options.get? "import-from" = some (roles.imports.id ++ ":import/" ++ file)
  drive : m.hasCloudInitDrive = true
  storages : m.storageIds.toList = [roles.images.id]
  tag : m.tags.count "kpve-template" = 1
  usable : ∀ region seen storage,
    (TemplateEntry.classify region seen m storage).usability = .available ∧
      (TemplateEntry.classify region seen m storage).storageId = some roles.images.id

section reading
variable (hm : Machine.ofOptions (options cls spec roles file).set = .ok m)

include hm

theorem at?_of_fixed {s : Setting} (h : (k, v) ∈ fixedOptions cls roles file)
    (hread : Setting.read k v = .ok s) :
    m.at? (Place.ofKey k) = if s.isGiven then some s else none :=
  Machine.at?_of_standard hm standard_options (get?_options_of_fixed h spec) hread

theorem name_of_options : m.name = some cls := by
  have hat := at?_of_fixed hm (k := "name") (v := cls) (by simp [fixedOptions]) rfl
  obtain ⟨_, hname, heq⟩ := Option.map_eq_some_iff.1 hat
  cases heq
  exact hname

theorem template_of_options : m.template = true := by
  have hat := at?_of_fixed hm (k := "template") (v := "1") (by simp [fixedOptions]) rfl
  cases htemplate : m.template with
  | true => rfl
  | false => simp [Machine.at?, Place.ofKey, Setting.isGiven, htemplate] at hat

theorem tags_of_options (hspec : spec.Worded) : m.tags = tags spec := by
  have htags : ∀ t ∈ tags spec, Setting.Tag t :=
    List.forall_mem_cons.2 ⟨by decide, fun t ht => (hspec.tags t (List.mem_filter.1 ht).1).tag⟩
  have hread : Setting.read "tags" (Setting.writeTags (tags spec)) = .ok (.tags (tags spec)) :=
    congrArg (Except.ok <| Setting.tags ·) (Setting.readTags_writeTags htags)
  have hat := Machine.at?_of_standard hm standard_options get?_tags hread
  have hgiven : m.at? .tags = some (.tags (tags spec)) := hat
  simp only [Machine.at?] at hgiven
  split at hgiven
  · cases hgiven
  · exact Setting.tags.inj (Option.some.inj hgiven)

theorem boot_of_options : m.other.get? "boot" = some "order=scsi0" :=
  Machine.decides_boot.part_of_get? hm
    (get?_options_of_fixed (v := "order=scsi0") (by simp [fixedOptions, bootSlot]) spec)

theorem lock_of_options : m.other.get? "lock" = none := by
  have hat := Machine.at?_eq_none_of_standard hm standard_options (p := .other "lock") get?_lock
  exact Option.map_eq_none_iff.1 hat

variable (hnamed : Named roles file)

include hnamed

theorem disk_of_options : m.disks.get? bootSlot = some (bootDisk roles file) := by
  have hget := (Machine.decides_disk bootSlot).part_of_get? hm
    (get?_options_of_fixed (v := (bootDisk roles file).render) (by simp [fixedOptions]) spec)
  rwa [Machine.diskOf?, read_bootDisk hnamed] at hget

theorem drive_of_options :
    m.disks.get? "ide2" = some { volume := roles.images.id ++ ":cloudinit" } := by
  have hget := (Machine.decides_disk "ide2").part_of_get? hm
    (get?_options_of_fixed (v := roles.images.id ++ ":cloudinit") (by simp [fixedOptions]) spec)
  rwa [Machine.diskOf?, read_cloudInitDrive hnamed] at hget

theorem disks_of_options {slot : String} {d : Disk} (h : m.disks.get? slot = some d) :
    d = bootDisk roles file ∨ d = { volume := roles.images.id ++ ":cloudinit" } := by
  obtain ⟨value, hget, hdisk⟩ := Machine.exists_option_of_disk hm h
  rcases slot_cases hget (Machine.diskOf?_eq_some hdisk).1 with rfl | rfl
  · exact .inl (Option.some.inj (h.symm.trans (disk_of_options hm hnamed)))
  · exact .inr (Option.some.inj (h.symm.trans (drive_of_options hm hnamed)))

theorem bootDisk?_of_options : m.bootDisk? = some ("scsi0", bootDisk roles file) := by
  have horder : m.bootOrderDisk? = some ("scsi0", bootDisk roles file) := by
    have hafter : Text.after? "order=" "order=scsi0" = some "scsi0" := by decide
    have hpieces : Text.pieces ';' "scsi0" = ["scsi0"] := by decide
    have hdisk : m.disks.get? "scsi0" = some (bootDisk roles file) := disk_of_options hm hnamed
    rw [Machine.bootOrderDisk?_eq, boot_of_options hm, Option.bind_some, hafter, Option.bind_some,
      hpieces]
    simp [hdisk]
  rw [Machine.bootDisk?_eq, horder, Option.some_or]

variable (hcolon : ':' ∉ roles.images.id.toList)
  (hcloud : Text.includes "cloudinit".toList roles.images.id.toList = false)

include hcolon hcloud

/-- The drive for bootstrap data does not count, although it lies there too. -/
theorem liesOn_iff {id : String} : m.LiesOn id ↔ id = roles.images.id := by
  have hstorage := storageId?_bootDisk hnamed hcolon
  constructor
  · rintro ⟨d, hd, -, hplain, hid⟩
    obtain ⟨slot, hslot⟩ := KeyMap.mem_values.1 hd
    rcases disks_of_options hm hnamed hslot with rfl | rfl
    · exact Option.some.inj (hid.symm.trans hstorage)
    · rw [isCloudInit_drive] at hplain
      cases hplain
  · rintro rfl
    have hdisk := KeyMap.mem_values.2 ⟨_, disk_of_options hm hnamed⟩
    exact ⟨_, hdisk, rfl, isCloudInit_bootDisk hcloud, hstorage⟩

theorem cloneSource_of_options (hspec : spec.Worded) : CloneSource cls roles file m := by
  have hstorages : m.storageIds.toList = [roles.images.id] :=
    KeySet.toList_eq_singleton fun id =>
      Machine.mem_storageIds.trans (liesOn_iff hm hnamed hcolon hcloud)
  have hlock : m.other.contains "lock" = false := by
    simp [KeyMap.contains, lock_of_options hm]
  refine {
    name := name_of_options hm
    template := template_of_options hm
    boot := ⟨_, bootDisk?_of_options hm hnamed, storageId?_bootDisk hnamed hcolon, ?_⟩
    drive := ?_
    storages := hstorages
    tag := ?_
    usable := fun region seen storage => ⟨?_, ?_⟩ }
  · simp [bootDisk, Image.volume_eq, KeyMap.ofList, KeyMap.get?_insert]
  · have hdrive := KeyMap.mem_values.2 ⟨_, drive_of_options hm hnamed⟩
    exact List.any_eq_true.2 ⟨_, hdrive, isCloudInit_drive _⟩
  · rw [tags_of_options hm hspec]
    exact count_tags spec
  · simp [TemplateEntry.classify, TemplateEntry.usabilityOf, hlock, hstorages]
  · simp [TemplateEntry.classify, TemplateEntry.onlyStorage?, hstorages]

end reading

theorem delete_options (spec : TemplateClass.Spec) : (options cls spec roles file).delete = ∅ :=
  Change.putAll_delete (Change.putAll_delete rfl _) _

/-- Whatever a class declares, its new template machine can be read, and is one to clone from; no
setting of the class touches the name, the drives or the boot order. -/
theorem options_cloneSource (cls : String) (hspec : spec.Worded) (hmodels : spec.Supported)
    (hnamed : Named roles file) (hcolon : ':' ∉ roles.images.id.toList)
    (hcloud : Text.includes "cloudinit".toList roles.images.id.toList = false) :
    (∃ m, Machine.ofOptions (options cls spec roles file).set = .ok m ∧
      CloneSource cls roles file m) ∧
    (options cls spec roles file).delete = ∅ ∧
    (∀ k ∈ ["name", "scsi0", "ide2", "boot"], (mutableChange spec none).set.get? k = none) ∧
    ∀ e ∈ [("name", cls), ("scsi0", (bootDisk roles file).render),
      ("ide2", roles.images.id ++ ":cloudinit"), ("boot", "order=scsi0")],
        (options cls spec roles file).set.get? e.1 = some e.2 := by
  have hread : Options.Readable (options cls spec roles file).set :=
    readable_options hspec hmodels hnamed
  obtain ⟨m, hm⟩ := Machine.readable_iff.1 hread
  refine ⟨⟨m, hm, cloneSource_of_options hm hnamed hcolon hcloud hspec⟩,
    delete_options spec, fun k hk => ?_, fun e he => ?_⟩
  · have hkeys : ∀ k ∈ ["name", "scsi0", "ide2", "boot"], k ∈ fixedKeys := by decide
    obtain ⟨hshape, hnet, hpci⟩ := fixedKeys_apart k (hkeys k hk)
    exact get?_mutableChange_eq_none spec hshape hnet hpci
  · refine get?_options_of_fixed ?_ spec
    simp only [List.mem_cons, List.not_mem_nil, or_false] at he
    rcases he with rfl | rfl | rfl | rfl <;> simp [fixedOptions, bootSlot]

theorem options_cloneSource_grown : grownSpec.Worded ∧ grownSpec.Supported ∧
    Named sampleRoles "noble.qcow2" ∧ ':' ∉ sampleRoles.images.id.toList ∧
    ∃ m, Machine.ofOptions (options "noble" grownSpec sampleRoles "noble.qcow2").set = .ok m ∧
      CloneSource "noble" sampleRoles "noble.qcow2" m := by
  have hspec : grownSpec.Worded := by decide
  have hmodels : grownSpec.Supported := by decide
  have hnamed : Named sampleRoles "noble.qcow2" := by decide
  have hcolon : ':' ∉ sampleRoles.images.id.toList := by decide
  obtain ⟨hsource, -⟩ := options_cloneSource "noble" hspec hmodels hnamed hcolon (by decide)
  exact ⟨hspec, hmodels, hnamed, hcolon, hsource⟩

end Blueprint
end NodeProvisioner
