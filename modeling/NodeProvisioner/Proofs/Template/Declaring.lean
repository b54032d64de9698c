import NodeProvisioner.Proofs.Template.Converging
import NodeProvisioner.Proofs.Template.InPlace

/-! What a class declares, read back of the options that are written for it. -/
namespace NodeProvisioner

open Setting (Place)

/-- Holds nothing that separates: no comma, semicolon, equals sign or blank. -/
structure Text.Word (s : String) : Prop where
  nonempty : s.isEmpty = false
  whole : ∀ c ∈ s.toList, c ∉ [',', ';', '='] ∧ isBlank c = false

instance (s : String) : Decidable (Text.Word s) :=
  -- Only the characters of the text are gone through, not all characters.
  haveI : Decidable (∀ c ∈ s.toList, c ∉ [',', ';', '='] ∧ Text.isBlank c = false) :=
    List.decidableBAll _ s.toList
  decidable_of_iff (_ ∧ _) ⟨fun h => ⟨h.1, h.2⟩, fun h => ⟨h.nonempty, h.whole⟩⟩

theorem Text.Word.token {s : String} (h : Word s) : Token s where
  noComma hc := (h.whole _ hc).1 (by decide)
  noBlankEnd := by
    cases hlast : s.toList.getLast? with
    | none => rfl
    | some c => exact (h.whole c (List.mem_of_getLast? hlast)).2
  nonempty := h.nonempty
  noBlankStart := by
    cases hfirst : s.toList.head? with
    | none => rfl
    | some c => exact (h.whole c (List.mem_of_head? hfirst)).2
  noEquals hc := (h.whole _ hc).1 (by decide)

theorem Text.Token.append {a b : String} (ha : Token a) (hb : Token b) : Token (a ++ b) where
  toClean := ha.toClean.append hb.toValue hb.nonempty
  noEquals := by
    rw [String.toList_append, List.mem_append, not_or]
    exact ⟨ha.noEquals, hb.noEquals⟩

theorem Text.Word.tag {s : String} (h : Word s) : Setting.Tag s where
  nonempty := h.nonempty
  whole c hc hmem := by
    simp only [Setting.tagSeparators, List.mem_cons, List.not_mem_nil, or_false] at hc
    rcases hc with rfl | rfl | rfl
    · exact (h.whole _ hmem).1 (by decide)
    · exact (h.whole _ hmem).1 (by decide)
    · exact absurd (h.whole _ hmem).2 (by decide)

structure TemplateClass.Spec.Worded (spec : TemplateClass.Spec) : Prop where
  network : ∀ n ∈ spec.network, Text.Word n.bridge ∧ ∀ model ∈ n.model, Text.Word model
  machine : ∀ s ∈ spec.machine, Text.Word s
  cpu : ∀ c ∈ spec.cpu, Text.Word c.model ∧ ∀ f ∈ c.flags, Text.Word f
  vga : ∀ v ∈ spec.vga, Text.Word v.kind
  pciDevices : ∀ p ∈ spec.pciDevices, Text.Word p.mapping
  tags : ∀ t ∈ spec.tags, Text.Word t

instance (spec : TemplateClass.Spec) : Decidable spec.Worded :=
  decidable_of_iff (_ ∧ _ ∧ _ ∧ _ ∧ _ ∧ _)
    ⟨fun h => ⟨h.1, h.2.1, h.2.2.1, h.2.2.2.1, h.2.2.2.2.1, h.2.2.2.2.2⟩,
      fun h => ⟨h.network, h.machine, h.cpu, h.vga, h.pciDevices, h.tags⟩⟩

/-- Every interface has a model that can stand as a key, or none. -/
def TemplateClass.Spec.Supported (spec : TemplateClass.Spec) : Prop :=
  ∀ n ∈ spec.network, ∀ model ∈ n.model, model ∈ Nic.models

instance (spec : TemplateClass.Spec) : Decidable spec.Supported :=
  inferInstanceAs (Decidable (∀ n ∈ spec.network, ∀ model ∈ n.model, model ∈ Nic.models))

/-! ### Keys -/

def Options.Standard (o : Options) : Prop :=
  ∀ k v, o.get? k = some v → (Place.ofKey k).key = k

namespace Machine
variable {o : Options} {m : Machine} (hm : ofOptions o = .ok m) (ho : o.Standard)

include hm ho

theorem at?_of_standard {k v : String} {s : Setting} (hget : o.get? k = some v)
    (hread : Setting.read k v = .ok s) :
    m.at? (Place.ofKey k) = if s.isGiven then some s else none := by
  refine at?_of_option hm hget hread fun k' v' hget' hplace => ?_
  rw [← ho k' v' hget', hplace, ho k v hget]

theorem at?_eq_none_of_standard {p : Place} (h : o.get? p.key = none) : m.at? p = none := by
  refine at?_eq_none hm fun k v hget hplace => ?_
  rw [← hplace, ho k v hget, hget] at h
  cases h

end Machine

namespace Blueprint

theorem numbered_injective (device : String) {i j : Nat}
    (h : numbered device i = numbered device j) : i = j := by
  have hrest := congrArg (Text.after? device) h
  simp only [numbered, Text.after?_append, Option.some.injEq] at hrest
  simpa using congrArg Text.readNat? hrest

theorem foreign_numbered {device : String} (hdevice : device ∈ countedDevices) {i : Nat}
    (hi : 256 ≤ i) : Setting.Foreign (numbered device i) := by
  have hafter : Text.after? device (numbered device i) = some (Text.numeral i) :=
    Text.after?_append _ _
  have hfixed : ∀ device ∈ countedDevices, ∀ k ∈ Place.single.map Place.key ++
      Setting.cloudInitKeys, Text.after? device k = none := by decide
  have hapart : ∀ device ∈ countedDevices, ∀ other ∈ Setting.numberedDevices ++ Setting.diskBuses,
      other ≠ device → ¬ device.toList <+: other.toList ∧ ¬ other.toList <+: device.toList := by
    decide
  have hbus : ∀ bus ∈ Setting.diskBuses, bus ∉ countedDevices := by decide
  refine ⟨fun hk => ?_, fun hk => ?_, fun other hother => ?_, ?_⟩
  · exact ne_numbered (hfixed device hdevice _ (List.mem_append_left _ hk)) i rfl
  · exact ne_numbered (hfixed device hdevice _ (List.mem_append_right _ hk)) i rfl
  · by_cases heq : other = device
    · subst heq
      have hlarge : ¬ i < UInt8.size := Nat.not_lt.2 hi
      simp [Setting.index?, hafter, Text.readUInt8?, hlarge]
    · exact Setting.index?_eq_none hafter
        (hapart device hdevice other (List.mem_append_left _ hother) heq)
  · refine Bool.eq_false_iff.2 fun hslot => ?_
    obtain ⟨bus, hmem, rest, hrest⟩ := Setting.after?_of_isDiskSlot hslot
    have hne : bus ≠ device := fun heq => hbus bus hmem (heq ▸ hdevice)
    rw [Text.after?_eq_none hafter
      (hapart device hdevice bus (List.mem_append_right _ hmem) hne)] at hrest
    cases hrest

theorem ofKey_net (i : Nat) : Place.ofKey (numbered "net" i) =
    if i < 256 then .nic (UInt8.ofNat i) else .other (numbered "net" i) := by
  split
  · next hi =>
    rw [numbered_ofNat "net" hi]
    exact Place.ofKey_of_ofDevice (Place.ofDevice_nic _) nofun
  · next hi => exact Place.ofKey_foreign (foreign_numbered (by decide) (Nat.not_lt.1 hi))

theorem ofKey_hostpci (i : Nat) : Place.ofKey (numbered "hostpci" i) =
    if i < 256 then .passthrough (UInt8.ofNat i) else .other (numbered "hostpci" i) := by
  split
  · next hi =>
    rw [numbered_ofNat "hostpci" hi]
    exact Place.ofKey_of_ofDevice (Place.ofDevice_passthrough _) nofun
  · next hi => exact Place.ofKey_foreign (foreign_numbered (by decide) (Nat.not_lt.1 hi))

/-! ### Options -/

inductive Sets (spec : TemplateClass.Spec) : String → String → Prop where
  | machine {s : String} (h : spec.machine = some s) : Sets spec "machine" s
  | agent {a : AgentSpec} (h : spec.agent = some a) : Sets spec "agent" (agent a)
  | cpu {c : CpuSpec} (h : spec.cpu = some c) : Sets spec "cpu" (cpu c)
  | vga {v : VgaSpec} (h : spec.vga = some v) : Sets spec "vga" (vga v)
  | nic {n : InterfaceSpec} {i : Nat} (h : spec.network[i]? = some n) :
      Sets spec (numbered "net" i) (nic n none).render
  | passthrough {p : PciSpec} {i : Nat} (h : spec.pciDevices[i]? = some p) :
      Sets spec (numbered "hostpci" i) (passthrough p).render
  | tags : Sets spec "tags" (Setting.writeTags (tags spec))

variable {spec : TemplateClass.Spec} {cls file k v : String} {roles : StorageRoles}

theorem mem_of_get?_putOrRemove {c : Change} {key : String} {value : Option String}
    (h : (c.putOrRemove key value).set.get? k = some v) :
    (k = key ∧ value = some v) ∨ c.set.get? k = some v := by
  cases value with
  | none =>
    simp only [Change.putOrRemove, Change.remove, KeyMap.get?_erase] at h
    split at h
    · cases h
    · exact .inr h
  | some w =>
    simp only [Change.putOrRemove, Change.get?_put] at h
    split at h
    · next hk => exact .inl ⟨hk, h⟩
    · exact .inr h

theorem sets_of_get? (h : (mutableChange spec none).set.get? k = some v) : Sets spec k v := by
  simp only [mutableChange, Change.get?_put] at h
  split at h
  · next hk =>
    cases h
    exact hk ▸ .tags
  rcases Change.mem_of_get?_putAll h with hpci | h
  · obtain ⟨p, i, hp, heq⟩ := mem_passthroughOptions.1 hpci
    cases heq
    exact .passthrough hp
  rcases Change.mem_of_get?_putAll h with hnic | h
  · obtain ⟨n, i, hn, heq⟩ := mem_nicOptions.1 hnic
    cases heq
    exact .nic hn
  rcases mem_of_get?_putOrRemove h with ⟨rfl, hvalue⟩ | h
  · obtain ⟨w, hw, rfl⟩ := Option.map_eq_some_iff.1 hvalue
    exact .vga hw
  rcases mem_of_get?_putOrRemove h with ⟨rfl, hvalue⟩ | h
  · obtain ⟨c, hc, rfl⟩ := Option.map_eq_some_iff.1 hvalue
    exact .cpu hc
  rcases mem_of_get?_putOrRemove h with ⟨rfl, hvalue⟩ | h
  · obtain ⟨a, ha, rfl⟩ := Option.map_eq_some_iff.1 hvalue
    exact .agent ha
  rcases mem_of_get?_putOrRemove h with ⟨rfl, hvalue⟩ | h
  · exact .machine hvalue
  · cases h

theorem get?_nic {n : InterfaceSpec} {i : Nat} (h : spec.network[i]? = some n) :
    (mutableChange spec none).set.get? (numbered "net" i) = some (nic n none).render := by
  have htags : numbered "net" i ≠ "tags" := ne_numbered (by decide) i
  have hpci : numbered "net" i ∉ (passthroughOptions spec).map (·.1) := by
    have hapart := Text.after?_eq_none (b := "hostpci") (Text.after?_append "net" (Text.numeral i))
      (by decide)
    simp only [passthroughOptions, List.map_map, List.mem_map, not_exists, not_and]
    exact fun p _ heq => ne_numbered hapart p.2 heq
  simp only [mutableChange, Change.get?_put, if_neg htags, Change.get?_putAll_of_not_mem hpci]
  rw [Change.set_putAll]
  refine KeyMap.get?_foldl_insert_of_sole (mem_nicOptions.2 ⟨n, i, h, rfl⟩) (fun w hw => ?_) _
  obtain ⟨n', j, hn', heq⟩ := mem_nicOptions.1 hw
  obtain ⟨hkey, rfl⟩ := Prod.mk.inj heq
  obtain rfl := numbered_injective "net" hkey
  cases h.symm.trans hn'
  rfl

theorem get?_options (k : String) : (options cls spec roles file).set.get? k =
    ((mutableChange spec none).set.get? k).or
      ((Change.putAll {} (fixedOptions cls roles file)).set.get? k) := by
  rw [options, Change.set_putAll, KeyMap.get?_foldl_insert (mutableChange spec none).set.ascending]
  exact Option.or_eq_orElse.symm

theorem fixed_or_sets_of_get? (h : (options cls spec roles file).set.get? k = some v) :
    (k, v) ∈ fixedOptions cls roles file ∨ Sets spec k v := by
  rw [get?_options] at h
  cases hmutable : (mutableChange spec none).set.get? k with
  | some w =>
    rw [hmutable] at h
    cases h
    exact .inr (sets_of_get? hmutable)
  | none =>
    rw [hmutable, Option.none_or] at h
    rcases Change.mem_of_get?_putAll h with hfixed | hempty
    · exact .inl hfixed
    · cases hempty

theorem Sets.key_ofKey (h : Sets spec k v) : (Place.ofKey k).key = k := by
  cases h with
  | nic _ =>
    rw [ofKey_net]
    split
    · next hi => exact (numbered_ofNat "net" hi).symm
    · rfl
  | passthrough _ =>
    rw [ofKey_hostpci]
    split
    · next hi => exact (numbered_ofNat "hostpci" hi).symm
    · rfl
  | machine _ | agent _ | cpu _ | vga _ | tags => rfl

theorem parse_nic (hspec : spec.Worded) (hmodels : spec.Supported) {n : InterfaceSpec}
    (hn : n ∈ spec.network) : Nic.parse (nic n none).render = .ok (nic n none) := by
  refine Nic.parse_render ?_ nofun (hspec.network n hn).1.token.toValue
  cases hm : n.model with
  | none => simp [nic, hm, defaultNicModel, Nic.models]
  | some model => simpa [nic, hm] using hmodels n hn model hm

theorem Sets.readable (hspec : spec.Worded) (hmodels : spec.Supported) (h : Sets spec k v) :
    ∃ s, Setting.read k v = .ok s := by
  rw [Setting.read_eq]
  cases h with
  | nic hn =>
    rw [ofKey_net]
    split
    · exact ⟨_, congrArg (_ <$> ·) (parse_nic hspec hmodels (List.mem_of_getElem? hn))⟩
    · exact ⟨_, rfl⟩
  | @passthrough p _ hp =>
    have hmapping := hspec.pciDevices p (List.mem_of_getElem? hp)
    rw [ofKey_hostpci]
    split
    · exact ⟨_, congrArg (_ <$> ·)
        (Passthrough.parse_render_mapping rfl hmapping.token.toValue rfl)⟩
    · exact ⟨_, rfl⟩
  | machine _ | agent _ | cpu _ | vga _ | tags => exact ⟨_, rfl⟩

theorem fixed_key_ofKey (h : (k, v) ∈ fixedOptions cls roles file) :
    (Place.ofKey k).key = k := by
  have hkeys : ∀ k ∈ fixedKeys, (Place.ofKey k).key = k := by decide
  have hk : k ∈ (fixedOptions cls roles file).map (·.1) := List.mem_map_of_mem h
  exact hkeys k hk

theorem standard_mutableChange : Options.Standard (mutableChange spec none).set :=
  fun _ _ h => (sets_of_get? h).key_ofKey

theorem standard_options : Options.Standard (options cls spec roles file).set :=
  fun _ _ h => (fixed_or_sets_of_get? h).elim fixed_key_ofKey Sets.key_ofKey

theorem readable_mutableChange (hspec : spec.Worded) (hmodels : spec.Supported) :
    Options.Readable (mutableChange spec none).set :=
  fun _ _ h => (sets_of_get? h).readable hspec hmodels

/-! ### The fixed options -/

structure Named (roles : StorageRoles) (file : String) : Prop where
  images : Text.Word roles.images.id
  imports : Text.Word roles.imports.id
  file : Text.Word file

instance (roles : StorageRoles) (file : String) : Decidable (Named roles file) :=
  decidable_of_iff (_ ∧ _ ∧ _) ⟨fun h => ⟨h.1, h.2.1, h.2.2⟩,
    fun h => ⟨h.images, h.imports, h.file⟩⟩

theorem parse_bootDisk (h : Named roles file) :
    Disk.parse (bootDisk roles file).render = .ok (bootDisk roles file) := by
  have himport : Text.Token (Image.volume roles.imports.id file) :=
    (((h.imports.token.append (by decide)).append (by decide)).append (by decide)).append
      h.file.token
  refine Disk.parse_render (h.images.token.append (by decide)) nofun nofun fun e he => ?_
  have hkey : Text.Token "import-from" ∧ "import-from" ∉ ["size", "media", "file"] := by decide
  rcases List.mem_pair.1 (KeyMap.mem_of_mem_ofList he) with rfl | rfl
  · exact ⟨hkey.1, himport.toValue, hkey.2⟩
  · exact ⟨by decide, by decide, by decide⟩

theorem parse_cloudInitDrive (h : Named roles file) :
    Disk.parse (roles.images.id ++ ":cloudinit") =
      .ok { volume := roles.images.id ++ ":cloudinit" } := by
  have hrender : Disk.render { volume := roles.images.id ++ ":cloudinit" } =
      roles.images.id ++ ":cloudinit" := by
    simp [Disk.render, OptionText.join, OptionText.written, EmptyCollection.emptyCollection,
      KeyMap.empty]
  have hunset : ∀ v ∈ (none : Option String), Text.Value v := by simp
  have hparse := Disk.parse_render (d := { volume := roles.images.id ++ ":cloudinit" })
    (h.images.token.append (by decide)) hunset hunset (List.forall_mem_nil _)
  rwa [hrender] at hparse

theorem read_bootDisk (h : Named roles file) :
    Setting.read bootSlot (bootDisk roles file).render =
      .ok (.disk bootSlot (bootDisk roles file)) := by
  rw [Setting.read_eq, Place.ofKey_disk (by decide)]
  exact congrArg (Setting.disk bootSlot <$> ·) (parse_bootDisk h)

theorem read_cloudInitDrive (h : Named roles file) :
    Setting.read "ide2" (roles.images.id ++ ":cloudinit") =
      .ok (.disk "ide2" { volume := roles.images.id ++ ":cloudinit" }) := by
  rw [Setting.read_eq, Place.ofKey_disk (by decide)]
  exact congrArg (Setting.disk "ide2" <$> ·) (parse_cloudInitDrive h)

theorem fixed_readable (h : Named roles file) :
    ∀ e ∈ fixedOptions cls roles file, ∃ s, Setting.read e.1 e.2 = .ok s := by
  simp only [fixedOptions, List.forall_mem_cons]
  refine ⟨⟨_, rfl⟩, ⟨_, rfl⟩, ⟨_, rfl⟩, ⟨_, rfl⟩, ⟨_, rfl⟩, ⟨_, rfl⟩, ⟨_, rfl⟩,
    ⟨_, read_bootDisk h⟩, ⟨_, read_cloudInitDrive h⟩, ⟨_, rfl⟩, nofun⟩

theorem readable_options (hspec : spec.Worded) (hmodels : spec.Supported) (h : Named roles file) :
    Options.Readable (options cls spec roles file).set :=
  fun _ _ hget =>
    (fixed_or_sets_of_get? hget).elim (fixed_readable h _) (Sets.readable hspec hmodels)

/-! ### Interfaces -/

/-- The options are accepted, and each declared interface is read as it was declared. -/
def ReadsBack (spec : TemplateClass.Spec) (o : Options) : Prop :=
  ∃ m, Machine.ofOptions o = .ok m ∧ ∀ i n, spec.network[i]? = some n →
    m.nics.get? (UInt8.ofNat i) = some {
      model := n.model.getD "virtio", mac := none, bridge := n.bridge, firewall := n.firewall
      mtu := n.mtu, tag := n.vlan, linkDown := false }

variable {o : Options}

theorem readsBack_of_supported (hspec : spec.Worded) (hmodels : spec.Supported)
    (hcount : spec.network.length ≤ 256) (hread : o.Readable) (ho : o.Standard)
    (hnics : ∀ i n, spec.network[i]? = some n →
      o.get? (numbered "net" i) = some (nic n none).render) : ReadsBack spec o := by
  obtain ⟨m, hm⟩ := Machine.readable_iff.1 hread
  refine ⟨m, hm, fun i n hn => ?_⟩
  have hi : i < 256 := Nat.lt_of_lt_of_le (List.getElem?_eq_some_iff.1 hn).1 hcount
  have hplace : Place.ofKey (numbered "net" i) = .nic (UInt8.ofNat i) := by
    rw [ofKey_net, if_pos hi]
  have hsetting : Setting.read (numbered "net" i) (nic n none).render =
      .ok (.nic (UInt8.ofNat i) (nic n none)) := by
    rw [Setting.read_eq, hplace]
    exact congrArg (_ <$> ·) (parse_nic hspec hmodels (List.mem_of_getElem? hn))
  have hat := Machine.at?_of_standard hm ho (hnics i n hn) hsetting
  rw [hplace] at hat
  obtain ⟨n', hget, heq⟩ := Option.map_eq_some_iff.1 hat
  cases heq
  exact hget

theorem supported_of_readsBack (hspec : spec.Worded) (hcount : spec.network.length ≤ 256)
    (h : ReadsBack spec (mutableChange spec none).set) : spec.Supported := by
  intro n hn model hmodel
  obtain ⟨i, hget⟩ := List.mem_iff_getElem?.1 hn
  obtain ⟨m, hm, -⟩ := h
  obtain ⟨s, hread⟩ := Machine.readable_iff.2 ⟨m, hm⟩ _ _ (get?_nic hget)
  have hi : i < 256 := Nat.lt_of_lt_of_le (List.getElem?_eq_some_iff.1 hget).1 hcount
  rw [Setting.read_eq, ofKey_net, if_pos hi] at hread
  obtain ⟨n', hparse, -⟩ := Unreadable.map_eq_ok hread
  by_contra hunknown
  have hdeclared : (nic n none).model = model := by simp [nic, Option.mem_def.1 hmodel]
  rw [Nic.parse_render_unknown (hdeclared ▸ hunknown)
    (hdeclared ▸ ((hspec.network n hn).2 model hmodel).token) rfl
    (hspec.network n hn).1.token.toValue] at hparse
  cases hparse

/-- What a class declares is read back of what is written for it exactly if its interfaces have no
models but the known ones. -/
theorem readsBack_iff (hspec : spec.Worded) (hcount : spec.network.length ≤ 256)
    (hnamed : Named roles file) :
    (ReadsBack spec (options cls spec roles file).set ∧
      ReadsBack spec (mutableChange spec none).set) ↔
        ∀ n ∈ spec.network, ∀ model ∈ n.model,
          model ∈ ["virtio", "e1000", "e1000e", "rtl8139", "vmxnet3"] := by
  refine ⟨fun h => supported_of_readsBack hspec hcount h.2, fun hmodels => ⟨?_, ?_⟩⟩
  · refine readsBack_of_supported hspec hmodels hcount (readable_options hspec hmodels hnamed)
      standard_options fun i n hn => ?_
    rw [get?_options, get?_nic hn]
    rfl
  · exact readsBack_of_supported hspec hmodels hcount (readable_mutableChange hspec hmodels)
      standard_mutableChange fun i n hn => get?_nic hn

def sampleRoles : StorageRoles where
  imports := { id := "local" }
  images := { id := "fast" }
  zones := ["z1"]

theorem readsBack_iff_grown : grownSpec.Worded ∧ Named sampleRoles "noble.qcow2" ∧
    ReadsBack grownSpec (options "noble" grownSpec sampleRoles "noble.qcow2").set ∧
    ReadsBack grownSpec (mutableChange grownSpec none).set := by
  have hspec : grownSpec.Worded := by decide
  have hnamed : Named sampleRoles "noble.qcow2" := by decide
  exact ⟨hspec, hnamed, (readsBack_iff hspec (by decide) hnamed).2 (by decide)⟩

def legacySpec : TemplateClass.Spec where
  image := { url := "https://images/noble.qcow2" }
  network := [{ bridge := "vmbr0", model := some "ne2k_pci" }]

/-- A model that the hypervisor has, but that is not among those known here. -/
theorem not_readsBack_legacy : legacySpec.Worded ∧ legacySpec.network.length ≤ 256 ∧
    Named sampleRoles "noble.qcow2" ∧
    ¬ ReadsBack legacySpec (options "noble" legacySpec sampleRoles "noble.qcow2").set ∧
    ¬ ReadsBack legacySpec (mutableChange legacySpec none).set := by
  have hspec : legacySpec.Worded := by decide
  refine ⟨hspec, by decide, by decide, ?_, ?_⟩
  · rintro ⟨m, hm, -⟩
    have herror : Machine.ofOptions (options "noble" legacySpec sampleRoles "noble.qcow2").set =
        .error (.nicWithoutModel "ne2k_pci,bridge=vmbr0") := by decide +kernel
    cases herror.symm.trans hm
  · rintro ⟨m, hm, -⟩
    have herror : Machine.ofOptions (mutableChange legacySpec none).set =
        .error (.nicWithoutModel "ne2k_pci,bridge=vmbr0") := by decide +kernel
    cases herror.symm.trans hm

end Blueprint
end NodeProvisioner
