import NodeProvisioner.Proofs.Device.CpuSet
import NodeProvisioner.Proofs.Machine.Place

/-! A machine is read back from the options that are written for it. No two of its settings share a
key, each key is read as speaking of the place that it was written for, and each value as what is
there. -/
namespace NodeProvisioner

/-! ### Keys -/

namespace Setting

def numberedDevices : List String := ["net", "ipconfig", "hostpci"]

/-- A key that is read as none of the known ones. -/
structure Foreign (key : String) : Prop where
  notFixed : key ∉ Place.single.map Place.key
  notCloudInit : key ∉ cloudInitKeys
  notNumbered : ∀ device ∈ numberedDevices, index? device key = none
  notDisk : isDiskSlot key = false

instance (key : String) : Decidable (Foreign key) :=
  decidable_of_iff (_ ∧ _ ∧ _ ∧ _) ⟨fun h => ⟨h.1, h.2.1, h.2.2.1, h.2.2.2⟩,
    fun h => ⟨h.notFixed, h.notCloudInit, h.notNumbered, h.notDisk⟩⟩

theorem index?_numbered (device : String) (i : UInt8) :
    index? device (numbered device i) = some i := by
  simp [index?, numbered, Text.after?_append]

theorem index?_eq_none {start device key rest : String} (h : Text.after? start key = some rest)
    (hne : ¬ start.toList <+: device.toList ∧ ¬ device.toList <+: start.toList) :
    index? device key = none := by
  rw [index?, Text.after?_eq_none h hne]
  rfl

theorem index?_numbered_of_ne {device other : String} (i : UInt8)
    (hne : ¬ device.toList <+: other.toList ∧ ¬ other.toList <+: device.toList) :
    index? other (numbered device i) = none :=
  index?_eq_none (Text.after?_append device (Text.numeral i.toNat)) hne

theorem after?_of_isDiskSlot {key : String} (h : isDiskSlot key = true) :
    ∃ bus ∈ diskBuses, ∃ rest, Text.after? bus key = some rest := by
  obtain ⟨bus, hbus, hrest⟩ := List.any_eq_true.1 h
  split at hrest
  · next rest hafter => exact ⟨bus, hbus, rest, hafter⟩
  · cases hrest

theorem index?_of_isDiskSlot {key : String} (h : isDiskSlot key = true) :
    ∀ device ∈ numberedDevices, index? device key = none := by
  have hdistinct : ∀ bus ∈ diskBuses, ∀ device ∈ numberedDevices,
      ¬ bus.toList <+: device.toList ∧ ¬ device.toList <+: bus.toList := by decide
  obtain ⟨bus, hbus, rest, hafter⟩ := after?_of_isDiskSlot h
  intro device hdevice
  exact index?_eq_none hafter (hdistinct bus hbus device hdevice)

namespace Place

theorem ofKey_of_ofDevice {key : String} {p : Place} (h : ofDevice key = p)
    (hp : p ≠ .other key) : ofKey key = p := by
  have hfixed : ∀ key ∈ cloudInitKeys, ofDevice key = .other key := by decide
  subst h
  unfold ofKey
  split
  case h_15 =>
    split
    · next hcloud =>
      have hmem : key ∈ cloudInitKeys := by simpa using hcloud
      exact absurd (hfixed key hmem) hp
    · rfl
  all_goals exact absurd (by decide) hp

theorem ofDevice_nic (i : UInt8) : ofDevice (numbered "net" i) = nic i := by
  simp only [ofDevice, index?_numbered]

theorem ofDevice_addressing (i : UInt8) : ofDevice (numbered "ipconfig" i) = addressing i := by
  have hnet : index? "net" (numbered "ipconfig" i) = none := index?_numbered_of_ne i (by decide)
  simp only [ofDevice, hnet, index?_numbered]

theorem ofDevice_passthrough (i : UInt8) : ofDevice (numbered "hostpci" i) = passthrough i := by
  have hnet : index? "net" (numbered "hostpci" i) = none := index?_numbered_of_ne i (by decide)
  have hip : index? "ipconfig" (numbered "hostpci" i) = none :=
    index?_numbered_of_ne i (by decide)
  simp only [ofDevice, hnet, hip, index?_numbered]

theorem ofDevice_unnumbered {key : String}
    (h : ∀ device ∈ numberedDevices, index? device key = none) :
    ofDevice key = if isDiskSlot key then disk key else other key := by
  simp only [numberedDevices, List.forall_mem_cons] at h
  obtain ⟨hnet, hip, hpci, -⟩ := h
  simp only [ofDevice, hnet, hip, hpci]

theorem ofKey_disk {slot : String} (h : isDiskSlot slot = true) : ofKey slot = disk slot := by
  apply ofKey_of_ofDevice
  · rw [ofDevice_unnumbered (index?_of_isDiskSlot h), if_pos h]
  · nofun

theorem ofKey_cloudInit {key : String} (h : key ∈ cloudInitKeys) : ofKey key = cloudInit key := by
  have hall : ∀ key ∈ cloudInitKeys, ofKey key = cloudInit key := by decide
  exact hall key h

theorem ofKey_foreign {key : String} (h : Foreign key) : ofKey key = other key := by
  have hfixed := h.notFixed
  have hcloud : cloudInitKeys.contains key = false := by simpa using h.notCloudInit
  unfold ofKey
  split
  case h_15 =>
    rw [hcloud, ofDevice_unnumbered h.notNumbered, h.notDisk]
    rfl
  all_goals exact absurd (by decide) hfixed

def number? : Place → Option (String × UInt8)
  | nic i => some ("net", i)
  | addressing i => some ("ipconfig", i)
  | passthrough i => some ("hostpci", i)
  | _ => none

/-- The number of a place was read of the key, and without a number there is one key for it. -/
theorem number?_ofKey (k : String) :
    (∀ device i, (ofKey k).number? = some (device, i) → index? device k = some i) ∧
      ((ofKey k).number? = none → (ofKey k).key = k) := by
  unfold ofKey
  split
  case h_15 =>
    split
    · exact ⟨nofun, fun _ => rfl⟩
    unfold ofDevice
    split
    · next i hi => exact ⟨fun _ _ h => by cases h; exact hi, nofun⟩
    split
    · next i hi => exact ⟨fun _ _ h => by cases h; exact hi, nofun⟩
    split
    · next i hi => exact ⟨fun _ _ h => by cases h; exact hi, nofun⟩
    split
    · exact ⟨nofun, fun _ => rfl⟩
    · exact ⟨nofun, fun _ => rfl⟩
  all_goals exact ⟨nofun, fun _ => rfl⟩

end Place
end Setting

/-! ### Values -/

structure Nic.WellFormed (n : Nic) : Prop where
  model : n.model ∈ Nic.models
  mac : ∀ mac ∈ n.mac, Text.Clean mac
  bridge : n.bridge.isEmpty = true ∨ Text.Clean n.bridge

instance (n : Nic) : Decidable n.WellFormed :=
  decidable_of_iff (_ ∧ _ ∧ _) ⟨fun h => ⟨h.1, h.2.1, h.2.2⟩, fun h => ⟨h.model, h.mac, h.bridge⟩⟩

/-- Not one of the words for the other assignments. -/
def Assignment.WellFormed : Assignment → Prop
  | fixed cidr => Text.Clean cidr ∧ cidr ∉ ["dhcp", "auto", "host"]
  | _ => True

instance : DecidablePred Assignment.WellFormed
  | .fixed cidr => inferInstanceAs (Decidable (Text.Clean cidr ∧ cidr ∉ ["dhcp", "auto", "host"]))
  | .dhcp | .auto | .host => inferInstanceAs (Decidable True)

structure Addressing.WellFormed (a : Addressing) : Prop where
  ip : ∀ i ∈ a.ip, i.WellFormed
  gateway : ∀ g ∈ a.gateway, Text.Clean g
  ip6 : ∀ i ∈ a.ip6, i.WellFormed
  gateway6 : ∀ g ∈ a.gateway6, Text.Clean g

instance (a : Addressing) : Decidable a.WellFormed :=
  decidable_of_iff (_ ∧ _ ∧ _ ∧ _) ⟨fun h => ⟨h.1, h.2.1, h.2.2.1, h.2.2.2⟩,
    fun h => ⟨h.ip, h.gateway, h.ip6, h.gateway6⟩⟩

/-- A device has either a mapping or an address. -/
def Passthrough.WellFormed (p : Passthrough) : Prop :=
  (p.host = none ∧ ∃ mapping ∈ p.mapping, Text.Clean mapping) ∨
    (p.mapping = none ∧ ∃ host ∈ p.host, Text.Token host)

instance (p : Passthrough) : Decidable p.WellFormed :=
  inferInstanceAs (Decidable (_ ∨ _))

structure Smbios.WellFormed (b : Smbios) : Prop where
  uuid : ∀ v ∈ b.uuid, Text.Clean v
  serial : ∀ v ∈ b.serial, Text.Clean v
  manufacturer : ∀ v ∈ b.manufacturer, Text.Clean v
  product : ∀ v ∈ b.product, Text.Clean v

instance (b : Smbios) : Decidable b.WellFormed :=
  decidable_of_iff (_ ∧ _ ∧ _ ∧ _) ⟨fun h => ⟨h.1, h.2.1, h.2.2.1, h.2.2.2⟩,
    fun h => ⟨h.uuid, h.serial, h.manufacturer, h.product⟩⟩

structure CpuModel.WellFormed (c : CpuModel) : Prop where
  model : Text.Token c.model
  flags : ∀ f ∈ c.flags, Text.Clean f ∧ ';' ∉ f.toList

instance (c : CpuModel) : Decidable c.WellFormed :=
  decidable_of_iff (_ ∧ _) ⟨fun h => ⟨h.1, h.2⟩, fun h => ⟨h.model, h.flags⟩⟩

structure Disk.WellFormed (d : Disk) : Prop where
  volume : Text.Token d.volume
  size : ∀ v ∈ d.size, Text.Clean v
  media : ∀ v ∈ d.media, Text.Clean v
  options : ∀ e ∈ d.options.entries, Text.Token e.1 ∧ e.1 ∉ ["size", "media", "file"] ∧
    (e.2.isEmpty = true ∨ Text.Clean e.2)

instance (d : Disk) : Decidable d.WellFormed :=
  decidable_of_iff (_ ∧ _ ∧ _ ∧ _) ⟨fun h => ⟨h.1, h.2.1, h.2.2.1, h.2.2.2⟩,
    fun h => ⟨h.volume, h.size, h.media, h.options⟩⟩

namespace Setting

def tagSeparators : List Char := [';', ',', ' ']

structure Tag (t : String) : Prop where
  nonempty : t.isEmpty = false
  whole : ∀ c ∈ tagSeparators, c ∉ t.toList

instance (t : String) : Decidable (Tag t) :=
  -- Only the separators are gone through, not all characters.
  haveI : Decidable (∀ c ∈ tagSeparators, c ∉ t.toList) := List.decidableBAll _ tagSeparators
  decidable_of_iff (_ ∧ _) ⟨fun h => ⟨h.1, h.2⟩, fun h => ⟨h.nonempty, h.whole⟩⟩

def WellFormed : Setting → Prop
  | tags ts => ∀ t ∈ ts, Tag t
  | cpu c => c.WellFormed
  | affinity s => ∀ c ∈ s.cpus, c.toNat < UInt32.size - 1
  | smbios b => b.WellFormed
  | nic _ n => n.WellFormed
  | addressing _ a => a.WellFormed
  | passthrough _ p => p.WellFormed
  | disk slot d => isDiskSlot slot = true ∧ d.WellFormed
  | cloudInit key _ => key ∈ cloudInitKeys
  | other key _ => Foreign key
  | _ => True

instance : DecidablePred WellFormed
  | tags ts => inferInstanceAs (Decidable (∀ t ∈ ts, Tag t))
  | cpu c => inferInstanceAs (Decidable c.WellFormed)
  | affinity s =>
    -- Only the processors of the set are gone through, not all numbers.
    haveI : Decidable (∀ c ∈ s.cpus, c.toNat < UInt32.size - 1) := List.decidableBAll _ s.cpus
    inferInstanceAs (Decidable (∀ c ∈ s.cpus, c.toNat < UInt32.size - 1))
  | smbios b => inferInstanceAs (Decidable b.WellFormed)
  | nic _ n => inferInstanceAs (Decidable n.WellFormed)
  | addressing _ a => inferInstanceAs (Decidable a.WellFormed)
  | passthrough _ p => inferInstanceAs (Decidable p.WellFormed)
  | disk slot d => inferInstanceAs (Decidable (isDiskSlot slot = true ∧ d.WellFormed))
  | cloudInit key _ => inferInstanceAs (Decidable (key ∈ cloudInitKeys))
  | other key _ => inferInstanceAs (Decidable (Foreign key))
  | name _ | description _ | template _ | cores _ | sockets _ | memory _ | numa _ | machineType _
  | agent _ | vga _ => inferInstanceAs (Decidable True)

end Setting

/-! ### Reading back -/

theorem Text.value_of_clean_or_empty {s : String} (h : s.isEmpty = true ∨ Clean s) : Value s := by
  rcases h with hempty | hclean
  · exact value_of_eq_empty hempty
  · exact hclean.toValue

theorem Nic.WellFormed.parse_render {n : Nic} (h : n.WellFormed) : parse n.render = .ok n :=
  Nic.parse_render h.model (fun mac hmac => ⟨(h.mac mac hmac).toValue, (h.mac mac hmac).nonempty⟩)
    (Text.value_of_clean_or_empty h.bridge)

theorem Assignment.WellFormed.writable {a : Assignment} (h : a.WellFormed) : a.Writable := by
  rintro cidr rfl
  exact ⟨h.1.toValue, h.2⟩

theorem Addressing.WellFormed.parse_render {a : Addressing} (h : a.WellFormed) :
    parse a.render = .ok a :=
  Addressing.parse_render (fun i hi => (h.ip i hi).writable)
    (fun g hg => (h.gateway g hg).toValue) (fun i hi => (h.ip6 i hi).writable)
    (fun g hg => (h.gateway6 g hg).toValue)

theorem Passthrough.WellFormed.parse_render {p : Passthrough} (h : p.WellFormed) :
    parse p.render = .ok p := by
  rcases h with ⟨hhost, mapping, hmapping, hclean⟩ | ⟨hmapping, host, hhost, htoken⟩
  · exact parse_render_mapping hmapping hclean.toValue hhost
  · exact parse_render_host hhost htoken hmapping

theorem Smbios.WellFormed.parse_render {b : Smbios} (h : b.WellFormed) : parse b.render = b :=
  Smbios.parse_render (fun v hv => (h.manufacturer v hv).toValue)
    (fun v hv => (h.product v hv).toValue) (fun v hv => (h.serial v hv).toValue)
    (fun v hv => (h.uuid v hv).toValue)

theorem Disk.WellFormed.parse_render {d : Disk} (h : d.WellFormed) : parse d.render = .ok d :=
  Disk.parse_render h.volume (fun v hv => (h.media v hv).toValue)
    (fun v hv => (h.size v hv).toValue) fun e he =>
      ⟨(h.options e he).1, Text.value_of_clean_or_empty (h.options e he).2.2, (h.options e he).2.1⟩

namespace Setting

theorem readTags_writeTags {ts : List String} (h : ∀ t ∈ ts, Tag t) :
    readTags (writeTags ts) = ts := by
  have hkeep : ts.filter (!·.isEmpty) = ts :=
    List.filter_eq_self.2 fun t ht => by simp [(h t ht).nonempty]
  cases ts with
  | nil => decide
  | cons t ts =>
    unfold readTags writeTags
    have hsep : ";".toList = [';'] := rfl
    rw [Text.piecesBy_intercalate hsep rfl (List.cons_ne_nil t ts), hkeep]
    intro t' ht' c hc
    have hwhole := (h t' ht').whole
    simp only [tagSeparators, List.forall_mem_cons] at hwhole
    obtain ⟨hsemicolon, hcomma, hspace, -⟩ := hwhole
    simp only [Bool.or_eq_false_iff, beq_eq_false_iff_ne, ne_eq]
    exact ⟨⟨fun heq => hsemicolon (heq ▸ hc), fun heq => hcomma (heq ▸ hc)⟩,
      fun heq => hspace (heq ▸ hc)⟩

theorem writeFlag_eq (on : Bool) : (writeFlag on == "1") = on := by
  cases on <;> decide

theorem WellFormed.ofKey_key {s : Setting} (h : s.WellFormed) :
    Place.ofKey s.place.key = s.place := by
  cases s
  case nic i n => exact Place.ofKey_of_ofDevice (Place.ofDevice_nic i) nofun
  case addressing i a => exact Place.ofKey_of_ofDevice (Place.ofDevice_addressing i) nofun
  case passthrough i p => exact Place.ofKey_of_ofDevice (Place.ofDevice_passthrough i) nofun
  case disk slot d => exact Place.ofKey_disk h.1
  case cloudInit key v => exact Place.ofKey_cloudInit h
  case other key v => exact Place.ofKey_foreign h
  all_goals rfl

theorem WellFormed.readAt_write {s : Setting} (h : s.WellFormed) :
    readAt s.place s.write.2 = .ok s := by
  cases s
  case tags ts => exact congrArg (Except.ok <| tags ·) (readTags_writeTags h)
  case template on => exact congrArg (Except.ok <| template ·) (writeFlag_eq on)
  case numa on => exact congrArg (Except.ok <| numa ·) (writeFlag_eq on)
  case cores n => simp [place, write, readAt, readNumber]
  case sockets n => simp [place, write, readAt, readNumber]
  case memory n => simp [place, write, readAt, readNumber]
  case cpu c => exact congrArg (Except.ok <| cpu ·) (CpuModel.parse_render h.model h.flags)
  case affinity s => exact congrArg (affinity <$> ·) s.parse_render
  case smbios b => exact congrArg (Except.ok <| smbios ·) (Smbios.WellFormed.parse_render h)
  case nic i n => exact congrArg ((nic i ·) <$> ·) (Nic.WellFormed.parse_render h)
  case addressing i a =>
    exact congrArg ((addressing i ·) <$> ·) (Addressing.WellFormed.parse_render h)
  case passthrough i p =>
    exact congrArg ((passthrough i ·) <$> ·) (Passthrough.WellFormed.parse_render h)
  case disk slot d => exact congrArg ((disk slot ·) <$> ·) (Disk.WellFormed.parse_render h.2)
  all_goals rfl

theorem WellFormed.read_write {s : Setting} (h : s.WellFormed) :
    read s.write.1 s.write.2 = .ok s := by
  rw [read_eq, write_key, h.ofKey_key, h.readAt_write]

end Setting

namespace Machine

def WellFormed (m : Machine) : Prop := ∀ s ∈ m.settings, s.WellFormed

instance (m : Machine) : Decidable m.WellFormed :=
  inferInstanceAs (Decidable (∀ s ∈ m.settings, s.WellFormed))

variable {m : Machine}

theorem eq_of_place {s s' : Setting} (hs : s ∈ m.settings) (hs' : s' ∈ m.settings)
    (h : s'.place = s.place) : s' = s := by
  have hat := mem_settings.1 hs'
  rw [h, mem_settings.1 hs] at hat
  exact (Option.some.inj hat).symm

theorem WellFormed.eq_of_key (hm : m.WellFormed) {s s' : Setting} (hs : s ∈ m.settings)
    (hs' : s' ∈ m.settings) (h : s'.write.1 = s.write.1) : s' = s := by
  have hplace : Setting.Place.ofKey s'.place.key = Setting.Place.ofKey s.place.key := by
    simpa only [Setting.write_key] using congrArg Setting.Place.ofKey h
  rw [(hm s hs).ofKey_key, (hm s' hs').ofKey_key] at hplace
  exact eq_of_place hs hs' hplace

theorem get?_toChange_of_mem (hm : m.WellFormed) {s : Setting} (hs : s ∈ m.settings) :
    m.toChange.set.get? s.write.1 = some s.write.2 := by
  have hmem : (s.write.1, s.write.2) ∈ m.settings.map Setting.write := List.mem_map_of_mem hs
  rw [toChange, Change.set_putAll]
  refine KeyMap.get?_foldl_insert_of_sole hmem (fun w hw => ?_) _
  obtain ⟨s', hs', hwrite⟩ := List.mem_map.1 hw
  have hkey : s'.write.1 = s.write.1 := by rw [hwrite]
  have hvalue : s'.write.2 = w := by rw [hwrite]
  rw [← hvalue, hm.eq_of_key hs hs' hkey]

theorem mem_of_get?_toChange {k v : String} (h : m.toChange.set.get? k = some v) :
    ∃ s ∈ m.settings, s.write = (k, v) := by
  rcases Change.mem_of_get?_putAll h with hmem | hempty
  · exact List.mem_map.1 hmem
  · cases hempty

theorem WellFormed.readable_toChange (hm : m.WellFormed) : Options.Readable m.toChange.set := by
  intro k v h
  obtain ⟨s, hs, hwrite⟩ := mem_of_get?_toChange h
  have hread := (hm s hs).read_write
  rw [hwrite] at hread
  exact ⟨s, hread⟩

theorem WellFormed.origin (hm : m.WellFormed) {k v : String}
    (h : m.toChange.set.get? k = some v) :
    ∃ s ∈ m.settings, s.write.1 = k ∧ Setting.Place.ofKey k = s.place := by
  obtain ⟨s, hs, hwrite⟩ := mem_of_get?_toChange h
  have hkey : s.write.1 = k := congrArg Prod.fst hwrite
  refine ⟨s, hs, hkey, ?_⟩
  rw [← hkey, Setting.write_key, (hm s hs).ofKey_key]

/-- What is written for a machine is read as this machine. -/
theorem ofOptions_toChange (hm : m.WellFormed) : ofOptions m.toChange.set = .ok m := by
  obtain ⟨m', hm'⟩ := readable_iff.1 hm.readable_toChange
  rw [hm']
  refine congrArg Except.ok (ext_at? fun p => ?_)
  cases hp : m.at? p with
  | none =>
    refine at?_eq_none hm' fun k v h hkey => ?_
    obtain ⟨s, hs, -, hplace⟩ := hm.origin h
    rw [← hkey, hplace, mem_settings.1 hs] at hp
    cases hp
  | some s =>
    have hs : s ∈ m.settings := mem_settings.2 (place_of_at? hp ▸ hp)
    have hkey : Setting.Place.ofKey s.write.1 = p := by
      rw [Setting.write_key, (hm s hs).ofKey_key, place_of_at? hp]
    have honly : ∀ k v, m.toChange.set.get? k = some v →
        Setting.Place.ofKey k = Setting.Place.ofKey s.write.1 → k = s.write.1 := by
      intro k v h hplace
      obtain ⟨s', hs', hkey', hplace'⟩ := hm.origin h
      have hsame : s' = s := eq_of_place hs hs' (by rw [← hplace', hplace, hkey, place_of_at? hp])
      rw [← hkey', hsame]
    have hat := at?_of_option hm' (get?_toChange_of_mem hm hs) (hm s hs).read_write honly
    rw [hkey, if_pos (isGiven_of_at? hp)] at hat
    exact hat

def wellEquipped : Machine where
  name := some "worker, first"
  tags := ["kpve", "a=b"]
  cores := some 4
  memoryMib := some 2048
  cpu := some { model := "host", flags := ["+aes", "-pcid"] }
  affinity := some ⟨[0, 2, 3, 4], by decide⟩
  numa := true
  smbios := some { uuid := some "4c4c4544", base64 := true }
  nics := .ofList [(0, { model := "virtio", mac := some "BC:24:11:00:00:01", bridge := "vmbr0" }),
    (255, { model := "e1000", tag := some 7 })]
  addressing := .ofList [(0, { ip := some (.fixed "10.0.0.7/24"), gateway := some "10.0.0.1" })]
  passthrough := .ofList [(0, { mapping := some "gpu", pcie := true }),
    (1, { host := some "0000:01:00" })]
  disks := .ofList [("scsi0", { volume := "local:vm-100-disk-0", size := some "32G"
                                options := .ofList [("discard", "on"), ("ssd", "")] }),
    ("ide2", { volume := "local:cloudinit", media := some "cdrom" })]
  cloudInit := .ofList [("ciuser", "root")]
  other := .ofList [("boot", "order=scsi0"), ("netx", "")]

theorem ofOptions_toChange_wellEquipped : wellEquipped.WellFormed ∧
    ofOptions wellEquipped.toChange.set = .ok wellEquipped :=
  have h : wellEquipped.WellFormed := by decide
  ⟨h, ofOptions_toChange h⟩

end Machine
end NodeProvisioner
