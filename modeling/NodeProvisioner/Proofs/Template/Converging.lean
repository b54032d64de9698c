import NodeProvisioner.Proofs.Machine.Writing
import NodeProvisioner.Template.Blueprint

/-! Bringing a template machine in line with its class. After one update the machine is as the class
declares it, the options that the class says nothing of are as before, and a second update has
nothing to do. -/
namespace NodeProvisioner

open Setting (Place)

/-- What the hypervisor can hold of a class. -/
structure TemplateClass.Spec.WellFormed (spec : TemplateClass.Spec) : Prop where
  networkCount : spec.network.length ≤ 256
  pciCount : spec.pciDevices.length ≤ 256
  network : ∀ n ∈ spec.network, (∀ model ∈ n.model, model ∈ Nic.models) ∧ Text.Token n.bridge
  pciDevices : ∀ p ∈ spec.pciDevices, Text.Token p.mapping
  cpu : ∀ c ∈ spec.cpu, Text.Token c.model ∧ ∀ f ∈ c.flags, Text.Token f ∧ ';' ∉ f.toList
  tags : ∀ t ∈ spec.tags, Setting.Tag t

instance (spec : TemplateClass.Spec) : Decidable spec.WellFormed :=
  decidable_of_iff (_ ∧ _ ∧ _ ∧ _ ∧ _ ∧ _)
    ⟨fun h => ⟨h.1, h.2.1, h.2.2.1, h.2.2.2.1, h.2.2.2.2.1, h.2.2.2.2.2⟩,
      fun h => ⟨h.networkCount, h.pciCount, h.network, h.pciDevices, h.cpu, h.tags⟩⟩

namespace Blueprint

def countedDevices : List String := ["net", "hostpci"]

def governs : Place → Bool
  | .machineType | .agent | .cpu | .vga | .tags | .nic _ | .passthrough _ => true
  | _ => false

variable (spec : TemplateClass.Spec) (m : Machine)

def declared : Place → Option Setting
  | .machineType => spec.machine.map .machineType
  | .agent => spec.agent.map fun a => .agent (agent a)
  | .cpu => spec.cpu.map fun c => .cpu { model := c.model, flags := c.flags }
  | .vga => spec.vga.map fun v => .vga (vga v)
  | .tags => some (.tags (tags spec))
  | .nic i => spec.network[i.toNat]?.map fun n => .nic i (nic n (macAt (some m) i.toNat))
  | .passthrough i => spec.pciDevices[i.toNat]?.map fun p => .passthrough i (passthrough p)
  | _ => none

def orders : List (String × Option String) :=
  [("machine", spec.machine), ("agent", spec.agent.map agent), ("cpu", spec.cpu.map cpu),
    ("vga", spec.vga.map vga)] ++
    (nicOptions spec (some m)).map (fun e => (e.1, some e.2)) ++
    (passthroughOptions spec).map (fun e => (e.1, some e.2)) ++
    (surplus "net" spec.network.length m.nics).map (·, none) ++
    (surplus "hostpci" spec.pciDevices.length m.passthrough).map (·, none) ++
    [("tags", some (Setting.writeTags (tags spec)))]

def updated (o : Options) : Options := (mutableChange spec (some m)).applyTo o

theorem mutableChange_eq : mutableChange spec (some m) = .ofOrders (orders spec m) := by
  simp only [mutableChange, orders, Change.ofOrders, Change.putAll, Change.removeAll,
    List.foldl_append, List.foldl_map, List.foldl_cons, List.foldl_nil, Change.putOrRemove]

variable {spec m}

theorem numbered_ofNat {index : Nat} (device : String) (h : index < 256) :
    numbered device index = Setting.numbered device (UInt8.ofNat index) := by
  simp only [numbered, Setting.numbered, UInt8.toNat_ofNat_of_lt' h]

theorem mem_surplus {β : Type} {device k : String} {count : Nat} {present : KeyMap UInt8 β} :
    k ∈ surplus device count present ↔
      ∃ i, (present.get? i).isSome ∧ count ≤ i.toNat ∧ k = Setting.numbered device i := by
  simp only [surplus, List.mem_map, List.mem_filter, KeyMap.keys, decide_eq_true_eq]
  constructor
  · rintro ⟨i, ⟨⟨e, he, rfl⟩, hcount⟩, rfl⟩
    exact ⟨e.1, by simp [KeyMap.mem_entries.1 he], hcount, rfl⟩
  · rintro ⟨i, hi, hcount, rfl⟩
    obtain ⟨b, hb⟩ := Option.isSome_iff_exists.1 hi
    exact ⟨i, ⟨⟨(i, b), KeyMap.mem_entries.2 hb, rfl⟩, hcount⟩, rfl⟩

theorem mem_nicOptions {current : Option Machine} {e : String × String} :
    e ∈ nicOptions spec current ↔ ∃ n index, spec.network[index]? = some n ∧
      e = (numbered "net" index, (nic n (macAt current index)).render) := by
  simp [nicOptions, List.mem_zipIdx_iff_getElem?, eq_comm]

theorem mem_passthroughOptions {e : String × String} :
    e ∈ passthroughOptions spec ↔ ∃ p index, spec.pciDevices[index]? = some p ∧
      e = (numbered "hostpci" index, (passthrough p).render) := by
  simp [passthroughOptions, List.mem_zipIdx_iff_getElem?, eq_comm]

/-- An order is for a place that the class decides on, and says what is declared there. -/
theorem orders_faithful (hspec : spec.WellFormed) : ∀ e ∈ orders spec m, ∃ p, governs p = true ∧
    e.1 = p.key ∧ e.2 = (declared spec m p).map fun s => s.write.2 := by
  simp only [orders, List.forall_mem_append, List.forall_mem_cons, List.forall_mem_map]
  refine ⟨⟨⟨⟨⟨⟨⟨.machineType, ?_⟩, ⟨.agent, ?_⟩, ⟨.cpu, ?_⟩, ⟨.vga, ?_⟩, nofun⟩, ?_⟩, ?_⟩, ?_⟩, ?_⟩,
    ⟨.tags, rfl, rfl, rfl⟩, nofun⟩
  · simp [governs, Place.key, declared, Setting.write, Function.comp_def]
  · simp [governs, Place.key, declared, Setting.write, Function.comp_def]
  · simp only [governs, Place.key, declared, Setting.write, Option.map_map, Function.comp_def]
    exact ⟨trivial, trivial, rfl⟩
  · simp [governs, Place.key, declared, Setting.write, Function.comp_def]
  · intro e he
    obtain ⟨n, index, hn, rfl⟩ := mem_nicOptions.1 he
    have hindex : index < 256 :=
      Nat.lt_of_lt_of_le (List.getElem?_eq_some_iff.1 hn).1 hspec.networkCount
    refine ⟨.nic (UInt8.ofNat index), rfl, numbered_ofNat "net" hindex, ?_⟩
    simp [declared, UInt8.toNat_ofNat_of_lt' hindex, hn, Setting.write]
  · intro e he
    obtain ⟨p, index, hp, rfl⟩ := mem_passthroughOptions.1 he
    have hindex : index < 256 :=
      Nat.lt_of_lt_of_le (List.getElem?_eq_some_iff.1 hp).1 hspec.pciCount
    refine ⟨.passthrough (UInt8.ofNat index), rfl, numbered_ofNat "hostpci" hindex, ?_⟩
    simp [declared, UInt8.toNat_ofNat_of_lt' hindex, hp, Setting.write]
  · intro k hk
    obtain ⟨i, -, hcount, rfl⟩ := mem_surplus.1 hk
    exact ⟨.nic i, rfl, rfl, by simp [declared, hcount]⟩
  · intro k hk
    obtain ⟨i, -, hcount, rfl⟩ := mem_surplus.1 hk
    exact ⟨.passthrough i, rfl, rfl, by simp [declared, hcount]⟩

theorem orders_keys : (orders spec m).map (·.1) = ["machine", "agent", "cpu", "vga"] ++
    (nicOptions spec (some m)).map (·.1) ++ (passthroughOptions spec).map (·.1) ++
    surplus "net" spec.network.length m.nics ++
    surplus "hostpci" spec.pciDevices.length m.passthrough ++ ["tags"] := by
  simp [orders, Function.comp_def]

theorem ordered_or_absent {p : Place} (h : governs p = true) :
    p.key ∈ (orders spec m).map (·.1) ∨
      (p ≠ .tags ∧ declared spec m p = none ∧ m.at? p = none) := by
  simp only [orders_keys, List.mem_append]
  cases p
  case machineType | agent | cpu | vga | tags => simp [Place.key]
  case nic i =>
    cases hn : spec.network[i.toNat]? with
    | some n =>
      have hmem : (Place.nic i).key ∈ (nicOptions spec (some m)).map (·.1) :=
        List.mem_map.2 ⟨_, mem_nicOptions.2 ⟨n, i.toNat, hn, rfl⟩, rfl⟩
      simp [hmem]
    | none =>
    cases hm : m.nics.get? i with
    | none => simp [declared, hn, Machine.at?, hm]
    | some n =>
      have hmem : (Place.nic i).key ∈ surplus "net" spec.network.length m.nics :=
        mem_surplus.2 ⟨i, by simp [hm], List.getElem?_eq_none_iff.1 hn, rfl⟩
      simp [hmem]
  case passthrough i =>
    cases hp : spec.pciDevices[i.toNat]? with
    | some p =>
      have hmem : (Place.passthrough i).key ∈ (passthroughOptions spec).map (·.1) :=
        List.mem_map.2 ⟨_, mem_passthroughOptions.2 ⟨p, i.toNat, hp, rfl⟩, rfl⟩
      simp [hmem]
    | none =>
    cases hm : m.passthrough.get? i with
    | none => simp [declared, hp, Machine.at?, hm]
    | some p =>
      have hmem : (Place.passthrough i).key ∈
          surplus "hostpci" spec.pciDevices.length m.passthrough :=
        mem_surplus.2 ⟨i, by simp [hm], List.getElem?_eq_none_iff.1 hp, rfl⟩
      simp [hmem]
  all_goals cases h

theorem isGiven_of_governs {s : Setting} (h : governs s.place = true) (hne : s.place ≠ .tags) :
    s.isGiven = true := by
  cases s
  case tags => exact absurd rfl hne
  case template | numa => cases h
  all_goals rfl

theorem ofKey_of_governs {p : Place} (h : governs p = true) : Place.ofKey p.key = p := by
  cases p
  case nic i => exact Place.ofKey_of_ofDevice (Place.ofDevice_nic i) nofun
  case passthrough i => exact Place.ofKey_of_ofDevice (Place.ofDevice_passthrough i) nofun
  case machineType | agent | cpu | vga | tags => rfl
  all_goals cases h

theorem get?_updated (hspec : spec.WellFormed) (o : Options) (k : String) :
    (updated spec m o).get? k =
      if k ∈ (orders spec m).map (·.1) then
        (declared spec m (Place.ofKey k)).map fun s => s.write.2
      else o.get? k := by
  rw [updated, mutableChange_eq]
  refine Change.get?_applyTo_ofOrders (fun b hb => ?_) o
  obtain ⟨p, hp, hkey, rfl⟩ := orders_faithful hspec (k, b) hb
  rw [show k = p.key from hkey, ofKey_of_governs hp]

theorem tags_tag (hspec : spec.WellFormed) : ∀ t ∈ tags spec, Setting.Tag t := by
  refine List.forall_mem_cons.2 ⟨by decide, fun t ht => ?_⟩
  exact hspec.tags t (List.mem_filter.1 ht).1

theorem readAt_declared (hspec : spec.WellFormed)
    (hmac : ∀ i, ∀ n ∈ m.nics.get? i, ∀ mac ∈ n.mac, Text.Value mac ∧ mac.isEmpty = false)
    {p : Place} {s : Setting} (h : declared spec m p = some s) :
    Setting.readAt p s.write.2 = .ok s := by
  cases p
  case machineType | agent | vga =>
    obtain ⟨_, -, rfl⟩ := Option.map_eq_some_iff.1 h
    rfl
  case cpu =>
    obtain ⟨c, hc, rfl⟩ := Option.map_eq_some_iff.1 h
    obtain ⟨hmodel, hflags⟩ := hspec.cpu c hc
    exact congrArg (Except.ok <| Setting.cpu ·)
      (CpuModel.parse_render hmodel fun f hf => ⟨(hflags f hf).1.toClean, (hflags f hf).2⟩)
  case tags =>
    cases h
    exact congrArg (Except.ok <| Setting.tags ·) (Setting.readTags_writeTags (tags_tag hspec))
  case nic i =>
    obtain ⟨n, hn, rfl⟩ := Option.map_eq_some_iff.1 h
    obtain ⟨hmodel, hbridge⟩ := hspec.network n (List.mem_of_getElem? hn)
    refine congrArg ((Setting.nic i ·) <$> ·) (Nic.parse_render ?_ ?_ hbridge.toValue)
    · cases hm : n.model with
      | none => simp [nic, hm, defaultNicModel, Nic.models]
      | some model => simpa [nic, hm] using hmodel model hm
    · intro mac hmac'
      obtain ⟨n', hn', hmac'⟩ := Option.bind_eq_some_iff.1 hmac'
      exact hmac _ n' hn' mac hmac'
  case passthrough i =>
    obtain ⟨p, hp, rfl⟩ := Option.map_eq_some_iff.1 h
    have hmapping := hspec.pciDevices p (List.mem_of_getElem? hp)
    exact congrArg ((Setting.passthrough i ·) <$> ·)
      (Passthrough.parse_render_mapping rfl hmapping.toValue rfl)
  all_goals cases h

/-- The numbers of interfaces and passed-through devices are written in one way only. -/
def Canonical (o : Options) : Prop := ∀ e ∈ o.entries, ∀ device ∈ countedDevices,
  ∀ i ∈ Setting.index? device e.1, e.1 = Setting.numbered device i

instance : DecidablePred Canonical := fun o =>
  -- Only the index read is looked at, not all indices.
  haveI (key device : String) : Decidable (∀ i ∈ Setting.index? device key,
      key = Setting.numbered device i) := Option.decidableForallMem _
  inferInstanceAs (Decidable (∀ e ∈ o.entries, _))

theorem Canonical.key_ofKey {o : Options} (ho : Canonical o) {k v : String}
    (hget : o.get? k = some v) (h : governs (Place.ofKey k) = true) :
    (Place.ofKey k).key = k := by
  cases hk : Place.ofKey k
  case nic i =>
    have hi := (Place.number?_ofKey k).1 _ _ (congrArg Place.number? hk)
    exact (ho (k, v) (KeyMap.mem_entries.2 hget) "net" (by decide) i hi).symm
  case passthrough i =>
    have hi := (Place.number?_ofKey k).1 _ _ (congrArg Place.number? hk)
    exact (ho (k, v) (KeyMap.mem_entries.2 hget) "hostpci" (by decide) i hi).symm
  case machineType | agent | cpu | vga | tags =>
    rw [← hk]
    exact (Place.number?_ofKey k).2 (congrArg Place.number? hk)
  all_goals
    rw [hk] at h
    cases h

section update
variable {o : Options} (hspec : spec.WellFormed) (hm : Machine.ofOptions o = .ok m)
  (ho : Canonical o)

include ho hm in
theorem get?_eq_none_of_at? {p : Place} (h : governs p = true) (hne : p ≠ .tags)
    (hp : m.at? p = none) : o.get? p.key = none := by
  cases hget : o.get? p.key with
  | none => rfl
  | some v =>
    obtain ⟨s, hread⟩ := Machine.readable_iff.2 ⟨m, hm⟩ p.key v hget
    have hplace := Setting.read_place hread
    have hat := Machine.at?_of_option hm hget hread fun k' v' hget' hkey => by
      rw [ofKey_of_governs h] at hkey
      rw [← ho.key_ofKey hget' (hkey ▸ h), hkey]
    rw [ofKey_of_governs h] at hat hplace
    rw [isGiven_of_governs (hplace ▸ h) (hplace ▸ hne), if_pos rfl, hp] at hat
    cases hat

include hspec hm ho in
theorem get?_updated_of_governs {p : Place} (h : governs p = true) :
    (updated spec m o).get? p.key =
      (declared spec m p).map fun s => s.write.2 := by
  rw [get?_updated hspec, ofKey_of_governs h]
  split
  · rfl
  · next hkey =>
    obtain ⟨hne, hdeclared, hat⟩ := (ordered_or_absent h).resolve_left hkey
    rw [hdeclared, get?_eq_none_of_at? hm ho h hne hat]
    rfl

include hspec in
theorem get?_updated_of_ungoverned {k : String} (h : governs (Place.ofKey k) = false) :
    (updated spec m o).get? k = o.get? k := by
  rw [get?_updated hspec, if_neg]
  intro hkey
  obtain ⟨e, he, rfl⟩ := List.mem_map.1 hkey
  obtain ⟨p, hp, hkey', -⟩ := orders_faithful hspec e he
  rw [hkey', ofKey_of_governs hp, hp] at h
  cases h

include hspec ho in
theorem key_ofKey_updated {k v : String}
    (hget : (updated spec m o).get? k = some v)
    (h : governs (Place.ofKey k) = true) : (Place.ofKey k).key = k := by
  rw [get?_updated hspec] at hget
  split at hget
  · next hkey =>
    obtain ⟨e, he, rfl⟩ := List.mem_map.1 hkey
    obtain ⟨p, hp, hkey', -⟩ := orders_faithful hspec e he
    rw [hkey', ofKey_of_governs hp]
  · exact ho.key_ofKey hget h

include hm in
theorem value_of_mac {i : UInt8} {n : Nic} (hn : m.nics.get? i = some n) :
    ∀ mac ∈ n.mac, Text.Value mac := by
  have hat : m.at? (.nic i) = some (.nic i n) := by simp [Machine.at?, hn]
  obtain ⟨k, v, -, hread⟩ := Machine.exists_option_of_at? hm hat
  have hplace := Setting.read_place hread
  rw [Setting.read_eq, ← hplace] at hread
  obtain ⟨n', hparse, heq⟩ := Unreadable.map_eq_ok hread
  cases heq
  exact Nic.value_of_mac hparse

variable (hmac : ∀ n ∈ m.nics.values, n.mac ≠ some "")

include hspec hm hmac in
theorem readAt_of_declared {p : Place} {s : Setting} (h : declared spec m p = some s) :
    Setting.readAt p s.write.2 = .ok s := by
  refine readAt_declared hspec (fun i n hn mac hn' => ⟨value_of_mac hm hn mac hn', ?_⟩) h
  rw [String.isEmpty_eq_false_iff]
  rintro rfl
  exact hmac n (List.mem_map.2 ⟨(i, n), KeyMap.mem_entries.2 hn, rfl⟩) hn'

include hspec hm ho hmac in
theorem readable_updated :
    Options.Readable (updated spec m o) := by
  intro k v hget
  cases hk : governs (Place.ofKey k) with
  | true =>
    have hkey := key_ofKey_updated hspec ho hget hk
    rw [← hkey, get?_updated_of_governs hspec hm ho hk] at hget
    obtain ⟨s, hs, rfl⟩ := Option.map_eq_some_iff.1 hget
    exact ⟨s, by rw [Setting.read_eq, readAt_of_declared hspec hm hmac hs]⟩
  | false =>
    rw [get?_updated_of_ungoverned hspec hk] at hget
    exact Machine.readable_iff.2 ⟨m, hm⟩ k v hget

theorem isGiven_of_declared {p : Place} {s : Setting} (h : declared spec m p = some s) :
    s.isGiven = true := by
  cases p
  case machineType | agent | cpu | vga | nic | passthrough =>
    obtain ⟨_, -, rfl⟩ := Option.map_eq_some_iff.1 h
    rfl
  case tags =>
    cases h
    rfl
  all_goals cases h

include hspec hm ho hmac in
theorem at?_updated {m' : Machine}
    (hm' : Machine.ofOptions (updated spec m o) = .ok m') {p : Place}
    (h : governs p = true) : m'.at? p = declared spec m p := by
  have hget := get?_updated_of_governs hspec hm ho h
  have hsole : ∀ k v, (updated spec m o).get? k = some v →
      Place.ofKey k = p → k = p.key := by
    intro k v hk hplace
    rw [← hplace, key_ofKey_updated hspec ho hk (hplace ▸ h)]
  cases hp : declared spec m p with
  | none =>
    refine Machine.at?_eq_none hm' fun k v hk hplace => ?_
    rw [hsole k v hk hplace, hget, hp] at hk
    cases hk
  | some s =>
    have hread : Setting.read p.key s.write.2 = .ok s := by
      rw [Setting.read_eq, ofKey_of_governs h, readAt_of_declared hspec hm hmac hp]
    rw [hp] at hget
    have hat := Machine.at?_of_option hm' hget hread fun k v hk hplace =>
      hsole k v hk (hplace.trans (ofKey_of_governs h))
    rwa [ofKey_of_governs h, isGiven_of_declared hp, if_pos rfl] at hat

include hspec in
/-- An update that finds what it would declare changes nothing. -/
theorem updated_eq_self {o : Options} (h : ∀ p, governs p = true →
    o.get? p.key = (declared spec m p).map fun s => s.write.2) : updated spec m o = o := by
  apply KeyMap.ext_get?
  intro k
  rw [get?_updated hspec]
  split
  · next hkey =>
    obtain ⟨e, he, rfl⟩ := List.mem_map.1 hkey
    obtain ⟨p, hp, hkey', -⟩ := orders_faithful hspec e he
    rw [hkey', ofKey_of_governs hp, h p hp]
  · rfl

end update

/-- A machine as its class declares it, with the addresses that its interfaces had. -/
structure InLine (spec : TemplateClass.Spec) (before after : Machine) : Prop where
  machineType : after.machineType = spec.machine
  agent : after.agent = spec.agent.map fun a =>
    "enabled=" ++ (if a.enabled then "1" else "0") ++
      ",fstrim_cloned_disks=" ++ (if a.fstrim then "1" else "0")
  vga : after.vga = spec.vga.map fun v =>
    v.kind ++ (v.memory.map fun mib => ",memory=" ++ mib.toNat.repr).getD ""
  cpu : after.cpu = spec.cpu.map fun c => { model := c.model, flags := c.flags }
  tags : after.tags = "kpve-template" :: spec.tags.filter (· != "kpve-template")
  nics : ∀ i, after.nics.get? i = spec.network[i.toNat]?.map fun n =>
    { model := n.model.getD "virtio", mac := (before.nics.get? i).bind (·.mac)
      bridge := n.bridge, firewall := n.firewall, mtu := n.mtu, tag := n.vlan, linkDown := false }
  passthrough : ∀ i, after.passthrough.get? i =
    spec.pciDevices[i.toNat]?.map fun p => { mapping := some p.mapping, pcie := p.pcie }

theorem vga_eq (v : VgaSpec) :
    vga v = v.kind ++ (v.memory.map fun mib => ",memory=" ++ mib.toNat.repr).getD "" := by
  unfold vga
  cases v.memory with
  | none => simp
  | some mib => exact String.append_assoc

theorem inLine_of_at? {m' : Machine} (h : ∀ p, governs p = true → m'.at? p = declared spec m p) :
    InLine spec m m' where
  machineType := Option.map_injective (fun _ _ => Setting.machineType.inj) (h .machineType rfl)
  agent := Option.map_injective (fun _ _ => Setting.agent.inj)
    ((h .agent rfl).trans (Option.map_map _ _ _).symm)
  vga := by
    have hvga : m'.vga = spec.vga.map vga := Option.map_injective (fun _ _ => Setting.vga.inj)
      ((h .vga rfl).trans (Option.map_map _ _ _).symm)
    rw [hvga]
    exact congrArg (spec.vga.map ·) (funext vga_eq)
  cpu := Option.map_injective (fun _ _ => Setting.cpu.inj)
    ((h .cpu rfl).trans (Option.map_map _ _ _).symm)
  tags := by
    have htags := h .tags rfl
    simp only [Machine.at?, declared] at htags
    split at htags
    · cases htags
    · exact Setting.tags.inj (Option.some.inj htags)
  nics i := by
    refine Option.map_injective (fun _ _ heq => (Setting.nic.inj heq).2)
      ((h (.nic i) rfl).trans ?_)
    simp [declared, nic, macAt, defaultNicModel, Function.comp_def]
  passthrough i := Option.map_injective (fun _ _ heq => (Setting.passthrough.inj heq).2)
    ((h (.passthrough i) rfl).trans (Option.map_map _ _ _).symm)

theorem InLine.declared_eq {m' : Machine} (h : InLine spec m m') :
    declared spec m' = declared spec m := by
  funext p
  cases p
  case nic i =>
    have hnic := h.nics i
    simp only [declared, macAt, UInt8.ofNat_toNat, Option.bind_some]
    cases hn : spec.network[i.toNat]? with
    | none => rfl
    | some n =>
      rw [hn] at hnic
      simp [hnic]
  all_goals rfl

theorem governs_eq_false {k : String} (hk : k ∉ ["machine", "agent", "cpu", "vga", "tags"])
    (hcounted : ∀ device ∈ countedDevices, Setting.index? device k = none) :
    governs (Place.ofKey k) = false := by
  obtain ⟨hnumber, hkey⟩ := Place.number?_ofKey k
  cases hplace : Place.ofKey k
  case nic i =>
    have hi := hnumber "net" i (congrArg Place.number? hplace)
    rw [hcounted "net" (by decide)] at hi
    cases hi
  case passthrough i =>
    have hi := hnumber "hostpci" i (congrArg Place.number? hplace)
    rw [hcounted "hostpci" (by decide)] at hi
    cases hi
  case machineType | agent | cpu | vga | tags =>
    rw [← hkey (congrArg Place.number? hplace), hplace] at hk
    exact absurd (by decide) hk
  all_goals rfl

/-- An update of a machine that can be read leaves one that is in line with its class. Options that
the class says nothing of stay, and the next update has nothing to do. -/
theorem mutableChange_converges {o : Options} (hspec : spec.WellFormed)
    (hm : Machine.ofOptions o = .ok m) (ho : Canonical o)
    (hmac : ∀ n ∈ m.nics.values, n.mac ≠ some "") :
    ∃ m', Machine.ofOptions (updated spec m o) = .ok m' ∧ InLine spec m m' ∧
      (∀ k ∉ ["machine", "agent", "cpu", "vga", "tags"],
        (∀ device ∈ countedDevices, Setting.index? device k = none) →
          (updated spec m o).get? k = o.get? k) ∧
      updated spec m' (updated spec m o) = updated spec m o := by
  obtain ⟨m', hm'⟩ := Machine.readable_iff.1 (readable_updated hspec hm ho hmac)
  have hline : InLine spec m m' := inLine_of_at? fun p => at?_updated hspec hm ho hmac hm'
  refine ⟨m', hm', hline, fun k hk hcounted => ?_, ?_⟩
  · exact get?_updated_of_ungoverned hspec (governs_eq_false hk hcounted)
  · apply updated_eq_self hspec
    intro p hp
    rw [hline.declared_eq, get?_updated_of_governs hspec hm ho hp]

def grownSpec : TemplateClass.Spec where
  image := { url := "https://images/noble.qcow2" }
  machine := some "q35"
  agent := some { enabled := true, fstrim := true }
  cpu := some { model := "host", flags := ["+aes"] }
  vga := some { kind := "qxl", memory := some 32 }
  network := [{ bridge := "vmbr2" }, { bridge := "vmbr3", model := some "e1000" }]
  tags := ["noble"]

def grownOptions : Options :=
  .ofList [("agent", "enabled=1"), ("net0", "virtio=BC:24:11:00:00:01,bridge=vmbr0"),
    ("hostpci0", "mapping=gpu"), ("scsi0", "local:vm-9000-disk-0"), ("name", "noble")]

def grownMachine : Machine where
  name := some "noble"
  agent := some "enabled=1"
  nics := .ofList [(0, { model := "virtio", mac := some "BC:24:11:00:00:01", bridge := "vmbr0" })]
  passthrough := .ofList [(0, { mapping := some "gpu" })]
  disks := .ofList [("scsi0", { volume := "local:vm-9000-disk-0" })]

theorem mutableChange_converges_grown : grownSpec.WellFormed ∧
    Machine.ofOptions grownOptions = .ok grownMachine ∧ Canonical grownOptions ∧
    (∀ n ∈ grownMachine.nics.values, n.mac ≠ some "") ∧
    ∃ m', Machine.ofOptions (updated grownSpec grownMachine grownOptions) = .ok m' ∧
      m'.agent = some "enabled=1,fstrim_cloned_disks=1" ∧ m'.vga = some "qxl,memory=32" ∧
      InLine grownSpec grownMachine m' ∧
      (∀ k ∉ ["machine", "agent", "cpu", "vga", "tags"],
        (∀ device ∈ countedDevices, Setting.index? device k = none) →
          (updated grownSpec grownMachine grownOptions).get? k = grownOptions.get? k) ∧
      updated grownSpec m' (updated grownSpec grownMachine grownOptions) =
        updated grownSpec grownMachine grownOptions := by
  have hspec : grownSpec.WellFormed := by decide
  have hm : Machine.ofOptions grownOptions = .ok grownMachine := by decide
  have ho : Canonical grownOptions := by decide
  have hmac : ∀ n ∈ grownMachine.nics.values, n.mac ≠ some "" := by decide
  obtain ⟨m', hm', hline, hrest⟩ := mutableChange_converges hspec hm ho hmac
  have hagent : m'.agent = some "enabled=1,fstrim_cloned_disks=1" :=
    hline.agent.trans (by decide +kernel)
  have hvga : m'.vga = some "qxl,memory=32" := hline.vga.trans (by decide +kernel)
  exact ⟨hspec, hm, ho, hmac, m', hm', hagent, hvga, hline, hrest⟩

end Blueprint
end NodeProvisioner
