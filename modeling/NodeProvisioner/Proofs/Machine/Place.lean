import NodeProvisioner.Proofs.Device.Rendering
import NodeProvisioner.Proofs.Machine.Change

/-! Machines as maps from places to settings. The key of an option tells the place that it speaks
of, and the value what is set there; a machine holds at each place what the last option for it
says. -/
namespace NodeProvisioner

namespace Setting

/-- What a setting speaks of. -/
inductive Place where
  | name
  | description
  | tags
  | template
  | cores
  | sockets
  | memory
  | cpu
  | affinity
  | numa
  | machineType
  | agent
  | vga
  | smbios
  | nic (index : UInt8)
  | addressing (index : UInt8)
  | passthrough (index : UInt8)
  | disk (slot : String)
  | cloudInit (key : String)
  | other (key : String)
  deriving DecidableEq

namespace Place

def single : List Place :=
  [name, description, tags, template, cores, sockets, memory, cpu, affinity, numa, machineType,
    agent, vga, smbios]

/-- The place that a key without a fixed meaning speaks of. -/
def ofDevice (key : String) : Place :=
  match index? "net" key with
  | some i => nic i
  | none =>
    match index? "ipconfig" key with
    | some i => addressing i
    | none =>
      match index? "hostpci" key with
      | some i => passthrough i
      | none => if isDiskSlot key then disk key else other key

def ofKey (key : String) : Place :=
  match key with
  | "name" => name
  | "description" => description
  | "tags" => tags
  | "template" => template
  | "cores" => cores
  | "sockets" => sockets
  | "memory" => memory
  | "cpu" => cpu
  | "affinity" => affinity
  | "numa" => numa
  | "machine" => machineType
  | "agent" => agent
  | "vga" => vga
  | "smbios1" => smbios
  | _ => if cloudInitKeys.contains key then cloudInit key else ofDevice key

def key : Place → String
  | name => "name"
  | description => "description"
  | tags => "tags"
  | template => "template"
  | cores => "cores"
  | sockets => "sockets"
  | memory => "memory"
  | cpu => "cpu"
  | affinity => "affinity"
  | numa => "numa"
  | machineType => "machine"
  | agent => "agent"
  | vga => "vga"
  | smbios => "smbios1"
  | nic i => numbered "net" i
  | addressing i => numbered "ipconfig" i
  | passthrough i => numbered "hostpci" i
  | disk slot => slot
  | cloudInit key => key
  | other key => key

end Place

def place : Setting → Place
  | name _ => .name
  | description _ => .description
  | tags _ => .tags
  | template _ => .template
  | cores _ => .cores
  | sockets _ => .sockets
  | memory _ => .memory
  | cpu _ => .cpu
  | affinity _ => .affinity
  | numa _ => .numa
  | machineType _ => .machineType
  | agent _ => .agent
  | vga _ => .vga
  | smbios _ => .smbios
  | nic i _ => .nic i
  | addressing i _ => .addressing i
  | passthrough i _ => .passthrough i
  | disk slot _ => .disk slot
  | cloudInit key _ => .cloudInit key
  | other key _ => .other key

@[simp] theorem write_key (s : Setting) : s.write.1 = s.place.key := by
  cases s <;> rfl

def readAt : Place → String → Except Unreadable Setting
  | .name, v => .ok (name v)
  | .description, v => .ok (description v)
  | .tags, v => .ok (tags (readTags v))
  | .template, v => .ok (template (v == "1"))
  | .cores, v => cores <$> readNumber Text.readUInt32? "cores" v
  | .sockets, v => sockets <$> readNumber Text.readUInt32? "sockets" v
  | .memory, v => memory <$> readNumber Text.readUInt64? "memory" v
  | .cpu, v => .ok (cpu (.parse v))
  | .affinity, v => affinity <$> CpuSet.parse v
  | .numa, v => .ok (numa (v == "1"))
  | .machineType, v => .ok (machineType v)
  | .agent, v => .ok (agent v)
  | .vga, v => .ok (vga v)
  | .smbios, v => .ok (smbios (.parse v))
  | .nic i, v => (nic i ·) <$> Nic.parse v
  | .addressing i, v => (addressing i ·) <$> Addressing.parse v
  | .passthrough i, v => (passthrough i ·) <$> Passthrough.parse v
  | .disk slot, v => (disk slot ·) <$> Disk.parse v
  | .cloudInit key, v => .ok (cloudInit key v)
  | .other key, v => .ok (other key v)

theorem readNumbered_eq (key value : String) :
    readNumbered key value = readAt (Place.ofDevice key) value := by
  unfold readNumbered Place.ofDevice
  cases index? "net" key with
  | some i => rfl
  | none =>
  cases index? "ipconfig" key with
  | some i => rfl
  | none =>
  cases index? "hostpci" key with
  | some i => rfl
  | none =>
    cases isDiskSlot key with
    | true => rfl
    | false => rfl

/-- An option is read in two steps: its key tells the place, and its value what is there. -/
theorem read_eq (key value : String) : read key value = readAt (Place.ofKey key) value := by
  unfold read Place.ofKey
  split
  case h_15 =>
    split
    · simp only [readAt]
    · simp only [*, readNumbered_eq]
  all_goals rfl

theorem readAt_place {p : Place} {value : String} {s : Setting} (h : readAt p value = .ok s) :
    s.place = p := by
  cases p
  case cores | sockets | memory | affinity | nic | addressing | passthrough | disk =>
    obtain ⟨_, -, rfl⟩ := Unreadable.map_eq_ok h
    rfl
  all_goals
    cases h
    rfl

theorem read_place {key value : String} {s : Setting} (h : read key value = .ok s) :
    s.place = Place.ofKey key := readAt_place (read_eq key value ▸ h)

theorem parse_of_read_nic {key value : String} {i : UInt8} {n : Nic}
    (h : read key value = .ok (.nic i n)) : Nic.parse value = .ok n := by
  have hplace := read_place h
  rw [read_eq, ← hplace] at h
  obtain ⟨_, hparse, heq⟩ := Unreadable.map_eq_ok h
  cases heq
  exact hparse

theorem parse_of_read_addressing {key value : String} {i : UInt8} {a : Addressing}
    (h : read key value = .ok (.addressing i a)) : Addressing.parse value = .ok a := by
  have hplace := read_place h
  rw [read_eq, ← hplace] at h
  obtain ⟨_, hparse, heq⟩ := Unreadable.map_eq_ok h
  cases heq
  exact hparse

/-- It says something that a machine without it does not have. -/
def isGiven : Setting → Bool
  | tags ts => !ts.isEmpty
  | template on => on
  | numa on => on
  | _ => true

end Setting

namespace Machine
open Setting (Place)

def at? (m : Machine) : Place → Option Setting
  | .name => m.name.map .name
  | .description => m.description.map .description
  | .tags => if m.tags.isEmpty then none else some (.tags m.tags)
  | .template => if m.template then some (.template true) else none
  | .cores => m.cores.map .cores
  | .sockets => m.sockets.map .sockets
  | .memory => m.memoryMib.map .memory
  | .cpu => m.cpu.map .cpu
  | .affinity => m.affinity.map .affinity
  | .numa => if m.numa then some (.numa true) else none
  | .machineType => m.machineType.map .machineType
  | .agent => m.agent.map .agent
  | .vga => m.vga.map .vga
  | .smbios => m.smbios.map .smbios
  | .nic i => (m.nics.get? i).map (.nic i)
  | .addressing i => (m.addressing.get? i).map (.addressing i)
  | .passthrough i => (m.passthrough.get? i).map (.passthrough i)
  | .disk slot => (m.disks.get? slot).map (.disk slot)
  | .cloudInit key => (m.cloudInit.get? key).map (.cloudInit key)
  | .other key => (m.other.get? key).map (.other key)

theorem at?_empty (p : Place) : ({} : Machine).at? p = none := by
  cases p <;> rfl

theorem place_of_at? {m : Machine} {p : Place} {s : Setting} (h : m.at? p = some s) :
    s.place = p := by
  cases p
  case tags | template | numa =>
    simp only [at?] at h
    split at h
    · cases h <;> rfl
    · cases h <;> rfl
  all_goals
    obtain ⟨_, -, rfl⟩ := Option.map_eq_some_iff.1 h
    rfl

theorem at?_apply_of_ne (m : Machine) {s : Setting} {p : Place} (h : p ≠ s.place) :
    (m.apply s).at? p = m.at? p := by
  cases s
  case nic i _ | addressing i _ | passthrough i _ | disk i _ | cloudInit i _ | other i _ =>
    cases p
    case nic j | addressing j | passthrough j | disk j | cloudInit j | other j =>
      first
      | rfl
      | have hne : j ≠ i := fun heq => h (congrArg _ heq)
        simp only [at?, apply, KeyMap.get?_insert, if_neg hne]
    all_goals rfl
  all_goals
    cases p
    all_goals first | rfl | exact absurd rfl h

theorem at?_apply_place (m : Machine) (s : Setting) :
    (m.apply s).at? s.place = if s.isGiven then some s else none := by
  cases s
  case nic | addressing | passthrough | disk | cloudInit | other =>
    simp [at?, apply, Setting.place, Setting.isGiven]
  case tags ts =>
    cases ts <;> rfl
  case template on | numa on =>
    cases on <;> rfl
  all_goals rfl

theorem settings_eq (m : Machine) : m.settings =
    Place.single.flatMap (fun p => (m.at? p).toList) ++
      (m.nics.entries.map (fun e => Setting.nic e.1 e.2) ++
        (m.addressing.entries.map (fun e => Setting.addressing e.1 e.2) ++
          (m.passthrough.entries.map (fun e => Setting.passthrough e.1 e.2) ++
            (m.disks.entries.map (fun e => Setting.disk e.1 e.2) ++
              (m.cloudInit.entries.map (fun e => Setting.cloudInit e.1 e.2) ++
                m.other.entries.map (fun e => Setting.other e.1 e.2)))))) := by
  have htags : (m.at? .tags).toList = if m.tags.isEmpty then [] else [.tags m.tags] := by
    simp only [at?]
    split <;> rfl
  have htemplate : (m.at? .template).toList = if m.template then [.template true] else [] := by
    simp only [at?]
    split <;> rfl
  have hnuma : (m.at? .numa).toList = if m.numa then [.numa true] else [] := by
    simp only [at?]
    split <;> rfl
  unfold settings Place.single
  simp only [List.flatMap_cons, List.flatMap_nil, htags, htemplate, hnuma, List.append_assoc,
    List.nil_append]
  rfl

theorem mem_settings {m : Machine} {s : Setting} : s ∈ m.settings ↔ m.at? s.place = some s := by
  rw [settings_eq]
  simp only [List.mem_append, List.mem_flatMap, List.mem_map, Option.mem_toList,
    KeyMap.mem_entries, Prod.exists]
  constructor
  · rintro (⟨p, -, h⟩ | ⟨i, n, h, rfl⟩ | ⟨i, a, h, rfl⟩ | ⟨i, p, h, rfl⟩ | ⟨slot, d, h, rfl⟩ |
      ⟨key, v, h, rfl⟩ | ⟨key, v, h, rfl⟩)
    · rw [place_of_at? h, h]
    all_goals exact congrArg (Option.map _) h
  · intro h
    by_cases hsingle : s.place ∈ Place.single
    · exact .inl ⟨s.place, hsingle, h⟩
    · right
      cases s
      case nic | addressing | passthrough | disk | cloudInit | other =>
        obtain ⟨_, hget, heq⟩ := Option.map_eq_some_iff.1 h
        cases heq
        simp [hget]
      all_goals exact absurd (by simp [Setting.place, Place.single]) hsingle

theorem ext_at? {m m' : Machine} (h : ∀ p, m.at? p = m'.at? p) : m = m' := by
  have inj {α : Type} {f : α → Setting} {a b : Option α} (hf : f.Injective)
      (hab : a.map f = b.map f) : a = b := Option.map_injective hf hab
  have hname := inj (fun _ _ => Setting.name.inj) (h .name)
  have hdescription := inj (fun _ _ => Setting.description.inj) (h .description)
  have hcores := inj (fun _ _ => Setting.cores.inj) (h .cores)
  have hsockets := inj (fun _ _ => Setting.sockets.inj) (h .sockets)
  have hmemory := inj (fun _ _ => Setting.memory.inj) (h .memory)
  have hcpu := inj (fun _ _ => Setting.cpu.inj) (h .cpu)
  have haffinity := inj (fun _ _ => Setting.affinity.inj) (h .affinity)
  have hmachine := inj (fun _ _ => Setting.machineType.inj) (h .machineType)
  have hagent := inj (fun _ _ => Setting.agent.inj) (h .agent)
  have hvga := inj (fun _ _ => Setting.vga.inj) (h .vga)
  have hsmbios := inj (fun _ _ => Setting.smbios.inj) (h .smbios)
  have hnics : m.nics = m'.nics := KeyMap.ext_get? fun i =>
    inj (fun _ _ heq => (Setting.nic.inj heq).2) (h (.nic i))
  have haddressing : m.addressing = m'.addressing := KeyMap.ext_get? fun i =>
    inj (fun _ _ heq => (Setting.addressing.inj heq).2) (h (.addressing i))
  have hpassthrough : m.passthrough = m'.passthrough := KeyMap.ext_get? fun i =>
    inj (fun _ _ heq => (Setting.passthrough.inj heq).2) (h (.passthrough i))
  have hdisks : m.disks = m'.disks := KeyMap.ext_get? fun slot =>
    inj (fun _ _ heq => (Setting.disk.inj heq).2) (h (.disk slot))
  have hcloudInit : m.cloudInit = m'.cloudInit := KeyMap.ext_get? fun key =>
    inj (fun _ _ heq => (Setting.cloudInit.inj heq).2) (h (.cloudInit key))
  have hother : m.other = m'.other := KeyMap.ext_get? fun key =>
    inj (fun _ _ heq => (Setting.other.inj heq).2) (h (.other key))
  have htags : m.tags = m'.tags := by
    have htags := h .tags
    simp only [at?] at htags
    split at htags <;> split at htags <;> simp_all
  have htemplate : m.template = m'.template := by
    have htemplate := h .template
    simp only [at?] at htemplate
    split at htemplate <;> split at htemplate <;> simp_all
  have hnuma : m.numa = m'.numa := by
    have hnuma := h .numa
    simp only [at?] at hnuma
    split at hnuma <;> split at hnuma <;> simp_all
  cases m
  cases m'
  simp_all

theorem isGiven_of_at? {m : Machine} {p : Place} {s : Setting} (h : m.at? p = some s) :
    s.isGiven = true := by
  cases p
  case tags =>
    simp only [at?] at h
    split at h
    · cases h
    · next hne =>
      cases h
      simpa [Setting.isGiven] using hne
  case template | numa =>
    simp only [at?] at h
    split at h
    · cases h
      rfl
    · cases h
  all_goals
    obtain ⟨_, -, rfl⟩ := Option.map_eq_some_iff.1 h
    rfl

/-! ### Settings one after the other -/

theorem at?_foldl_of_absent {ss : List Setting} {p : Place} (h : ∀ s ∈ ss, s.place ≠ p)
    (m : Machine) : (ss.foldl apply m).at? p = m.at? p := by
  induction ss generalizing m with
  | nil => rfl
  | cons s ss ih =>
    obtain ⟨hs, hss⟩ := List.forall_mem_cons.1 h
    rw [List.foldl_cons, ih hss, at?_apply_of_ne m hs.symm]

theorem at?_foldl_congr (ss : List Setting) {m m' : Machine} {p : Place} (h : m.at? p = m'.at? p) :
    (ss.foldl apply m).at? p = (ss.foldl apply m').at? p := by
  induction ss generalizing m m' with
  | nil => exact h
  | cons s ss ih =>
    apply ih
    by_cases hp : p = s.place
    · rw [hp, at?_apply_place, at?_apply_place]
    · rw [at?_apply_of_ne m hp, at?_apply_of_ne m' hp, h]

theorem at?_foldl_filter (ss : List Setting) (p : Place) (m : Machine) :
    (ss.foldl apply m).at? p = ((ss.filter (·.place = p)).foldl apply m).at? p := by
  induction ss generalizing m with
  | nil => rfl
  | cons s ss ih =>
    by_cases hp : s.place = p
    · simp only [List.filter_cons, hp, decide_true, if_true, List.foldl_cons, ih]
    · have hother : (m.apply s).at? p = m.at? p := at?_apply_of_ne m (Ne.symm hp)
      simp only [List.filter_cons, hp, decide_false, Bool.false_eq_true, if_false, List.foldl_cons]
      rw [at?_foldl_congr ss hother, ih]

theorem mem_of_at?_foldl {ss : List Setting} {m : Machine} {p : Place} {s : Setting}
    (h : (ss.foldl apply m).at? p = some s) : s ∈ ss ∨ m.at? p = some s := by
  induction ss generalizing m with
  | nil => exact .inr h
  | cons s' ss ih =>
    rcases ih (m := m.apply s') h with hss | hput
    · exact .inl (List.mem_cons_of_mem s' hss)
    · by_cases hp : p = s'.place
      · subst hp
        rw [at?_apply_place] at hput
        split at hput
        · cases hput
          exact .inl List.mem_cons_self
        · cases hput
      · rw [at?_apply_of_ne m hp] at hput
        exact .inr hput

theorem at?_foldl_of_sole {ss : List Setting} {s : Setting} (h : s ∈ ss)
    (hsole : ∀ s' ∈ ss, s'.place = s.place → s' = s) (m : Machine) :
    (ss.foldl apply m).at? s.place = if s.isGiven then some s else none := by
  induction ss generalizing m with
  | nil => cases h
  | cons s' ss ih =>
    have hrest : ∀ t ∈ ss, t.place = s.place → t = s := fun t ht =>
      hsole t (List.mem_cons_of_mem s' ht)
    rw [List.foldl_cons]
    by_cases hs : s ∈ ss
    · exact ih hs hrest _
    · have hhead : s = s' := (List.mem_cons.1 h).resolve_right hs
      have habsent : ∀ t ∈ ss, t.place ≠ s.place := fun t ht hplace =>
        hs (hrest t ht hplace ▸ ht)
      rw [at?_foldl_of_absent habsent, ← hhead, at?_apply_place]

/-! ### Options -/

variable {o : Options} {m : Machine}

theorem exists_settings (hm : ofOptions o = .ok m) : ∃ ss : List Setting, m = ss.foldl apply {} ∧
    ∀ s, s ∈ ss ↔ ∃ k v, o.get? k = some v ∧ Setting.read k v = .ok s := by
  obtain ⟨ss, hread, rfl⟩ := ofOptions_eq_ok.1 hm
  obtain ⟨hleft, hright⟩ := mem_of_forall₂ hread
  refine ⟨ss, rfl, fun s => ⟨fun hs => ?_, ?_⟩⟩
  · obtain ⟨e, he, hs⟩ := hright s hs
    exact ⟨e.1, e.2, KeyMap.mem_entries.1 he, hs⟩
  · rintro ⟨k, v, hget, hs⟩
    obtain ⟨s', hs', hread'⟩ := hleft (k, v) (KeyMap.mem_entries.2 hget)
    rwa [Except.ok.inj (hs.symm.trans hread')]

theorem exists_option_of_at? (hm : ofOptions o = .ok m) {p : Place} {s : Setting}
    (h : m.at? p = some s) : ∃ k v, o.get? k = some v ∧ Setting.read k v = .ok s := by
  obtain ⟨ss, rfl, hss⟩ := exists_settings hm
  rcases mem_of_at?_foldl h with hs | hempty
  · exact (hss s).1 hs
  · rw [at?_empty] at hempty
    cases hempty

theorem at?_eq_none (hm : ofOptions o = .ok m) {p : Place}
    (h : ∀ k v, o.get? k = some v → Place.ofKey k ≠ p) : m.at? p = none := by
  cases hp : m.at? p with
  | none => rfl
  | some s =>
    obtain ⟨k, v, hget, hread⟩ := exists_option_of_at? hm hp
    rw [← place_of_at? hp, Setting.read_place hread] at h
    exact absurd rfl (h k v hget)

theorem at?_of_option (hm : ofOptions o = .ok m) {k v : String} {s : Setting}
    (hget : o.get? k = some v) (hread : Setting.read k v = .ok s)
    (hsole : ∀ k' v', o.get? k' = some v' → Place.ofKey k' = Place.ofKey k → k' = k) :
    m.at? (Place.ofKey k) = if s.isGiven then some s else none := by
  obtain ⟨ss, rfl, hss⟩ := exists_settings hm
  rw [← Setting.read_place hread]
  refine at?_foldl_of_sole ((hss s).2 ⟨k, v, hget, hread⟩) (fun s' hs' hplace => ?_) _
  obtain ⟨k', v', hget', hread'⟩ := (hss s').1 hs'
  rw [Setting.read_place hread, Setting.read_place hread'] at hplace
  obtain rfl := hsole k' v' hget' hplace
  rw [hget] at hget'
  cases hget'
  exact Except.ok.inj (hread'.symm.trans hread)

/-- What is at a place was read of the options for this place alone. -/
theorem exists_ofOptions_filter (hm : ofOptions o = .ok m) (p : Place) :
    ∃ mp, ofOptions (o.filter fun k _ => Place.ofKey k = p) = .ok mp ∧ mp.at? p = m.at? p := by
  obtain ⟨ss, hread, rfl⟩ := ofOptions_eq_ok.1 hm
  refine ⟨(ss.filter (·.place = p)).foldl apply {}, ofOptions_eq_ok.2 ⟨_, ?_, rfl⟩, ?_⟩
  · have hplaces : List.Forall₂ (fun e s => Setting.read e.1 e.2 = .ok s)
        (o.entries.filter fun e => Place.ofKey e.1 = p) (ss.filter (·.place = p)) := by
      refine List.rel_filter (fun e s hs => ?_) hread
      simp [Setting.read_place hs]
    exact hplaces
  · exact (at?_foldl_filter ss p {}).symm

theorem at?_congr {o' : Options} {m' : Machine} (hm : ofOptions o = .ok m)
    (hm' : ofOptions o' = .ok m') {p : Place}
    (h : ∀ k, Place.ofKey k = p → o'.get? k = o.get? k) : m'.at? p = m.at? p := by
  have hsame : (o'.filter fun k _ => Place.ofKey k = p) =
      o.filter fun k _ => Place.ofKey k = p := by
    apply KeyMap.ext_get?
    intro k
    rw [KeyMap.get?_filter, KeyMap.get?_filter]
    split
    · next hk => exact h k (by simpa using hk)
    · rfl
  obtain ⟨mp, hmp, hat⟩ := exists_ofOptions_filter hm p
  obtain ⟨mp', hmp', hat'⟩ := exists_ofOptions_filter hm' p
  rw [hsame, hmp] at hmp'
  cases hmp'
  rw [← hat, ← hat']

/-! ### Options after a change -/

section change
variable {c : Change} {m' : Machine}

theorem at?_of_unset (hm : ofOptions o = .ok m) (hm' : ofOptions (c.applyTo o) = .ok m')
    (hdelete : c.delete = ∅) {p : Place}
    (h : ∀ k v, c.set.get? k = some v → Place.ofKey k ≠ p) : m'.at? p = m.at? p := by
  apply at?_congr hm hm'
  intro k hk
  apply Change.get?_applyTo_of_unnamed _ hdelete
  cases hset : c.set.get? k with
  | none => rfl
  | some v => exact absurd hk (h k v hset)

theorem at?_of_set (hm' : ofOptions (c.applyTo o) = .ok m') {k v : String} {s : Setting}
    (hset : c.set.get? k = some v) (hread : Setting.read k v = .ok s)
    (hsole : ∀ k' v', c.set.get? k' = some v' ∨ o.get? k' = some v' →
      Place.ofKey k' = Place.ofKey k → k' = k) :
    m'.at? (Place.ofKey k) = if s.isGiven then some s else none := by
  apply at?_of_option hm' (Change.get?_applyTo_of_set hset o) hread
  intro k' v' hget
  apply hsole k' v'
  rw [Change.get?_applyTo] at hget
  cases hset' : c.set.get? k' with
  | some w =>
    rw [hset'] at hget
    exact .inl hget
  | none =>
    rw [hset'] at hget
    split at hget
    · cases hget
    · exact .inr hget

end change
end Machine
end NodeProvisioner
