import Mathlib.Data.List.Forall2
import NodeProvisioner.Machine.Config
import NodeProvisioner.Proofs.KeyMap

/-! What is read of the options of a machine. Where one option alone decides a part of the
configuration, that part can be told from this option. -/
namespace NodeProvisioner

variable {α β : Type}

theorem exists_forall₂ {R : α → β → Prop} {xs : List α} :
    (∃ ys, List.Forall₂ R xs ys) ↔ ∀ x ∈ xs, ∃ y, R x y := by
  induction xs with
  | nil => simp
  | cons x xs ih =>
    simp only [List.forall₂_cons_left_iff, List.forall_mem_cons, ← ih]
    constructor
    · rintro ⟨_, y, ys, hy, hys, rfl⟩
      exact ⟨⟨y, hy⟩, ys, hys⟩
    · rintro ⟨⟨y, hy⟩, ys, hys⟩
      exact ⟨y :: ys, y, ys, hy, hys, rfl⟩

theorem mem_of_forall₂ {R : α → β → Prop} {xs : List α} {ys : List β}
    (h : List.Forall₂ R xs ys) :
    (∀ x ∈ xs, ∃ y ∈ ys, R x y) ∧ ∀ y ∈ ys, ∃ x ∈ xs, R x y := by
  induction h with
  | nil => simp
  | cons hxy _ ih =>
    simp only [List.forall_mem_cons, List.exists_mem_cons_iff]
    exact ⟨⟨.inl hxy, fun x hx => .inr (ih.1 x hx)⟩, .inl hxy, fun y hy => .inr (ih.2 y hy)⟩

namespace Unreadable

theorem map_eq_ok {x : Except Unreadable α} {f : α → β} {b : β} (h : f <$> x = .ok b) :
    ∃ a, x = .ok a ∧ f a = b := by
  cases x with
  | error e => cases h
  | ok a => exact ⟨a, rfl, Except.ok.inj h⟩

theorem mapM_eq_ok {f : α → Except Unreadable β} {xs : List α} {ys : List β} :
    xs.mapM f = .ok ys ↔ List.Forall₂ (fun x y => f x = .ok y) xs ys := by
  induction xs generalizing ys with
  | nil => cases ys <;> simp [pure, Except.pure]
  | cons x xs ih =>
    rw [List.mapM_cons]
    cases hx : f x with
    | error e => cases ys <;> simp [bind, Except.bind, hx]
    | ok y =>
      cases hxs : xs.mapM f with
      | error e =>
        cases ys with
        | nil => simp [bind, Except.bind]
        | cons y' ys => simp [bind, Except.bind, ← ih, hxs]
      | ok ys' =>
        cases ys with
        | nil => simp [bind, Except.bind, pure, Except.pure]
        | cons y' ys => simp [bind, Except.bind, pure, Except.pure, ← ih, hxs, hx]

end Unreadable

namespace Setting

theorem readNumber_eq_ok {read : String → Option α} {key value : String} {n : α} :
    readNumber read key value = .ok n ↔ read value = some n := by
  unfold readNumber
  split <;> simp_all

def key? : Setting → Option String
  | nic _ _ | addressing _ _ | passthrough _ _ => none
  | s => some s.write.1

theorem readNumbered_key {key value : String} {s : Setting} (h : readNumbered key value = .ok s) :
    ∀ k ∈ s.key?, k = key := by
  unfold readNumbered at h
  split at h
  · obtain ⟨n, -, rfl⟩ := Unreadable.map_eq_ok h
    exact nofun
  split at h
  · obtain ⟨a, -, rfl⟩ := Unreadable.map_eq_ok h
    exact nofun
  split at h
  · obtain ⟨p, -, rfl⟩ := Unreadable.map_eq_ok h
    exact nofun
  split at h
  · obtain ⟨d, -, rfl⟩ := Unreadable.map_eq_ok h
    rintro _ ⟨⟩
    rfl
  · cases h
    rintro _ ⟨⟩
    rfl

theorem read_key {key value : String} {s : Setting} (h : read key value = .ok s) :
    ∀ k ∈ s.key?, k = key := by
  unfold read at h
  split at h
  -- the three numbers and the affinity, which can be ill-formed
  case h_5 | h_6 | h_7 | h_9 =>
    obtain ⟨_, -, rfl⟩ := Unreadable.map_eq_ok h
    rintro _ ⟨⟩
    rfl
  -- no fixed key
  case h_15 =>
    split at h
    · cases h
      rintro _ ⟨⟩
      rfl
    · exact readNumbered_key h
  all_goals
    cases h
    rintro _ ⟨⟩
    rfl

theorem readNumbered_disk {key value slot : String} {d : Disk}
    (h : readNumbered key value = .ok (.disk slot d)) : isDiskSlot key = true ∧
      Disk.parse value = .ok d ∧
        ∀ value', readNumbered key value' = (disk key ·) <$> Disk.parse value' := by
  -- The numbered devices come first, and none of them is read as a disk.
  unfold readNumbered at h ⊢
  cases hnet : index? "net" key with
  | some i =>
    rw [hnet] at h
    obtain ⟨n, -, hn⟩ := Unreadable.map_eq_ok h
    cases hn
  | none =>
  cases hip : index? "ipconfig" key with
  | some i =>
    rw [hnet, hip] at h
    obtain ⟨a, -, ha⟩ := Unreadable.map_eq_ok h
    cases ha
  | none =>
  cases hpci : index? "hostpci" key with
  | some i =>
    rw [hnet, hip, hpci] at h
    obtain ⟨p, -, hp⟩ := Unreadable.map_eq_ok h
    cases hp
  | none =>
  rw [hnet, hip, hpci] at h
  by_cases hslot : isDiskSlot key = true
  · rw [if_pos hslot] at h
    obtain ⟨d', hd', hdisk⟩ := Unreadable.map_eq_ok h
    cases hdisk
    exact ⟨hslot, hd', fun value' => if_pos hslot⟩
  · rw [if_neg hslot] at h
    cases h

/-- Where one text is read as a disk, the key is a slot, and every text is read as a disk. -/
theorem read_disk {key value slot : String} {d : Disk} (h : read key value = .ok (.disk slot d)) :
    isDiskSlot key = true ∧ Disk.parse value = .ok d ∧
      ∀ value', read key value' = (disk key ·) <$> Disk.parse value' := by
  unfold read at h
  split at h
  case h_5 | h_6 | h_7 | h_9 =>
    obtain ⟨_, -, hn⟩ := Unreadable.map_eq_ok h
    cases hn
  case h_15 =>
    split at h
    · cases h
    · next hcloud =>
      have hnumbered (value' : String) : read key value' = readNumbered key value' := by
        simp only [read, *, Bool.false_eq_true, if_false]
      simp only [hnumbered]
      exact readNumbered_disk h
  all_goals cases h

end Setting

def Options.Readable (o : Options) : Prop :=
  ∀ key value, o.get? key = some value → ∃ s, Setting.read key value = .ok s

theorem Options.readable_insert {o : Options} {key value : String} {s : Setting} (ho : o.Readable)
    (h : Setting.read key value = .ok s) : Options.Readable (o.insert key value) := by
  intro key' value' hget
  rw [KeyMap.get?_insert] at hget
  split at hget
  · next hkey =>
    cases hget
    exact ⟨s, hkey ▸ h⟩
  · exact ho key' value' hget

namespace Machine

theorem ofOptions_eq_ok {o : Options} {m : Machine} : ofOptions o = .ok m ↔ ∃ settings,
    List.Forall₂ (fun e s => Setting.read e.1 e.2 = .ok s) o.entries settings ∧
      m = settings.foldl apply {} := by
  unfold ofOptions
  simp only [← Unreadable.mapM_eq_ok]
  cases o.entries.mapM fun e => Setting.read e.1 e.2 with
  | error e => simp [bind, Except.bind]
  | ok settings => simp [bind, Except.bind, pure, Except.pure, eq_comm]

theorem readable_iff {o : Options} : o.Readable ↔ ∃ m, ofOptions o = .ok m := by
  have hentries : o.Readable ↔ ∀ e ∈ o.entries, ∃ s, Setting.read e.1 e.2 = .ok s := by
    simp only [Options.Readable, KeyMap.mem_entries, Prod.forall]
  rw [hentries, ← exists_forall₂]
  constructor
  · rintro ⟨settings, h⟩
    exact ⟨_, ofOptions_eq_ok.2 ⟨settings, h, rfl⟩⟩
  · rintro ⟨m, h⟩
    obtain ⟨settings, hread, -⟩ := ofOptions_eq_ok.1 h
    exact ⟨settings, hread⟩

/-- A part of the configuration that the option of one key decides. -/
structure Decides (key : String) (given : String → β) (part : Machine → β) : Prop where
  others : ∀ {m : Machine} {k v : String} {s : Setting}, Setting.read k v = .ok s → k ≠ key →
    part (m.apply s) = part m
  own : ∀ {m : Machine} {v : String} {s : Setting}, Setting.read key v = .ok s →
    part m = part {} → part (m.apply s) = given v

namespace Decides
variable {key : String} {given : String → β} {part : Machine → β}

theorem foldl_unchanged (h : Decides key given part) {es : List (String × String)}
    {settings : List Setting}
    (hread : List.Forall₂ (fun e s => Setting.read e.1 e.2 = .ok s) es settings)
    (hkey : ∀ e ∈ es, e.1 ≠ key) (m : Machine) : part (settings.foldl apply m) = part m := by
  induction hread generalizing m with
  | nil => rfl
  | cons hs _ ih =>
    obtain ⟨he, hes⟩ := List.forall_mem_cons.1 hkey
    rw [List.foldl_cons, ih hes, h.others hs he]

theorem foldl_apply (h : Decides key given part) {es : List (String × String)}
    {settings : List Setting}
    (hread : List.Forall₂ (fun e s => Setting.read e.1 e.2 = .ok s) es settings)
    (hes : es.Pairwise fun a b => compare a.1 b.1 = .lt) {m : Machine} (hm : part m = part {}) :
    part (settings.foldl apply m) = ((KeyMap.find key es).map given).getD (part {}) := by
  induction hread generalizing m with
  | nil => exact hm
  | @cons e s es settings hs hread ih =>
    obtain ⟨he, hrest⟩ := List.pairwise_cons.1 hes
    rw [List.foldl_cons, KeyMap.find_cons]
    split
    · next hkey =>
      subst hkey
      have hkeys : ∀ e' ∈ es, e'.1 ≠ e.1 := fun e' he' => (KeyMap.ne_of_lt (he e' he')).symm
      rw [h.foldl_unchanged hread hkeys, h.own hs hm]
      rfl
    · next hkey => exact ih hrest ((h.others hs (Ne.symm hkey)).trans hm)

theorem part_eq (h : Decides key given part) {o : Options} {m : Machine}
    (hm : ofOptions o = .ok m) : part m = ((o.get? key).map given).getD (part {}) := by
  obtain ⟨settings, hread, rfl⟩ := ofOptions_eq_ok.1 hm
  exact h.foldl_apply hread o.ascending rfl

theorem part_of_get? (h : Decides key given part) {o : Options} {m : Machine} {value : String}
    (hm : ofOptions o = .ok m) (hvalue : o.get? key = some value) : part m = given value := by
  rw [h.part_eq hm, hvalue]
  rfl

theorem part_congr (h : Decides key given part) {o o' : Options} {m m' : Machine}
    (hm : ofOptions o = .ok m) (hm' : ofOptions o' = .ok m') (hkey : o'.get? key = o.get? key) :
    part m' = part m := by
  rw [h.part_eq hm, h.part_eq hm', hkey]

theorem of_key (hothers : ∀ (m : Machine) (s : Setting), s.key? ≠ some key →
      part (m.apply s) = part m)
    (own : ∀ {m : Machine} {v : String} {s : Setting}, Setting.read key v = .ok s →
      part m = part {} → part (m.apply s) = given v) : Decides key given part where
  others h hne := hothers _ _ fun hkey => hne (Setting.read_key h _ hkey).symm
  own := own

theorem of_number {read : String → Option α} {set : α → Setting} {part : Machine → Option α}
    (hothers : ∀ (m : Machine) (s : Setting), s.key? ≠ some key → part (m.apply s) = part m)
    (hread : ∀ v, Setting.read key v = set <$> Setting.readNumber read key v)
    (hset : ∀ (m : Machine) (n : α), part (m.apply (set n)) = some n) :
    Decides key read part := by
  refine .of_key hothers fun {m v s} h _ => ?_
  rw [hread] at h
  obtain ⟨n, hn, rfl⟩ := Unreadable.map_eq_ok h
  rw [hset, Setting.readNumber_eq_ok.1 hn]

end Decides

theorem decides_cores : Decides "cores" Text.readUInt32? (·.cores) :=
  .of_number (fun m s h => by cases s <;> first | rfl | exact absurd rfl h) (fun _ => rfl)
    fun _ _ => rfl

theorem decides_sockets : Decides "sockets" Text.readUInt32? (·.sockets) :=
  .of_number (fun m s h => by cases s <;> first | rfl | exact absurd rfl h) (fun _ => rfl)
    fun _ _ => rfl

theorem decides_memory : Decides "memory" Text.readUInt64? (·.memoryMib) :=
  .of_number (fun m s h => by cases s <;> first | rfl | exact absurd rfl h) (fun _ => rfl)
    fun _ _ => rfl

theorem decides_numa : Decides "numa" (· == "1") (·.numa) := by
  refine .of_key (fun m s h => ?_) fun {m v s} h _ => ?_
  · cases s <;> first | rfl | exact absurd rfl h
  · cases h
    rfl

theorem decides_affinity :
    Decides "affinity" (fun v => (CpuSet.parse v).toOption) (·.affinity) := by
  refine .of_key (fun m s h => ?_) fun {m v s} h _ => ?_
  · cases s <;> first | rfl | exact absurd rfl h
  · obtain ⟨set, hset, rfl⟩ := Unreadable.map_eq_ok h
    rw [hset]
    rfl

theorem decides_description : Decides "description" some (·.description) := by
  refine .of_key (fun m s h => ?_) fun {m v s} h _ => ?_
  · cases s <;> first | rfl | exact absurd rfl h
  · cases h
    rfl

theorem decides_cpu : Decides "cpu" (fun v => some (CpuModel.parse v)) (·.cpu) := by
  refine .of_key (fun m s h => ?_) fun {m v s} h _ => ?_
  · cases s <;> first | rfl | exact absurd rfl h
  · cases h
    rfl

theorem decides_boot : Decides "boot" some (·.other.get? "boot") := by
  refine .of_key (fun m s h => ?_) fun {m v s} h _ => ?_
  · cases s with
    | other key value =>
      have hne : "boot" ≠ key := fun heq => h (congrArg some heq.symm)
      exact (KeyMap.get?_insert _ _ _ _).trans (if_neg hne)
    | _ => rfl
  · cases h
    exact KeyMap.get?_insert_self _ _ _

def diskOf? (slot value : String) : Option Disk :=
  match Setting.read slot value with
  | .ok (.disk _ d) => some d
  | _ => none

theorem diskOf?_eq_some {slot value : String} {d : Disk} (h : diskOf? slot value = some d) :
    Setting.isDiskSlot slot = true ∧ Disk.parse value = .ok d ∧
      ∀ text d', Disk.parse text = .ok d' →
        Setting.read slot text = .ok (.disk slot d') ∧ diskOf? slot text = some d' := by
  unfold diskOf? at h ⊢
  split at h
  · next slot' d' hread =>
    cases h
    obtain ⟨hslot, hparse, hall⟩ := Setting.read_disk hread
    refine ⟨hslot, hparse, fun text d' htext => ?_⟩
    simp [hall, htext]
  · cases h

theorem decides_disk (slot : String) : Decides slot (diskOf? slot) (·.disks.get? slot) := by
  refine .of_key (fun m s h => ?_) fun {m v s} h hm => ?_
  · cases s with
    | disk slot' d =>
      have hne : slot ≠ slot' := fun heq => h (congrArg some heq.symm)
      exact (KeyMap.get?_insert _ _ _ _).trans (if_neg hne)
    | _ => rfl
  · unfold diskOf?
    rw [h]
    cases s with
    | disk slot' d =>
      obtain rfl := Setting.read_key h slot' rfl
      exact KeyMap.get?_insert_self _ _ _
    | _ => exact hm

theorem exists_option_of_disk {o : Options} {m : Machine} {slot : String} {d : Disk}
    (hm : ofOptions o = .ok m) (h : m.disks.get? slot = some d) :
    ∃ value, o.get? slot = some value ∧ diskOf? slot value = some d := by
  have hpart := (decides_disk slot).part_eq hm
  rw [h] at hpart
  cases hvalue : o.get? slot with
  | none =>
    rw [hvalue] at hpart
    cases hpart
  | some value =>
    rw [hvalue] at hpart
    exact ⟨value, rfl, hpart.symm⟩

theorem disks_get?_eq_none {o : Options} {m : Machine} {key : String} (hm : ofOptions o = .ok m)
    (hkey : Setting.isDiskSlot key = false) : m.disks.get? key = none := by
  cases hget : m.disks.get? key with
  | none => rfl
  | some d =>
    obtain ⟨value, -, hdisk⟩ := exists_option_of_disk hm hget
    simp [(diskOf?_eq_some hdisk).1] at hkey

end Machine
end NodeProvisioner
