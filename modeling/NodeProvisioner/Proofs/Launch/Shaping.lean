import NodeProvisioner.Proofs.Calls
import NodeProvisioner.Proofs.Device.CpuSet
import NodeProvisioner.Proofs.Device.Disk
import NodeProvisioner.Proofs.Machine.Booting
import NodeProvisioner.Proofs.Machine.Change
import NodeProvisioner.Proofs.Machine.Provenance

/-! What a machine is told to hold when it goes, against what was granted for it when it came. The
shape that a launch writes is read back, and giving back what is read undoes the grant. -/
namespace NodeProvisioner

namespace Shape
variable {clusterName : String} {clsTags : List String} {clone : Machine} {granted : Reservation}
  {p : Provenance}

def written (clusterName : String) (clsTags : List String) (clone : Machine)
    (granted : Reservation) (p : Provenance) : List (String × String) :=
  [("cores", cores granted), ("sockets", "1"), ("memory", memory granted),
    ("tags", Setting.writeTags (tags clusterName clone.tags clsTags)),
    ("description", p.render)] ++ pinning granted

def keys : List String := ["cores", "sockets", "memory", "tags", "description", "affinity", "numa"]

theorem cores_written : ("cores", cores granted) ∈ written clusterName clsTags clone granted p := by
  simp [written]

theorem sockets_written : ("sockets", "1") ∈ written clusterName clsTags clone granted p := by
  simp [written]

theorem memory_written :
    ("memory", memory granted) ∈ written clusterName clsTags clone granted p := by
  simp [written]

theorem description_written :
    ("description", p.render) ∈ written clusterName clsTags clone granted p := by
  simp [written]

theorem pinning_written {set : CpuSet} (h : granted.cpuSet = some set) :
    ("affinity", set.render) ∈ written clusterName clsTags clone granted p ∧
      ("numa", "1") ∈ written clusterName clsTags clone granted p := by
  simp [written, pinning, h]

theorem written_keys :
    ((written clusterName clsTags clone granted p).map (·.1)).Sublist keys := by
  unfold written pinning
  cases granted.cpuSet with
  | none => exact (by decide : ["cores", "sockets", "memory", "tags", "description"].Sublist keys)
  | some set => exact List.Sublist.refl keys

theorem options_get? {k v : String} (h : (k, v) ∈ written clusterName clsTags clone granted p) :
    (options clusterName clsTags clone granted p).set.get? k = some v :=
  Change.get?_putAll_of_mem (written_keys.nodup (by decide)) h {}

theorem options_unnamed {k : String} (h : k ∉ keys) :
    (options clusterName clsTags clone granted p).set.get? k = none :=
  Change.get?_putAll_of_not_mem (fun hk => h (written_keys.subset hk)) {}

theorem options_delete : (options clusterName clsTags clone granted p).delete = ∅ :=
  Change.putAll_delete rfl _

theorem written_readable : ∀ e ∈ written clusterName clsTags clone granted p,
    ∃ s, Setting.read e.1 e.2 = .ok s := by
  have hcores : Setting.readNumber Text.readUInt32? "cores" (cores granted) = .ok granted.cpus :=
    Setting.readNumber_eq_ok.2 (Text.readUInt32?_numeral _)
  have hmemory : Setting.readNumber Text.readUInt64? "memory" (memory granted) =
      .ok granted.memoryMib := Setting.readNumber_eq_ok.2 (Text.readUInt64?_numeral _)
  have hpinning : ∀ e ∈ pinning granted, ∃ s, Setting.read e.1 e.2 = .ok s := by
    unfold pinning
    cases granted.cpuSet with
    | none => nofun
    | some set =>
      have hset : Setting.read "affinity" set.render = .ok (.affinity set) :=
        congrArg (Setting.affinity <$> ·) set.parse_render
      exact List.forall_mem_cons.2 ⟨⟨_, hset⟩, List.forall_mem_singleton.2 ⟨_, rfl⟩⟩
  refine List.forall_mem_append.2 ⟨?_, hpinning⟩
  simp only [List.forall_mem_cons, List.not_mem_nil, false_implies, implies_true, and_true]
  exact ⟨⟨_, congrArg (Setting.cores <$> ·) hcores⟩, ⟨.sockets 1, rfl⟩,
    ⟨_, congrArg (Setting.memory <$> ·) hmemory⟩, ⟨_, rfl⟩, ⟨_, rfl⟩⟩

theorem options_readable :
    Options.Readable (options clusterName clsTags clone granted p).set := by
  intro k v h
  have hmem : (k, v) ∈ written clusterName clsTags clone granted p :=
    (Change.mem_of_get?_putAll h).resolve_right nofun
  exact written_readable _ hmem

theorem applied_written {k v : String} (h : (k, v) ∈ written clusterName clsTags clone granted p)
    (o : Options) : ((options clusterName clsTags clone granted p).applyTo o).get? k = some v :=
  Change.get?_applyTo_of_set (options_get? h) o

theorem applied_unnamed {k : String} (h : k ∉ keys) (o : Options) :
    ((options clusterName clsTags clone granted p).applyTo o).get? k = o.get? k :=
  Change.get?_applyTo_of_unnamed (options_unnamed h) options_delete o

def Shapes (clusterName : String) (clsTags : List String) (clone : Machine) (granted : Reservation)
    (p : Provenance) (o : Options) : Prop :=
  ∀ e ∈ written clusterName clsTags clone granted p, o.get? e.1 = some e.2

theorem shapes_applied (o : Options) : Shapes clusterName clsTags clone granted p
    ((options clusterName clsTags clone granted p).applyTo o) :=
  fun _ he => applied_written he o

section Shapes
variable {o : Options} {m : Machine} (hm : Machine.ofOptions o = .ok m)
  (h : Shapes clusterName clsTags clone granted p o)
include hm h

theorem Shapes.vcpus : m.vcpus = granted.cpus := by
  have hcores : m.cores = some granted.cpus :=
    (Machine.decides_cores.part_of_get? hm (h _ cores_written)).trans (Text.readUInt32?_numeral _)
  have hsockets : m.sockets = some 1 :=
    Machine.decides_sockets.part_of_get? hm (h _ sockets_written)
  simp [Machine.vcpus, hcores, hsockets]

theorem Shapes.memory : m.memoryMib = some granted.memoryMib :=
  (Machine.decides_memory.part_of_get? hm (h _ memory_written)).trans (Text.readUInt64?_numeral _)

theorem Shapes.pinning {set : CpuSet} (hset : granted.cpuSet = some set) :
    m.affinity = some set ∧ m.numa = true := by
  obtain ⟨haffinity, hnuma⟩ := pinning_written hset
  refine ⟨?_, Machine.decides_numa.part_of_get? hm (h _ hnuma)⟩
  rw [Machine.decides_affinity.part_of_get? hm (h _ haffinity), set.parse_render]
  rfl

theorem Shapes.provenance (hplain : p.Plain) : m.provenance = p := by
  have hdescription : m.description = some p.render :=
    Machine.decides_description.part_of_get? hm (h _ description_written)
  rw [Machine.provenance, hdescription]
  exact Provenance.parse_render hplain

end Shapes

theorem not_isDiskSlot : ∀ key ∈ "boot" :: keys, Setting.isDiskSlot key = false := by decide

end Shape

/-- The options of a machine after a request, where `text` is what the hypervisor writes for a disk
that was given another size. -/
def Hypervisor.Request.effect (text : String) (o : Options) : Hypervisor.Request → Options
  | .configure _ _ change => change.applyTo o
  | .resizeDisk _ _ slot _ => o.insert slot text
  | _ => o

def Call.resizes : Call → Bool
  | .hypervisor _ (.resizeDisk _ _ _ _) => true
  | _ => false

/-- Where it succeeds, the job begins with these requests, and resizes no disk after them. -/
def Job.BeginsWith {α : Type} (region : String) (requests : List Hypervisor.Request)
    (j : Job α) : Prop :=
  j.Ensures fun t r => ∀ a, r = .ok a → ∃ rest,
    t.calls = requests.map (.hypervisor region ·) ++ rest ∧ ∀ call ∈ rest, call.resizes = false

namespace Candidate
variable {settings : Settings} {c : Candidate} {t : TemplateEntry} {machine : MachineId}
  {granted : Reservation} {o : Options} {clone : Machine} {slot : String} {boot : Disk}
  {text : String}

/-- The requests that give a clone its shape and, if its boot disk is too small, another size. -/
def shaping (settings : Settings) (c : Candidate) (t : TemplateEntry) (machine : MachineId)
    (granted : Reservation) (clone : Machine) (slot : String) (boot : Disk) :
    List Hypervisor.Request :=
  .configure c.zone machine
      (Shape.options settings.clusterName c.cls.spec.tags clone granted (c.provenance t)) ::
    if c.needsResize boot then [.resizeDisk c.zone machine slot c.diskGib] else []

theorem shapeClone_begins (hboot : clone.bootDisk? = some (slot, boot)) :
    (shapeClone settings c t machine granted clone).BeginsWith c.region
      (c.shaping settings t machine granted clone slot boot) := by
  have hnetwork : (Networking.configure ⟨c.region, c.zone, machine⟩ clone).Only
      fun call => call.resizes = false :=
    Networking.configure_only rfl (fun _ _ => rfl) (fun _ _ => rfl) rfl
  have hgroups : (c.applyGroups machine c.cls.spec.securityGroups).Only
      fun call => call.resizes = false := applyGroups_only (fun _ => rfl) _
  have hrest : (do
      let views ← Networking.configure ⟨c.region, c.zone, machine⟩ clone
      c.applyGroups machine c.cls.spec.securityGroups
      return views : Job (List GuestInterface)).Only fun call => call.resizes = false :=
    hnetwork.bind fun _ => hgroups.bind fun _ => Job.only_pure _
  have hcalls {t' : Trace} (h : ∀ e ∈ t', e.call.resizes = false) :
      ∀ call ∈ t'.calls, call.resizes = false := List.forall_mem_map.2 h
  unfold shapeClone
  refine (Job.ensures_bind _ _ _).2 ((Hypervisor.ensures_send _ _ _).2 fun r => ?_)
  rcases r with e | u
  · exact nofun
  dsimp only
  rw [hboot]
  dsimp only
  unfold shaping
  split
  · refine (Job.ensures_bind _ _ _).2 ((Hypervisor.ensures_send _ _ _).2 fun r => ?_)
    rcases r with e | u
    · exact nofun
    refine Job.Ensures.mono hrest fun t' r h _ _ => ⟨t'.calls, rfl, hcalls h⟩
  · refine Job.Ensures.mono hrest fun t' r h _ _ => ⟨t'.calls, rfl, hcalls h⟩

def shapedOptions (settings : Settings) (c : Candidate) (t : TemplateEntry) (machine : MachineId)
    (granted : Reservation) (clone : Machine) (slot : String) (boot : Disk) (text : String)
    (o : Options) : Options :=
  (c.shaping settings t machine granted clone slot boot).foldl
    (Hypervisor.Request.effect text) o

def grown (c : Candidate) (boot : Disk) : Disk :=
  if c.needsResize boot then boot.resized c.diskGib else boot

theorem shapedOptions_get? {key : String} (h : key ≠ slot) :
    (c.shapedOptions settings t machine granted clone slot boot text o).get? key =
      ((Shape.options settings.clusterName c.cls.spec.tags clone granted
        (c.provenance t)).applyTo o).get? key := by
  unfold shapedOptions shaping
  split
  · exact (KeyMap.get?_insert _ _ _ _).trans (if_neg h)
  · rfl

section clone
variable (hclone : Machine.ofOptions o = .ok clone) (hslot : clone.disks.get? slot = some boot)
  (htext : Disk.parse text = .ok (boot.resized c.diskGib))
include hclone hslot

theorem ne_slot {key : String} (h : key ∈ "boot" :: Shape.keys) : key ≠ slot := by
  obtain ⟨value, -, hdisk⟩ := Machine.exists_option_of_disk hclone hslot
  rintro rfl
  have hkey := (Machine.diskOf?_eq_some hdisk).1
  rw [Shape.not_isDiskSlot key h] at hkey
  cases hkey

include htext

theorem read_text : Setting.read slot text = .ok (.disk slot (boot.resized c.diskGib)) ∧
    Machine.diskOf? slot text = some (boot.resized c.diskGib) := by
  obtain ⟨value, -, hdisk⟩ := Machine.exists_option_of_disk hclone hslot
  exact (Machine.diskOf?_eq_some hdisk).2.2 text _ htext

theorem shapedOptions_readable :
    (c.shapedOptions settings t machine granted clone slot boot text o).Readable := by
  have happlied : ((Shape.options settings.clusterName c.cls.spec.tags clone granted
      (c.provenance t)).applyTo o).Readable :=
    Change.readable_applyTo Shape.options_readable (Machine.readable_iff.2 ⟨clone, hclone⟩)
  unfold shapedOptions shaping
  split
  · exact Options.readable_insert happlied (read_text hclone hslot htext).1
  · exact happlied

variable {after : Machine} (hafter : Machine.ofOptions
  (c.shapedOptions settings t machine granted clone slot boot text o) = .ok after)
include hafter

theorem after_disk : after.disks.get? slot = some (c.grown boot) := by
  unfold grown
  by_cases hresize : c.needsResize boot = true
  · have htold : (c.shapedOptions settings t machine granted clone slot boot text o).get? slot =
        some text := by
      simp only [shapedOptions, shaping, if_pos hresize]
      exact KeyMap.get?_insert_self _ _ _
    rw [if_pos hresize, ← (read_text hclone hslot htext).2]
    exact (Machine.decides_disk slot).part_of_get? hafter htold
  · have hnamed : slot ∉ Shape.keys := fun h =>
      ne_slot hclone hslot (List.mem_cons_of_mem _ h) rfl
    have htold : (c.shapedOptions settings t machine granted clone slot boot text o).get? slot =
        o.get? slot := by
      simp only [shapedOptions, shaping, if_neg hresize]
      exact Shape.applied_unnamed hnamed o
    rw [if_neg hresize, ← hslot]
    exact (Machine.decides_disk slot).part_congr hclone hafter htold

theorem after_disks : after.disks = clone.disks.insert slot (c.grown boot) := by
  refine KeyMap.ext_get? fun key => ?_
  rw [KeyMap.get?_insert]
  split
  · next hkey =>
    rw [hkey]
    exact after_disk hclone hslot htext hafter
  · next hkey =>
    by_cases hnamed : key ∈ Shape.keys
    -- The shape writes here, but no disk has such a key, before or after.
    · have hno := Shape.not_isDiskSlot key (List.mem_cons_of_mem _ hnamed)
      rw [Machine.disks_get?_eq_none hafter hno, Machine.disks_get?_eq_none hclone hno]
    · refine (Machine.decides_disk key).part_congr hclone hafter ?_
      rw [shapedOptions_get? hkey, Shape.applied_unnamed hnamed]

omit htext

theorem after_boot : after.other.get? "boot" = clone.other.get? "boot" := by
  refine Machine.decides_boot.part_congr hclone hafter ?_
  rw [shapedOptions_get? (ne_slot hclone hslot List.mem_cons_self)]
  exact Shape.applied_unnamed (by decide) o

omit hafter

theorem shapes_shapedOptions : Shape.Shapes settings.clusterName c.cls.spec.tags clone granted
    (c.provenance t) (c.shapedOptions settings t machine granted clone slot boot text o) := by
  intro e he
  have hkey : e.1 ∈ Shape.keys := Shape.written_keys.subset (List.mem_map_of_mem he)
  rw [shapedOptions_get? (ne_slot hclone hslot (List.mem_cons_of_mem _ hkey))]
  exact Shape.applied_written he o

end clone

/-- What is told of the machine at the end undoes what was granted for it. -/
structure Restores (granted : Reservation) (machine : MachineId) (slot : String)
    (after : Machine) : Prop where
  bootSlot : ∃ d, after.bootDisk? = some (slot, d)
  compatible : granted.isCompatible (.ofMachine machine after) = true
  pinned : ∀ set, granted.cpuSet = some set →
    (Reservation.ofMachine machine after).numa = true ∧
      (Reservation.ofMachine machine after).cpuSet = some set

theorem isPlain_grown (c : Candidate) (boot : Disk) : (c.grown boot).isPlain = boot.isPlain := by
  unfold grown
  split
  · exact boot.isPlain_resized c.diskGib
  · rfl

theorem le_grown (hfits : c.diskGib.toNat * 1024 < UInt64.size) (boot : Disk) :
    c.diskGib ≤ (c.grown boot).sizeGib?.getD 0 := by
  refine Disk.le_sizeGib hfits ?_
  unfold grown
  split
  · rw [Disk.sizeMib?_resized]
    exact UInt64.le_refl _
  · next h => simpa [needsResize] using h

/-- A launch gives the clone its shape, and a larger boot disk exactly where that one is too small.
The clone is then read again as a machine that boots from the same slot. To give back what is told
of it is to give back at least what was granted. -/
theorem shaping_restores (hclone : Machine.ofOptions o = .ok clone)
    (hboot : clone.bootDisk? = some (slot, boot)) (hmachine : granted.machine = machine)
    (hdisk : granted.diskGib = c.diskGib) (hfits : c.diskGib.toNat * 1024 < UInt64.size) :
    (shapeClone settings c t machine granted clone).BeginsWith c.region
        (c.shaping settings t machine granted clone slot boot) ∧
      (∃ text, Disk.parse text = .ok (boot.resized c.diskGib)) ∧
      ∀ text, Disk.parse text = .ok (boot.resized c.diskGib) → ∃ after,
        Machine.ofOptions (c.shapedOptions settings t machine granted clone slot boot text o) =
          .ok after ∧ Restores granted machine slot after := by
  have hslot := Machine.get?_of_bootDisk? hboot
  refine ⟨shapeClone_begins hboot, ?_, fun text htext => ?_⟩
  · obtain ⟨value, -, hvalue⟩ := Machine.exists_option_of_disk hclone hslot
    exact ⟨_, Disk.parse_resized (Machine.diskOf?_eq_some hvalue).2.1 c.diskGib⟩
  · have hreadable : (c.shapedOptions settings t machine granted clone slot boot text o).Readable :=
      shapedOptions_readable hclone hslot htext
    obtain ⟨after, hafter⟩ := Machine.readable_iff.1 hreadable
    have hshapes : Shape.Shapes settings.clusterName c.cls.spec.tags clone granted (c.provenance t)
        (c.shapedOptions settings t machine granted clone slot boot text o) :=
      shapes_shapedOptions hclone hslot
    have hbootAfter := Machine.bootDisk?_insert hboot (after_boot hclone hslot hafter)
      (after_disks hclone hslot htext hafter) (isPlain_grown c boot)
    refine ⟨after, hafter, ⟨_, hbootAfter⟩, ?_, fun set hset => ?_⟩
    · have hsize := hdisk ▸ le_grown hfits boot
      simp [Reservation.isCompatible, Reservation.ofMachine, hmachine, hbootAfter, hsize,
        hshapes.vcpus hafter, hshapes.memory hafter]
    · obtain ⟨haffinity, hnuma⟩ := hshapes.pinning hafter hset
      simp [Reservation.ofMachine, haffinity, hnuma]

def pinned : Candidate where
  claim := { name := some "a", spec := { nodeClass := { name := "default" } } }
  cls := {
    name := some "default"
    spec := { template := "noble", bootDevice := { size := 30 }, numaPinning := true } }
  shape := { name := "m.large", capacity := {} }
  region := "r1"
  zone := "z1"

def noble : TemplateEntry where
  name := "noble"
  region := "r1"
  zone := "z1"
  machine := 9000
  usability := .available

def fourCpus : Reservation where
  machine := 1000
  cpus := 4
  memoryMib := 8192
  diskGib := 30
  cpuSet := some ⟨[0, 1, 2, 8], by decide⟩

def clonedOptions : Options :=
  .ofList [("boot", "order=net0;scsi0"), ("cores", "8"), ("scsi0", "local:vm-1000,size=10240M")]

def cloned : Machine where
  cores := some 8
  disks := .ofList [("scsi0", { volume := "local:vm-1000", size := some "10240M" })]
  other := .ofList [("boot", "order=net0;scsi0")]

theorem shaping_restores_pinned :
    pinned.needsResize { volume := "local:vm-1000", size := some "10240M" } = true ∧
      ∃ text after, Machine.ofOptions (pinned.shapedOptions {} noble 1000 fourCpus cloned "scsi0"
          { volume := "local:vm-1000", size := some "10240M" } text clonedOptions) = .ok after ∧
        Restores fourCpus 1000 "scsi0" after := by
  have hread : Machine.ofOptions clonedOptions = .ok cloned := by decide +kernel
  obtain ⟨-, ⟨text, htext⟩, hrestores⟩ := @shaping_restores {} pinned noble 1000 fourCpus
    clonedOptions cloned "scsi0" { volume := "local:vm-1000", size := some "10240M" } hread
    (by decide +kernel) rfl (by decide) (by decide)
  obtain ⟨after, hafter, h⟩ := hrestores text htext
  exact ⟨by decide +kernel, text, after, hafter, h⟩

end Candidate
end NodeProvisioner
