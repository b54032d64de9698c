import Mathlib.Algebra.Group.Nat.Defs
import NodeProvisioner.Proofs.Launch.Describing
import NodeProvisioner.Proofs.Launch.Recording
import NodeProvisioner.Proofs.Launch.Shaping
import NodeProvisioner.Proofs.World.Waiting

/-! What becomes of the disks of a clone. A launch gives at most one disk another size, that of the
slot that the clone boots from. Whether the disk grows depends on what is understood of its size,
and on what the boot order names. -/
namespace NodeProvisioner

namespace Disk

/-- How many bytes a size unit is, among all that the hypervisor writes. -/
def unitBytes? : String → Option Nat
  | "" => some 1
  | "K" => some (2 ^ 10)
  | "M" => some (2 ^ 20)
  | "G" => some (2 ^ 30)
  | "T" => some (2 ^ 40)
  | _ => none

/-- The size as the hypervisor means it: digits and a unit, or digits alone. -/
def bytes? (d : Disk) : Option Nat := do
  let s ← d.size
  let digits := s.toList.takeWhile Char.isDigit
  let unit := s.toList.dropWhile Char.isDigit
  let n ← Text.readNat? (String.ofList digits)
  return n * (← unitBytes? (String.ofList unit))

def Measured (d : Disk) : Prop :=
  ∀ bytes, d.bytes? = some bytes → d.sizeMib?.map (·.toNat * 2 ^ 20) = some bytes

/-- Whatever is told of the size, it is less than so many GiB. -/
def Below (d : Disk) (gib : UInt64) : Prop :=
  ∀ bytes, d.bytes? = some bytes → bytes < gib.toNat * 2 ^ 30

theorem unitBytes?_of_unitMib? {unit : String} {mib : UInt64} (h : unitMib? unit = some mib) :
    unitBytes? unit = some (mib.toNat * 2 ^ 20) := by
  unfold unitMib? at h
  split at h
  · cases h
    rfl
  · cases h
    rfl
  · cases h
    rfl
  · cases h

theorem measured_of_sizeMib? {d : Disk} {mib : UInt64} (h : d.sizeMib? = some mib)
    (hfits : ∀ bytes, d.bytes? = some bytes → bytes < UInt64.size * 2 ^ 20) : d.Measured := by
  have hsize := h
  unfold sizeMib? at h
  obtain ⟨s, hs, h⟩ := Option.bind_eq_some_iff.1 h
  obtain ⟨n, hn, h⟩ := Option.bind_eq_some_iff.1 h
  obtain ⟨unit, hunit, h⟩ := Option.bind_eq_some_iff.1 h
  obtain rfl : n * unit = mib := Option.some.inj h
  have hbytes : d.bytes? = some (n.toNat * (unit.toNat * 2 ^ 20)) := by
    unfold bytes?
    simp [hs, Text.readNat?_of_readUInt64? hn, unitBytes?_of_unitMib? hunit]
  have hlt : n.toNat * unit.toNat < UInt64.size := by
    have hfits := hfits _ hbytes
    rw [← Nat.mul_assoc] at hfits
    exact Nat.lt_of_mul_lt_mul_right hfits
  intro bytes h
  obtain rfl : n.toNat * (unit.toNat * 2 ^ 20) = bytes := Option.some.inj (hbytes.symm.trans h)
  have hmul : (n * unit).toNat = n.toNat * unit.toNat := by
    rw [UInt64.toNat_mul]
    exact Nat.mod_eq_of_lt hlt
  rw [hsize, Option.map_some, hmul, Nat.mul_assoc]

end Disk

def Machine.sizesTold (m : Machine) : Bool :=
  m.disks.values.all fun d => d.size.isSome == d.bytes?.isSome

/-- If the call gives a disk of the clone another size, the disk is a plain one, and the size that
is told of it is less. -/
def Call.Grows (clone : Machine) : Call → Prop
  | .hypervisor _ (.resizeDisk _ _ slot gib) => ∃ d, clone.disks.get? slot = some d ∧
    d.isPlain = true ∧ d.Below gib
  | _ => True

def Event.ReadsAs (clone : Machine) : Event → Prop
  | ⟨.hypervisor _ (.readMachine _ _), .ok m⟩ => m = clone
  | _ => True

namespace Undoable
variable {α : Type} {clone : Machine} {region zone : String} {machine : MachineId}

/-- After the clone was read, what is done depends on it alone. -/
theorem OnlyWhen.read {allowed : Call → Prop} {f : Machine → Undoable α}
    (hread : allowed (.hypervisor region (.readMachine zone machine)))
    (h : (f clone).OnlyWhen (Event.ReadsAs clone) allowed) :
    (liftM (Hypervisor.send region (.readMachine zone machine)) >>= f).OnlyWhen
      (Event.ReadsAs clone) allowed := by
  refine fun stack => (Plan.ensures_call _ _ _).2 fun r => ?_
  rcases r with e | m
  · refine (Plan.ensures_done _ _).2 fun _ => ?_
    simpa using hread
  · intro t a hrun hgiven
    obtain ⟨hm, hrest⟩ := List.forall_mem_cons.1 hgiven
    obtain rfl : m = clone := hm
    exact List.forall_mem_cons.2 ⟨hread, h stack t a hrun hrest⟩

section yields
variable {β : Type} {stack between : UndoStack} {trace rest : Trace}

theorem yields_lift {j : Job α} {r : Except Fault α} (h : j.run.Yields trace r) :
    ((liftM j : Undoable α).run stack).Yields trace (r, stack) := by
  rw [run_lift, map_eq_pure_bind, ← List.append_nil trace]
  exact h.bind (.done _)

theorem yields_bind {u : Undoable α} {f : α → Undoable β} {a : α} {r : Except Fault β × UndoStack}
    (h : (u.run stack).Yields trace (.ok a, between)) (h' : ((f a).run between).Yields rest r) :
    ((u >>= f).run stack).Yields (trace ++ rest) r := by
  rw [run_bind]
  exact h.bind h'

theorem yields_failed {u : Undoable α} {f : α → Undoable β} {e : Fault}
    (h : (u.run stack).Yields trace (.error e, between)) :
    ((u >>= f).run stack).Yields trace (.error e, between) := by
  rw [run_bind, ← List.append_nil trace]
  exact h.bind (.done _)

theorem yields_record {step : UndoStep} {f : Unit → Undoable β} {r : Except Fault β × UndoStack}
    (h : ((f ()).run (stack.push step)).Yields rest r) :
    ((record step >>= f).run stack).Yields rest r := h

end yields
end Undoable

namespace Candidate
open Undoable (only_lift only_pure yields_bind yields_failed yields_lift yields_record)
variable {settings : Settings} {c : Candidate} {t : TemplateEntry} {machine : MachineId}
  {clone : Machine} {slot : String} {boot : Disk}

/-- Whatever happens, a launch whose clone is as given gives no disk of it another size but a plain
one, and makes that one larger. -/
def OnlyGrows (settings : Settings) (c : Candidate) (t : TemplateEntry) (machine : MachineId)
    (clone : Machine) : Prop :=
  (provision settings c t machine).OnlyWhen (Event.ReadsAs clone) (Call.Grows clone)

structure Growable (c : Candidate) (boot : Disk) : Prop where
  plain : boot.isPlain = true
  larger : boot.Measured ∨ boot.Below c.diskGib

theorem below_of_needsResize (h : c.needsResize boot = true) (hmeasured : boot.Measured) :
    boot.Below c.diskGib := by
  intro bytes hbytes
  obtain ⟨mib, hmib, rfl⟩ := Option.map_eq_some_iff.1 (hmeasured bytes hbytes)
  have hlt : mib.toNat < (c.diskGib * 1024).toNat := by
    simpa [needsResize, hmib, UInt64.lt_iff_toNat_lt] using h
  have hmul : (c.diskGib * 1024).toNat ≤ c.diskGib.toNat * 1024 := by
    rw [UInt64.toNat_mul]
    exact Nat.mod_le _ _
  omega

theorem onlyGrows_of_growable (h : ∀ slot boot, clone.bootDisk? = some (slot, boot) →
      c.needsResize boot = true → c.Growable boot) : c.OnlyGrows settings t machine clone := by
  have hresize (slot : String) (boot : Disk) (hboot : clone.bootDisk? = some (slot, boot))
      (hneeds : c.needsResize boot = true) : Call.Grows clone
        (.hypervisor c.region (.resizeDisk c.zone machine slot c.diskGib)) := by
    obtain ⟨hplain, hlarger⟩ := h slot boot hboot hneeds
    exact ⟨boot, Machine.get?_of_bootDisk? hboot, hplain,
      hlarger.elim (below_of_needsResize hneeds) id⟩
  have hsucceed (zone : String) (task : TaskId) :
      (Task.succeed settings.taskPatience true c.region zone task).Only (Call.Grows clone) :=
    Task.succeed_only trivial trivial fun _ => trivial
  have hconnect : (Networking.configure ⟨c.region, c.zone, machine⟩ clone).Only
      (Call.Grows clone) :=
    Networking.configure_only trivial (fun _ _ => trivial) (fun _ _ => trivial) trivial
  refine (cloneTemplate_only trivial trivial (hsucceed t.zone)).when.bind fun granted => ?_
  refine Undoable.OnlyWhen.read trivial (Undoable.Only.when ?_)
  refine (only_lift (shapeClone_only trivial hresize hconnect fun _ => trivial)).bind
    fun views => ?_
  refine (describe_only clone views (fun _ => trivial) fun _ => trivial).bind fun node => ?_
  refine (only_lift (Hypervisor.only_send trivial)).bind fun task => ?_
  exact (only_lift (hsucceed c.zone task)).bind fun _ => only_pure node

theorem cloneTemplate_yields (granted : Reservation) (task : TaskId) (stack : UndoStack) :
    ((cloneTemplate settings c t machine).run stack).Yields
      [⟨.capacity (.allocate c.region c.zone (c.wanted t machine)), .ok granted⟩,
        ⟨.hypervisor c.region (.clone (c.cloneRequest t machine)), .ok task⟩,
        ⟨.hypervisor c.region (.taskStatus t.zone task),
          .ok { running := false, exit := some "OK" }⟩]
      (.ok granted, (stack.push (.releaseCapacity c.region c.zone granted)).push
        (.deleteMachine c.zone machine)) := by
  have hallocate : (Capacity.send (.allocate c.region c.zone (c.wanted t machine))).run.Yields
      [⟨.capacity (.allocate c.region c.zone (c.wanted t machine)), .ok granted⟩] (.ok granted) :=
    .call _ (.done _)
  have hclone : (Hypervisor.send c.region (.clone (c.cloneRequest t machine))).run.Yields
      [⟨.hypervisor c.region (.clone (c.cloneRequest t machine)), .ok task⟩] (.ok task) :=
    .call _ (.done _)
  refine yields_bind (yields_lift hallocate) (yields_record ?_)
  refine yields_bind (yields_lift hclone) (yields_record ?_)
  exact yields_bind (yields_lift Task.succeed_yields) (.done _)

theorem shapeClone_yields {granted : Reservation} {e : Fault}
    (hboot : clone.bootDisk? = some (slot, boot)) (hneeds : c.needsResize boot = true) :
    (shapeClone settings c t machine granted clone).run.Yields
      [⟨.hypervisor c.region (.configure c.zone machine (Shape.options settings.clusterName
          c.cls.spec.tags clone granted (c.provenance t))), .ok ()⟩,
        ⟨.hypervisor c.region (.resizeDisk c.zone machine slot c.diskGib), .error e⟩]
      (.error e) := by
  refine .call _ ?_
  dsimp only
  rw [hboot]
  dsimp only
  rw [if_pos hneeds]
  exact .call _ (.done _)

theorem provision_resizes (hboot : clone.bootDisk? = some (slot, boot))
    (hneeds : c.needsResize boot = true) (stack : UndoStack) :
    ∃ trace r, ((provision settings c t machine).run stack).Yields trace r ∧
      (∀ e ∈ trace, e.ReadsAs clone) ∧
      .hypervisor c.region (.resizeDisk c.zone machine slot c.diskGib) ∈ trace.calls := by
  have hclone := @cloneTemplate_yields settings c t machine default "" stack
  have hread : (Hypervisor.send c.region (.readMachine c.zone machine)).run.Yields
      [⟨.hypervisor c.region (.readMachine c.zone machine), .ok clone⟩] (.ok clone) :=
    .call _ (.done _)
  have hshape := @shapeClone_yields settings c t machine clone slot boot default (noBootDisk t)
    hboot hneeds
  refine ⟨_, _, yields_bind hclone (yields_bind (yields_lift hread)
    (yields_failed (yields_lift hshape))), ?_, ?_⟩
  · simp [Event.ReadsAs]
  · simp [Trace.calls]

theorem growable_of_onlyGrows (h : c.OnlyGrows settings t machine clone)
    (hboot : clone.bootDisk? = some (slot, boot)) (hneeds : c.needsResize boot = true) :
    c.Growable boot := by
  obtain ⟨trace, r, hrun, hreads, hresize⟩ :=
    @provision_resizes settings c t machine clone slot boot hboot hneeds {}
  obtain ⟨e, he, hcall⟩ := List.mem_map.1 hresize
  have hgrows := h {} trace r hrun hreads e he
  rw [hcall] at hgrows
  obtain ⟨d, hd, hplain, hless⟩ := hgrows
  obtain rfl : boot = d := Option.some.inj ((Machine.get?_of_bootDisk? hboot).symm.trans hd)
  exact ⟨hplain, .inr hless⟩

/-- A launch only ever grows a plain disk, exactly where the clone boots from a disk that is large
enough already or that can be given the size that is wanted: it is plain, and its size is understood
or is less than that anyway. -/
theorem onlyGrows_iff (settings : Settings) (c : Candidate) (t : TemplateEntry)
    (machine : MachineId) (clone : Machine) : c.OnlyGrows settings t machine clone ↔
      ∀ slot boot, clone.bootDisk? = some (slot, boot) → c.needsResize boot = true →
        c.Growable boot := by
  constructor
  · intro h slot boot hboot hneeds
    exact growable_of_onlyGrows h hboot hneeds
  · exact onlyGrows_of_growable

/-- A clone with a disk of 10 GiB is given 30. -/
theorem onlyGrows_iff_cloned :
    cloned.bootDisk? = some ("scsi0", { volume := "local:vm-1000", size := some "10240M" }) ∧
      pinned.needsResize { volume := "local:vm-1000", size := some "10240M" } = true ∧
      pinned.OnlyGrows {} noble 1000 cloned := by
  have hboot : cloned.bootDisk? =
      some ("scsi0", { volume := "local:vm-1000", size := some "10240M" }) := by decide +kernel
  have hsize : Disk.bytes? { volume := "local:vm-1000", size := some "10240M" } =
      some 10737418240 := by decide +kernel
  have hmeasured : Disk.Measured { volume := "local:vm-1000", size := some "10240M" } := by
    have hmib : Disk.sizeMib? { volume := "local:vm-1000", size := some "10240M" } =
        some 10240 := by decide +kernel
    refine Disk.measured_of_sizeMib? hmib fun bytes h => ?_
    obtain rfl : 10737418240 = bytes := Option.some.inj (hsize.symm.trans h)
    decide
  refine ⟨hboot, by decide +kernel, (onlyGrows_iff {} pinned noble 1000 cloned).2 ?_⟩
  intro slot boot h _
  rw [hboot] at h
  cases h
  exact ⟨by decide +kernel, .inl hmeasured⟩

def driveFirst : Options :=
  .ofList [("boot", "order=ide2;scsi0"), ("ide2", "local:cloudinit,media=cdrom"),
    ("scsi0", "local:vm-1000,size=40G")]

def sizedInBytes : Options :=
  .ofList [("boot", "order=scsi0"), ("scsi0", "local:vm-1000,size=42949672960")]

/-- A drive is given another size, and a disk of 40 GiB is to become one of 30. -/
theorem not_onlyGrows_driveFirst_sizedInBytes :
    (∃ clone, Machine.ofOptions driveFirst = .ok clone ∧ clone.sizesTold = true ∧
      ¬ pinned.OnlyGrows {} noble 1000 clone) ∧
    ∃ clone, Machine.ofOptions sizedInBytes = .ok clone ∧ clone.sizesTold = true ∧
      ¬ pinned.OnlyGrows {} noble 1000 clone := by
  constructor
  · refine ⟨{
      disks := .ofList [("ide2", { volume := "local:cloudinit", media := some "cdrom" }),
        ("scsi0", { volume := "local:vm-1000", size := some "40G" })]
      other := .ofList [("boot", "order=ide2;scsi0")] }, by decide +kernel, by decide +kernel, ?_⟩
    intro h
    have hgrowable := @growable_of_onlyGrows {} pinned noble 1000 _ "ide2"
      { volume := "local:cloudinit", media := some "cdrom" } h (by decide +kernel)
      (by decide +kernel)
    exact absurd hgrowable.plain (by decide +kernel)
  · refine ⟨{
      disks := .ofList [("scsi0", { volume := "local:vm-1000", size := some "42949672960" })]
      other := .ofList [("boot", "order=scsi0")] }, by decide +kernel, by decide +kernel, ?_⟩
    intro h
    have hgrowable := @growable_of_onlyGrows {} pinned noble 1000 _ "scsi0"
      { volume := "local:vm-1000", size := some "42949672960" } h (by decide +kernel)
      (by decide +kernel)
    have hsize : Disk.bytes? { volume := "local:vm-1000", size := some "42949672960" } =
        some 42949672960 := by decide +kernel
    rcases hgrowable.larger with hmeasured | hless
    · exact absurd (hmeasured _ hsize) (by decide +kernel)
    · exact absurd (hless _ hsize) (by decide +kernel)

end Candidate
end NodeProvisioner
