import Mathlib.Data.List.Find
import NodeProvisioner.Machine.Config
import NodeProvisioner.Proofs.KeyMap

/-! The slot that a machine boots from stays the same when its disk is replaced by one of the same
sort. -/
namespace NodeProvisioner.Machine

variable {m m' : Machine} {slot : String} {d d' : Disk}

def firstDisk? (m : Machine) : Option (String × Disk) :=
  m.disks.entries.find? fun e => e.2.isPlain

theorem bootDisk?_eq (m : Machine) : m.bootDisk? = m.bootOrderDisk?.or m.firstDisk? := by
  unfold bootDisk?
  cases m.bootOrderDisk? <;> rfl

theorem bootOrderDisk?_eq (m : Machine) : m.bootOrderDisk? =
    ((m.other.get? "boot").bind (Text.after? "order=")).bind fun order =>
      (Text.pieces ';' order).findSome? fun s => (m.disks.get? s).map (s, ·) := rfl

theorem get?_of_bootDisk? (h : m.bootDisk? = some (slot, d)) : m.disks.get? slot = some d := by
  rw [bootDisk?_eq] at h
  rcases Option.or_eq_some_iff.1 h with horder | ⟨-, hfirst⟩
  · rw [bootOrderDisk?_eq] at horder
    obtain ⟨order, -, hsome⟩ := Option.bind_eq_some_iff.1 horder
    obtain ⟨slot', -, hslot⟩ := List.exists_of_findSome?_eq_some hsome
    obtain ⟨found, hfound, heq⟩ := Option.map_eq_some_iff.1 hslot
    cases heq
    exact hfound
  · exact KeyMap.mem_entries.1 (List.mem_of_find?_eq_some hfirst)

def replaced (slot : String) (d' : Disk) (e : String × Disk) : String × Disk :=
  if e.1 = slot then (slot, d') else e

theorem bootOrderDisk?_insert (hslot : m.disks.get? slot = some d)
    (horder : m'.other.get? "boot" = m.other.get? "boot")
    (hdisks : m'.disks = m.disks.insert slot d') :
    m'.bootOrderDisk? = m.bootOrderDisk?.map (replaced slot d') := by
  have hget : (fun s => (m'.disks.get? s).map (s, ·)) =
      Option.map (replaced slot d') ∘ fun s => (m.disks.get? s).map (s, ·) := by
    funext s
    rw [hdisks, KeyMap.get?_insert]
    split
    · next hs =>
      subst hs
      simp [hslot, replaced]
    · next hs => cases h : m.disks.get? s <;> simp [replaced, hs, h]
  rw [bootOrderDisk?_eq, bootOrderDisk?_eq, horder, hget, Option.map_bind]
  simp only [Function.comp_def, List.map_findSome?]

theorem firstDisk?_insert (hslot : m.disks.get? slot = some d)
    (hdisks : m'.disks = m.disks.insert slot d') (hplain : d'.isPlain = d.isPlain) :
    m'.firstDisk? = m.firstDisk?.map (replaced slot d') := by
  have hsame : ∀ e ∈ m.disks.entries, (replaced slot d' e).2.isPlain = e.2.isPlain := by
    intro e he
    unfold replaced
    split
    · next hs =>
      rw [KeyMap.mem_entries, hs, hslot] at he
      rw [hplain, Option.some.inj he]
    · rfl
  unfold firstDisk?
  rw [hdisks, KeyMap.entries_insert hslot, List.find?_map]
  exact congrArg _ (List.find?_congr hsame)

theorem bootDisk?_insert (h : m.bootDisk? = some (slot, d))
    (horder : m'.other.get? "boot" = m.other.get? "boot")
    (hdisks : m'.disks = m.disks.insert slot d') (hplain : d'.isPlain = d.isPlain) :
    m'.bootDisk? = some (slot, d') := by
  have hslot := get?_of_bootDisk? h
  have hmap : m'.bootDisk? = m.bootDisk?.map (replaced slot d') := by
    rw [bootDisk?_eq, bootDisk?_eq, bootOrderDisk?_insert hslot horder hdisks,
      firstDisk?_insert hslot hdisks hplain, Option.map_or]
  rw [hmap, h]
  simp [replaced]

end NodeProvisioner.Machine
