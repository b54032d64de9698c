import NodeProvisioner.Identity.Installation
import NodeProvisioner.Proofs.Text.Reading

/-! An installation is read back from what is written for it, and only texts of that form are read.
-/
namespace NodeProvisioner

namespace Installation

/-- Can stand between slashes. -/
structure Name (s : String) : Prop where
  nonempty : s.isEmpty = false
  noSlash : '/' ∉ s.toList

theorem pieces_render (i : Installation) : Text.pieces '/' i.render =
    Text.pieces '/' i.region ++ (Text.pieces '/' i.zone ++ [Text.numeral i.machine.toNat]) := by
  have hnumeral : '/' ∉ (Text.numeral i.machine.toNat).toList := Text.not_mem_numeral (by decide)
  have hslash : "/".toList = ['/'] := rfl
  rw [render, Text.pieces_append hslash, Text.pieces_append hslash,
    Text.pieces_of_not_mem hnumeral, List.append_assoc]

theorem parse?_render {i : Installation} (hregion : Name i.region) (hzone : Name i.zone) :
    parse? i.render = some i := by
  unfold parse?
  rw [pieces_render, Text.pieces_of_not_mem hregion.noSlash, Text.pieces_of_not_mem hzone.noSlash]
  simp [hregion.nonempty, hzone.nonempty]

theorem eq_of_parse?_render {i j : Installation} (h : parse? i.render = some j) : j = i := by
  have hne (s : String) : 0 < (Text.pieces '/' s).length :=
    List.length_pos_of_ne_nil (Text.pieces_ne_nil '/' s)
  unfold parse? at h
  rw [pieces_render] at h
  split at h
  · next region zone id hpieces =>
    have hlength := congrArg List.length hpieces
    simp only [List.length_append, List.length_cons, List.length_nil] at hlength
    have hr := hne i.region
    have hz := hne i.zone
    have hrone : (Text.pieces '/' i.region).length = 1 := by omega
    have hzone : (Text.pieces '/' i.zone).length = 1 := by omega
    obtain ⟨_, hregion⟩ := List.length_eq_one_iff.1 hrone
    obtain ⟨_, hzone⟩ := List.length_eq_one_iff.1 hzone
    rw [hregion, hzone] at hpieces
    obtain ⟨-, rfl⟩ := Text.not_mem_of_pieces hregion
    obtain ⟨-, rfl⟩ := Text.not_mem_of_pieces hzone
    cases hpieces
    split at h
    · cases h
    · rw [Text.readUInt32?_numeral] at h
      exact (Option.some.inj h).symm
  · cases h

inductive Spells : String → Installation → Prop where
  | mk {region zone id : String} {machine : MachineId} (hregion : Name region) (hzone : Name zone)
    (hid : Text.Denotes id machine.toNat) :
    Spells (region ++ "/" ++ zone ++ "/" ++ id) ⟨region, zone, machine⟩

theorem intercalate_parts (region zone id : String) :
    String.intercalate "/" [region, zone, id] = region ++ "/" ++ zone ++ "/" ++ id := by
  simp [String.intercalate_cons_cons, String.append_assoc]

theorem parse?_eq_some {s : String} {i : Installation} : parse? s = some i ↔ Spells s i := by
  have hslash : "/".toList = ['/'] := rfl
  unfold parse?
  constructor
  · intro h
    split at h
    · next region zone id hpieces =>
      split at h
      · cases h
      · next hempty =>
        obtain ⟨machine, hid, rfl⟩ := Option.map_eq_some_iff.1 h
        rw [Text.pieces_eq_iff hslash, intercalate_parts] at hpieces
        obtain ⟨-, hparts, rfl⟩ := hpieces
        simp only [List.forall_mem_cons] at hparts
        simp only [Bool.or_eq_true, not_or, Bool.not_eq_true] at hempty
        exact .mk ⟨hempty.1, hparts.1⟩ ⟨hempty.2, hparts.2.1⟩ (Text.readUInt32?_eq_some.1 hid)
    · cases h
  · rintro ⟨hregion, hzone, hid⟩
    next region zone id machine =>
    have hpieces : Text.pieces '/' (region ++ "/" ++ zone ++ "/" ++ id) = [region, zone, id] := by
      rw [Text.pieces_eq_iff hslash, intercalate_parts]
      simp [hregion.noSlash, hzone.noSlash, hid.not_mem]
    rw [hpieces]
    simp [hregion.nonempty, hzone.nonempty, Text.readUInt32?_eq_some.2 hid]

theorem parse_eq_ok {s : String} {i : Installation} : parse s = .ok i ↔ Spells s i := by
  rw [← parse?_eq_some]
  unfold parse
  split
  · next h => simp [h]
  · next h => simp [h]

theorem parse_render_iff {i j : Installation} :
    parse i.render = .ok j ↔ Name i.region ∧ Name i.zone ∧ j = i := by
  constructor
  · intro h
    have hspells := parse_eq_ok.1 h
    obtain rfl := eq_of_parse?_render (parse?_eq_some.2 hspells)
    generalize j.render = s at hspells
    cases hspells with
    | mk hregion hzone hid => exact ⟨hregion, hzone, rfl⟩
  · rintro ⟨hregion, hzone, rfl⟩
    rw [parse, parse?_render hregion hzone]

theorem parse_render_of_parse {s : String} {i : Installation} (h : parse s = .ok i) :
    parse i.render = .ok i := by
  rw [parse_render_iff]
  cases parse_eq_ok.1 h with
  | mk hregion hzone hid => exact ⟨hregion, hzone, rfl⟩

end Installation
end NodeProvisioner
