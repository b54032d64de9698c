import NodeProvisioner.Identity.ProviderId
import NodeProvisioner.Proofs.Identity.Installation

/-! A provider id says which machine of which region it was made for, and no other text of that
form says another. -/
namespace NodeProvisioner.ProviderId
open Installation (Name)

/-- The scheme, then a region if there is one, and a numeral. -/
inductive Spells : String → ProviderId → Prop where
  | placed {region id : String} {machine : MachineId} (hregion : Name region)
    (hid : Text.Denotes id machine.toNat) :
    Spells ("proxmox://" ++ region ++ "/" ++ id) ⟨some region, machine⟩
  | bare {id : String} {machine : MachineId} (hid : Text.Denotes id machine.toNat) :
    Spells ("proxmox://" ++ id) ⟨none, machine⟩

def render (p : ProviderId) : String :=
  match p.region with
  | some region => make region p.machine
  | none => scheme ++ Text.numeral p.machine.toNat

theorem parse?_eq_some {s : String} {p : ProviderId} : parse? s = some p ↔ Spells s p := by
  have hslash : "/".toList = ['/'] := rfl
  unfold parse?
  simp only [Option.bind_eq_bind, Option.bind_eq_some_iff, Text.after?_eq_some]
  constructor
  · rintro ⟨rest, rfl, h⟩
    split at h
    · obtain ⟨machine, hid, rfl⟩ := Option.map_eq_some_iff.1 h
      exact .bare (Text.readUInt32?_eq_some.1 hid)
    · next region id hcut =>
      obtain ⟨rfl, -⟩ := (Text.cutLast?_eq_some hslash).1 hcut
      split at h
      · cases h
      · next hname =>
        obtain ⟨machine, hid, rfl⟩ := Option.map_eq_some_iff.1 h
        simp only [Bool.or_eq_true, not_or, Bool.not_eq_true, List.contains_eq_mem,
          decide_eq_false_iff_not] at hname
        have hspells := Spells.placed ⟨hname.1, hname.2⟩ (Text.readUInt32?_eq_some.1 hid)
        simpa [scheme, String.append_assoc] using hspells
  · intro h
    cases h with
    | @placed region id machine hregion hid =>
      have hcut : Text.cutLast? '/' (region ++ "/" ++ id) = some (region, id) :=
        (Text.cutLast?_eq_some hslash).2 ⟨rfl, hid.not_mem (by decide) (by decide)⟩
      refine ⟨region ++ "/" ++ id, by simp [scheme, String.append_assoc], ?_⟩
      rw [hcut]
      simp [hregion.nonempty, hregion.noSlash, Text.readUInt32?_eq_some.2 hid]
    | @bare id machine hid =>
      have hcut : Text.cutLast? '/' id = none :=
        Text.cutLast?_eq_none.2 (hid.not_mem (by decide) (by decide))
      refine ⟨id, rfl, ?_⟩
      rw [hcut]
      simp [Text.readUInt32?_eq_some.2 hid]

theorem parse_eq_ok {s : String} {p : ProviderId} : parse s = .ok p ↔ Spells s p := by
  rw [← parse?_eq_some]
  unfold parse
  split
  · next h => simp [h]
  · next h => simp [h]

theorem parse_make_iff {region : String} {machine : MachineId} {p : ProviderId} :
    parse (make region machine) = .ok p ↔ Name region ∧ p = ⟨some region, machine⟩ := by
  have hslash : "/".toList = ['/'] := rfl
  rw [parse_eq_ok]
  constructor
  · intro h
    have hcut : Text.cutLast? '/' (make region machine) =
        some (scheme ++ region, Text.numeral machine.toNat) :=
      (Text.cutLast?_eq_some hslash).2 ⟨rfl, Text.not_mem_numeral (by decide)⟩
    generalize make region machine = s at h hcut
    cases h with
    | @placed region' id machine' hregion hid =>
      have hcut' : Text.cutLast? '/' (scheme ++ region' ++ "/" ++ id) =
          some (scheme ++ region', id) :=
        (Text.cutLast?_eq_some hslash).2 ⟨rfl, hid.not_mem (by decide) (by decide)⟩
      have hparts := hcut.symm.trans hcut'
      simp only [Option.some.injEq, Prod.mk.injEq, String.append_right_inj] at hparts
      obtain ⟨rfl, rfl⟩ := hparts
      have hmachine := hid.unique (Text.denotes_numeral machine.toNat)
      exact ⟨hregion, by rw [UInt32.toNat_inj.1 hmachine]⟩
    | @bare id machine' hid =>
      -- The last slash would be that of the scheme, so that nothing is left of the region's part.
      have hcut' : Text.cutLast? '/' (scheme ++ id) = some ("proxmox:/", id) :=
        (Text.cutLast?_eq_some hslash).2 ⟨rfl, hid.not_mem (by decide) (by decide)⟩
      have hparts := hcut.symm.trans hcut'
      simp only [Option.some.injEq, Prod.mk.injEq] at hparts
      have hscheme : scheme.length = "proxmox:/".length + 1 := rfl
      have hlength := congrArg String.length hparts.1
      rw [String.length_append] at hlength
      omega
  · rintro ⟨hregion, rfl⟩
    exact .placed hregion (Text.denotes_numeral machine.toNat)

theorem parse_make {region : String} (h : Name region) (machine : MachineId) :
    parse (make region machine) = .ok ⟨some region, machine⟩ := parse_make_iff.2 ⟨h, rfl⟩

theorem parse_render_of_parse {s : String} {p : ProviderId} (h : parse s = .ok p) :
    parse p.render = .ok p := by
  cases parse_eq_ok.1 h with
  | @placed region id machine hregion hid => exact parse_make hregion machine
  | @bare id machine hid => exact parse_eq_ok.2 (.bare (Text.denotes_numeral machine.toNat))

end NodeProvisioner.ProviderId
