import NodeProvisioner.Device.Disk
import NodeProvisioner.Proofs.KeyMap
import NodeProvisioner.Proofs.Text

/-! The sizes of disks, and what is read of a disk that was given another size. -/
namespace NodeProvisioner

namespace OptionText

theorem parse_append {s key value : String} (hkey : '=' ∉ key.toList)
    (hpart : ',' ∉ (key ++ "=" ++ value).toList)
    (htrim : Text.trim (key ++ "=" ++ value) = key ++ "=" ++ value) :
    parse (s ++ "," ++ (key ++ "=" ++ value)) =
      { parse s with options := (parse s).options.insert key value } := by
  have hoption : option (key ++ "=" ++ value) = (key, value) := by
    rw [option, Text.cut?_append rfl hkey]
    rfl
  have hnonempty : (key ++ "=" ++ value).isEmpty = false := by
    rw [String.isEmpty_eq_false_iff, ne_eq, ← String.toList_eq_nil_iff]
    simp
  have hparts : parts (s ++ "," ++ (key ++ "=" ++ value)) = parts s ++ [key ++ "=" ++ value] := by
    rw [parts, Text.pieces_append rfl, Text.pieces_of_not_mem hpart, List.map_append,
      List.map_singleton, htrim]
    rfl
  have hoptions (ps : List String) : optionsOf (ps ++ [key ++ "=" ++ value]) =
      (optionsOf ps).insert key value := by
    simp [optionsOf, KeyMap.ofList, hnonempty, hoption]
  have hne : parts s ≠ [] := by simp [parts, Text.pieces_ne_nil]
  unfold parse
  rw [hparts]
  cases hs : parts s with
  | nil => exact absurd hs hne
  | cons first rest =>
    rw [List.cons_append]
    dsimp only
    rw [hoptions, ← List.cons_append, hoptions]
    split <;> rfl

end OptionText

namespace Disk

def resized (d : Disk) (gib : UInt64) : Disk :=
  { d with size := some (Text.numeral gib.toNat ++ "G") }

@[simp] theorem isPlain_resized (d : Disk) (gib : UInt64) : (d.resized gib).isPlain = d.isPlain :=
  rfl

theorem parse_resized {text : String} {d : Disk} (h : parse text = .ok d) (gib : UInt64) :
    parse (text ++ "," ++ ("size" ++ "=" ++ (Text.numeral gib.toNat ++ "G"))) =
      .ok (d.resized gib) := by
  have hchars : ∀ c ∈ ("size" ++ "=" ++ (Text.numeral gib.toNat ++ "G")).toList,
      c.isDigit = true ∨ c ∈ ['s', 'i', 'z', 'e', '=', 'G'] := by
    intro c hc
    simp only [String.toList_append, List.mem_append] at hc
    rcases hc with (hc | hc) | (hc | hc)
    · exact .inr (List.mem_append_left ['=', 'G'] hc)
    · obtain rfl : c = '=' := List.mem_singleton.1 hc
      exact .inr (by decide)
    · exact .inl (Text.isDigit_of_mem_numeral hc)
    · obtain rfl : c = 'G' := List.mem_singleton.1 hc
      exact .inr (by decide)
  have hcomma : ',' ∉ ("size" ++ "=" ++ (Text.numeral gib.toNat ++ "G")).toList := by
    intro hc
    exact absurd (hchars _ hc) (by decide)
  have hsolid : ∀ c ∈ ['s', 'i', 'z', 'e', '=', 'G'], Text.isBlank c = false := by
    simp [Text.isBlank, Text.blankRanges]
  have htrim := Text.trim_of_solid fun c hc => (hchars c hc).elim Text.isBlank_of_isDigit (hsolid c)
  -- Of the options only the size is another one, and it is not among those that are kept.
  have hlookup (t : OptionText) (v key : String) : OptionText.get?
      { t with options := t.options.insert "size" v } key =
        if key = "size" then some v else t.get? key := KeyMap.get?_insert _ _ _ _
  have hfile : "file" ≠ "size" := by decide
  have hmedia : "media" ≠ "size" := by decide
  unfold parse at h ⊢
  rw [OptionText.parse_append (by decide) hcomma htrim]
  simp only [hlookup, KeyMap.erase_insert, if_neg hfile, if_neg hmedia, if_true]
  dsimp only at h
  cases hvolume : (OptionText.parse text).head <|> (OptionText.parse text).get? "file" with
  | none =>
    rw [hvolume] at h
    cases h
  | some volume =>
    rw [hvolume] at h
    cases h
    rfl

theorem sizeMib?_resized (d : Disk) (gib : UInt64) :
    (d.resized gib).sizeMib? = some (gib * 1024) := by
  have hdigits : ∀ c ∈ (Text.numeral gib.toNat).toList, c.isDigit = true :=
    fun c hc => Text.isDigit_of_mem_numeral hc
  have htext : (Text.numeral gib.toNat ++ "G").toList = (Text.numeral gib.toNat).toList ++ ['G'] :=
    String.toList_append
  have htake : (Text.numeral gib.toNat ++ "G").toList.takeWhile Char.isDigit =
      (Text.numeral gib.toNat).toList := by
    rw [htext, List.takeWhile_append_of_pos hdigits]
    exact List.append_nil _
  have hdrop : (Text.numeral gib.toNat ++ "G").toList.dropWhile Char.isDigit = ['G'] := by
    rw [htext, List.dropWhile_append_of_pos hdigits]
    rfl
  have hread : Text.readUInt64? (String.ofList (Text.numeral gib.toNat).toList) = some gib := by
    rw [String.ofList_toList, Text.readUInt64?_numeral]
  have hunit : unitMib? (String.ofList ['G']) = some 1024 := rfl
  unfold sizeMib? resized
  simp only [Option.bind_eq_bind, Option.bind_some, htake, hdrop, hread, hunit]
  rfl

theorem le_sizeGib {d : Disk} {gib : UInt64} (hfits : gib.toNat * 1024 < UInt64.size)
    (h : gib * 1024 ≤ d.sizeMib?.getD 0) : gib ≤ d.sizeGib?.getD 0 := by
  have hmul : (gib * 1024).toNat = gib.toNat * 1024 := by
    rw [UInt64.toNat_mul]
    exact Nat.mod_eq_of_lt hfits
  rw [UInt64.le_iff_toNat_le, hmul] at h
  rw [UInt64.le_iff_toNat_le]
  unfold sizeGib?
  cases hsize : d.sizeMib? with
  | none =>
    have hzero : gib.toNat * 1024 ≤ 0 := by simpa [hsize] using h
    have hgib : gib.toNat = 0 := by omega
    simp [hgib]
  | some mib =>
    rw [hsize] at h
    simp only [Option.getD_some] at h
    have hmib := mib.toNat_lt
    simp only [Option.map_some, Option.getD_some, UInt64.toNat_ofNat', Quantities.ceilDiv]
    omega

end Disk
end NodeProvisioner
