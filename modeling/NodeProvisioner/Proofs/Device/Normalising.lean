import Mathlib.Data.List.Induction
import NodeProvisioner.Proofs.Device.Rendering
import NodeProvisioner.Proofs.Latest
import NodeProvisioner.Proofs.Text.Reading

/-! What the options of a text say is settled by one reading: a value that was read is written in a
form of its own, and reading that form changes nothing. -/
namespace NodeProvisioner

namespace OptionText

structure Bare (part : String) : Prop where
  nonempty : part.isEmpty = false
  noEquals : '=' ∉ part.toList

/-- The value that a part has for a key. Only the first equals sign of a part counts, and a part
without one has the empty value. -/
inductive Binds : String → String → String → Prop where
  | pair {key : String} (h : '=' ∉ key.toList) (value : String) :
    Binds (key ++ "=" ++ value) key value
  | bare {key : String} (h : Bare key) : Binds key key ""

def LastBinds (ps : List String) (key value : String) : Prop :=
  ∃ before part after, ps = before ++ part :: after ∧ Binds part key value ∧
    ∀ later ∈ after, ∀ v, ¬ Binds later key v

def Heads (s head : String) : Prop := (parts s).head? = some head ∧ Bare head

/-- The text has the value for the key, in the last of its options. A bare part that stands first
is not an option. -/
def Gives (s key value : String) : Prop :=
  ∃ before part after, parts s = before ++ part :: after ∧ (before = [] → ¬ Bare part) ∧
    Binds part key value ∧ ∀ later ∈ after, ∀ v, ¬ Binds later key v

theorem isHead_iff {part : String} : isHead part = true ↔ Bare part := by
  simp only [isHead, Bool.and_eq_true, Bool.not_eq_true', Option.isNone_iff_eq_none,
    Text.cut?_eq_none_iff]
  exact ⟨fun h => ⟨h.1, h.2⟩, fun h => ⟨h.nonempty, h.noEquals⟩⟩

theorem binds_iff {part key value : String} :
    Binds part key value ↔ part.isEmpty = false ∧ option part = (key, value) := by
  constructor
  · intro h
    cases h with
    | pair h => exact ⟨by simp, option_pair h value⟩
    | bare h => exact ⟨h.nonempty, option_key h.noEquals⟩
  · rintro ⟨hne, hoption⟩
    unfold option at hoption
    cases hcut : Text.cut? '=' part with
    | none =>
      simp only [hcut, Option.getD_none, Prod.mk.injEq] at hoption
      obtain ⟨rfl, rfl⟩ := hoption
      exact .bare ⟨hne, Text.cut?_eq_none_iff.1 hcut⟩
    | some found =>
      simp only [hcut, Option.getD_some] at hoption
      obtain rfl := hoption
      obtain ⟨rfl, hkey⟩ := (Text.cut?_eq_some (t := "=") rfl).1 hcut
      exact .pair hkey value

theorem lastBinds_iff {ps : List String} {key value : String} :
    LastBinds ps key value ↔ Latest (fun part v => Binds part key v) ps value := Iff.rfl

theorem not_lastBinds_nil (key value : String) : ¬ LastBinds [] key value := Latest.not_nil

theorem lastBinds_concat {ps : List String} {p key value : String} :
    LastBinds (ps ++ [p]) key value ↔
      Binds p key value ∨ (∀ v, ¬ Binds p key v) ∧ LastBinds ps key value := by
  rw [lastBinds_iff, lastBinds_iff, Latest.concat_iff]

theorem optionsOf_concat_empty {p : String} (h : p.isEmpty = true) (ps : List String) :
    optionsOf (ps ++ [p]) = optionsOf ps := by
  simp [optionsOf, h]

theorem get?_optionsOf_concat {p : String} (h : p.isEmpty = false) (ps : List String)
    (key : String) : (optionsOf (ps ++ [p])).get? key =
      if key = (option p).1 then some (option p).2 else (optionsOf ps).get? key := by
  have hkeep : ((ps ++ [p]).filter (!·.isEmpty)).map option =
      (ps.filter (!·.isEmpty)).map option ++ [option p] := by
    simp [h]
  unfold optionsOf
  rw [hkeep, KeyMap.get?_ofList_concat]

theorem get?_optionsOf {ps : List String} {key value : String} :
    (optionsOf ps).get? key = some value ↔ LastBinds ps key value := by
  -- The last option counts, so the parts are taken from the end.
  induction ps using List.reverseRecOn with
  | nil => exact iff_of_false (by simp [optionsOf, KeyMap.ofList]) (not_lastBinds_nil key value)
  | append_singleton ps p ih =>
    rw [lastBinds_concat, ← ih]
    simp only [binds_iff]
    cases hp : p.isEmpty with
    | true => simp [optionsOf_concat_empty hp]
    | false =>
      rw [get?_optionsOf_concat hp]
      obtain ⟨k, v⟩ := option p
      by_cases hk : key = k
      · simp [hk]
      · simp [hk, Ne.symm hk]

theorem gives_of_bare {s head : String} {rest : List String} (hparts : parts s = head :: rest)
    (hbare : Bare head) (key value : String) :
    Gives s key value ↔ LastBinds rest key value := by
  unfold Gives LastBinds
  rw [hparts]
  constructor
  · rintro ⟨before, part, after, hps, hfirst, hbinds⟩
    cases before with
    | nil =>
      cases hps
      exact absurd hbare (hfirst rfl)
    | cons b before =>
      cases hps
      exact ⟨before, part, after, rfl, hbinds⟩
  · rintro ⟨before, part, after, rfl, hbinds⟩
    exact ⟨head :: before, part, after, rfl, by simp, hbinds⟩

theorem gives_of_not_bare {s : String} (h : ∀ head, ¬ Heads s head) (key value : String) :
    Gives s key value ↔ LastBinds (parts s) key value := by
  unfold Gives LastBinds
  constructor
  · rintro ⟨before, part, after, hps, -, hbinds⟩
    exact ⟨before, part, after, hps, hbinds⟩
  · rintro ⟨before, part, after, hps, hbinds⟩
    refine ⟨before, part, after, hps, ?_, hbinds⟩
    rintro rfl hbare
    exact h part ⟨by simp [hps], hbare⟩

theorem head_parse {s head : String} : (parse s).head = some head ↔ Heads s head := by
  unfold parse Heads
  cases hparts : parts s with
  | nil => simp
  | cons first rest =>
    simp only [List.head?_cons, Option.some.injEq]
    split
    · next hhead =>
      have hbare : Bare first := isHead_iff.1 hhead
      constructor
      · rintro ⟨⟩
        exact ⟨rfl, hbare⟩
      · rintro ⟨rfl, -⟩
        rfl
    · next hhead =>
      have hbare : ¬ Bare first := fun h => hhead (isHead_iff.2 h)
      constructor
      · nofun
      · rintro ⟨rfl, h⟩
        exact absurd h hbare

theorem get?_parse {s key value : String} :
    (parse s).get? key = some value ↔ Gives s key value := by
  unfold parse get?
  cases hparts : parts s with
  | nil => exact iff_of_false nofun (by simp [Gives, hparts])
  | cons first rest =>
    dsimp only
    split
    · next hhead => rw [gives_of_bare hparts (isHead_iff.1 hhead), get?_optionsOf]
    · next hhead =>
      rw [gives_of_not_bare, hparts, get?_optionsOf]
      rintro head ⟨hfirst, hbare⟩
      rw [hparts] at hfirst
      cases hfirst
      exact hhead (isHead_iff.2 hbare)

theorem flag_parse {s key : String} :
    (parse s).flag key = true ↔ ∃ v ∈ ["1", "on", "true"], Gives s key v := by
  unfold flag
  simp only [← get?_parse]
  cases (parse s).get? key with
  | none => simp
  | some v =>
    simp only [Bool.or_eq_true, beq_iff_eq, List.mem_cons, List.not_mem_nil, or_false,
      Option.some.injEq, exists_eq_right', or_assoc]

end OptionText

theorem Assignment.writable_parse {s : String} (h : Text.Value s) : (parse s).Writable := by
  unfold parse
  split
  case h_4 hdhcp hauto hhost =>
    rintro _ ⟨⟩
    refine ⟨h, ?_⟩
    simp only [List.mem_cons, List.not_mem_nil, or_false, not_or]
    exact ⟨hdhcp, hauto, hhost⟩
  all_goals rintro _ ⟨⟩

namespace Addressing
open OptionText (Gives Heads)

structure Writable (a : Addressing) : Prop where
  ip : ∀ i ∈ a.ip, i.Writable
  gateway : ∀ g ∈ a.gateway, Text.Value g
  ip6 : ∀ i ∈ a.ip6, i.Writable
  gateway6 : ∀ g ∈ a.gateway6, Text.Value g

theorem writable_of_parse {s : String} {a : Addressing} (h : parse s = .ok a) : a.Writable := by
  have hip {key : String} : ∀ i ∈ ((OptionText.parse s).get? key).map Assignment.parse,
      i.Writable := by
    intro i hi
    obtain ⟨v, hv, rfl⟩ := Option.map_eq_some_iff.1 hi
    exact Assignment.writable_parse (OptionText.value_of_get?_parse hv)
  unfold parse at h
  dsimp only at h
  split at h
  · cases h
  · cases h
    exact ⟨hip, fun _ => OptionText.value_of_get?_parse, hip,
      fun _ => OptionText.value_of_get?_parse⟩

theorem Writable.parse_render {a : Addressing} (h : a.Writable) : parse a.render = .ok a :=
  Addressing.parse_render h.ip h.gateway h.ip6 h.gateway6

/-- What is known of the addresses is what the text says of them. -/
structure ToldBy (a : Addressing) (s : String) : Prop where
  ip : ∀ i, a.ip = some i ↔ ∃ v, Gives s "ip" v ∧ Assignment.parse v = i
  gateway : ∀ v, a.gateway = some v ↔ Gives s "gw" v
  ip6 : ∀ i, a.ip6 = some i ↔ ∃ v, Gives s "ip6" v ∧ Assignment.parse v = i
  gateway6 : ∀ v, a.gateway6 = some v ↔ Gives s "gw6" v

theorem parse_eq_error {s : String} {e : Unreadable} :
    parse s = .error e ↔ ∃ head, Heads s head ∧ e = .addressWithHead head := by
  simp only [← OptionText.head_parse]
  unfold parse
  dsimp only
  split
  · next head hhead => simp [hhead, eq_comm]
  · next hnone => simp [hnone]

theorem toldBy_of_parse {s : String} {a : Addressing} (h : parse s = .ok a) : a.ToldBy s := by
  unfold parse at h
  dsimp only at h
  split at h
  · cases h
  · cases h
    constructor
    · simp only [Option.map_eq_some_iff, OptionText.get?_parse, implies_true]
    · simp only [OptionText.get?_parse, implies_true]
    · simp only [Option.map_eq_some_iff, OptionText.get?_parse, implies_true]
    · simp only [OptionText.get?_parse, implies_true]

end Addressing

namespace Smbios
open OptionText (Gives)

/-- What a machine shows is what the text says of it. -/
structure ToldBy (b : Smbios) (s : String) : Prop where
  uuid : ∀ v, b.uuid = some v ↔ Gives s "uuid" v
  serial : ∀ v, b.serial = some v ↔ Gives s "serial" v
  manufacturer : ∀ v, b.manufacturer = some v ↔ Gives s "manufacturer" v
  product : ∀ v, b.product = some v ↔ Gives s "product" v
  base64 : b.base64 = true ↔ ∃ v ∈ ["1", "on", "true"], Gives s "base64" v

theorem toldBy_parse (s : String) : (parse s).ToldBy s := by
  constructor
  · exact fun v => OptionText.get?_parse
  · exact fun v => OptionText.get?_parse
  · exact fun v => OptionText.get?_parse
  · exact fun v => OptionText.get?_parse
  · exact OptionText.flag_parse

theorem parse_render_parse (s : String) : parse (parse s).render = parse s := by
  apply parse_render
  · exact fun v => OptionText.value_of_get?_parse
  · exact fun v => OptionText.value_of_get?_parse
  · exact fun v => OptionText.value_of_get?_parse
  · exact fun v => OptionText.value_of_get?_parse

end Smbios

/-- Addresses and system information are read from any text into what its last options say, and are
written so that they are read again as they are. Only a bare value in the first place keeps the
addresses from being read. -/
theorem OptionText.reading_settles :
    (∀ s a, Addressing.parse s = .ok a → Addressing.parse a.render = .ok a ∧ a.ToldBy s) ∧
    (∀ s e, Addressing.parse s = .error e ↔ ∃ head, Heads s head ∧ e = .addressWithHead head) ∧
    ∀ s, Smbios.parse (Smbios.parse s).render = Smbios.parse s ∧ (Smbios.parse s).ToldBy s := by
  refine ⟨?_, ?_, ?_⟩
  · intro s a h
    exact ⟨(Addressing.writable_of_parse h).parse_render, Addressing.toldBy_of_parse h⟩
  · intro s e
    exact Addressing.parse_eq_error
  · intro s
    exact ⟨Smbios.parse_render_parse s, Smbios.toldBy_parse s⟩

theorem OptionText.reading_settles_untidy :
    let a : Addressing := { ip := some (.fixed "a=b"), gateway := some "" }
    Addressing.parse " ip=dhcp ,,gw=, mtu,ip=a=b" = .ok a ∧ a.render = "ip=a=b,gw=" ∧
      Addressing.parse a.render = .ok a ∧ a.ToldBy " ip=dhcp ,,gw=, mtu,ip=a=b" := by
  have hread : Addressing.parse " ip=dhcp ,,gw=, mtu,ip=a=b" =
      .ok { ip := some (.fixed "a=b"), gateway := some "" } := by decide +kernel
  exact ⟨hread, by decide +kernel, OptionText.reading_settles.1 _ _ hread⟩

/-- A bare serial number in the first place is not one. -/
example : Smbios.parse "serial,uuid=1, serial ,base64=on" =
    { uuid := some "1", serial := some "", base64 := true } := by decide +kernel

end NodeProvisioner
