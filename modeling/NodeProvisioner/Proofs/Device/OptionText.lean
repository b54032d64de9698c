import NodeProvisioner.Device.OptionText
import NodeProvisioner.Proofs.KeyMap
import NodeProvisioner.Proofs.Text

/-! Option texts are read back as they were put together. A part survives the reading if it holds no
comma and no blank at its ends; then only its first equals sign matters. -/
namespace NodeProvisioner

namespace Text

/-- Can stand behind the equals sign of an option. -/
structure Value (s : String) : Prop where
  noComma : ',' ∉ s.toList
  noBlankEnd : s.toList.getLast?.any isBlank = false

/-- Can stand as a part of an option text. -/
structure Clean (s : String) : Prop extends Value s where
  nonempty : s.isEmpty = false
  noBlankStart : s.toList.head?.any isBlank = false

/-- Can stand in front of an equals sign, or for itself. -/
structure Token (s : String) : Prop extends Clean s where
  noEquals : '=' ∉ s.toList

instance (s : String) : Decidable (Value s) :=
  decidable_of_iff (_ ∧ _) ⟨fun h => ⟨h.1, h.2⟩, fun h => ⟨h.noComma, h.noBlankEnd⟩⟩

instance (s : String) : Decidable (Clean s) :=
  decidable_of_iff (_ ∧ _ ∧ _)
    ⟨fun h => ⟨h.1, h.2.1, h.2.2⟩, fun h => ⟨h.toValue, h.nonempty, h.noBlankStart⟩⟩

instance (s : String) : Decidable (Token s) :=
  decidable_of_iff (_ ∧ _) ⟨fun h => ⟨h.1, h.2⟩, fun h => ⟨h.toClean, h.noEquals⟩⟩

theorem Clean.trim {s : String} (h : Clean s) : Text.trim s = s :=
  trim_eq h.noBlankStart h.noBlankEnd

theorem Clean.toList_ne_nil {s : String} (h : Clean s) : s.toList ≠ [] := by
  have hne := h.nonempty
  rw [String.isEmpty_eq_false_iff, ne_eq, ← String.toList_eq_nil_iff] at hne
  exact hne

theorem value_of_eq_empty {s : String} (h : s.isEmpty = true) : Value s := by
  rw [String.isEmpty_iff] at h
  subst h
  decide

theorem value_numeral (n : Nat) : Value (numeral n) where
  noComma := not_mem_numeral (by decide)
  noBlankEnd := by
    cases hlast : (numeral n).toList.getLast? with
    | none => rfl
    | some c => exact isBlank_of_isDigit (isDigit_of_mem_numeral (List.mem_of_getLast? hlast))

theorem value_of_mem_map {α : Type} {o : Option α} {f : α → Nat} :
    ∀ v ∈ o.map fun a => numeral (f a), Value v := by
  intro v hv
  obtain ⟨a, -, rfl⟩ := Option.map_eq_some_iff.1 hv
  exact value_numeral _

theorem Clean.append {a b : String} (ha : Clean a) (hb : Value b) (hsome : b.isEmpty = false) :
    Clean (a ++ b) := by
  have hne := ha.toList_ne_nil
  have hbne : b.toList ≠ [] := by
    rwa [String.isEmpty_eq_false_iff, ne_eq, ← String.toList_eq_nil_iff] at hsome
  have hchars : (a ++ b).toList = a.toList ++ b.toList := String.toList_append
  refine ⟨⟨?_, ?_⟩, ?_, ?_⟩
  · rw [hchars, List.mem_append, not_or]
    exact ⟨ha.noComma, hb.noComma⟩
  · rw [hchars, List.getLast?_append_of_ne_nil _ hbne]
    exact hb.noBlankEnd
  · rw [String.isEmpty_eq_false_iff, ne_eq, ← String.toList_eq_nil_iff, hchars]
    simp [hne]
  · rw [hchars, List.head?_append_of_ne_nil _ hne]
    exact ha.noBlankStart

theorem Clean.option {key value : String} (hkey : Clean key) (hvalue : Value value) :
    Clean (key ++ "=" ++ value) := by
  have hequals : Value ("=" ++ value) := by
    refine ⟨?_, ?_⟩
    · rw [String.toList_append, List.mem_append, not_or]
      exact ⟨by decide, hvalue.noComma⟩
    · have hlast := hvalue.noBlankEnd
      rw [String.toList_append, List.getLast?_append]
      cases h : value.toList.getLast? with
      | none => decide
      | some c => simpa [h] using hlast
  have hsome : ("=" ++ value).isEmpty = false := by
    rw [String.isEmpty_eq_false_iff, ne_eq, ← String.toList_eq_nil_iff, String.toList_append]
    simp
  rw [String.append_assoc]
  exact hkey.append hequals hsome

theorem clean_intercalate {ts : List String} (hne : ts ≠ []) (h : ∀ t ∈ ts, Clean t) :
    Clean (String.intercalate ";" ts) := by
  induction ts with
  | nil => exact absurd rfl hne
  | cons t ts ih =>
    obtain ⟨ht, hts⟩ := List.forall_mem_cons.1 h
    cases ts with
    | nil => simpa using ht
    | cons t' ts =>
      have hrest := ih (List.cons_ne_nil _ _) hts
      have hsep : Clean (";" ++ String.intercalate ";" (t' :: ts)) :=
        Clean.append (by decide) hrest.toValue hrest.nonempty
      have := ht.append hsep.toValue hsep.nonempty
      simpa [String.intercalate_cons_cons, String.append_assoc] using this

theorem value_trim {s : String} (h : ',' ∉ s.toList) : Value (trim s) where
  noComma hc := h (mem_of_mem_trim hc)
  noBlankEnd := last_trim s

theorem value_of_cut? {sep : Char} {s a b : String} (hs : Value s) (h : cut? sep s = some (a, b)) :
    Value b := by
  obtain ⟨⟨before, rest⟩, hcut, hab⟩ := Option.map_eq_some_iff.1 h
  obtain ⟨hchars, -⟩ := cutChars_eq_some.1 hcut
  cases hab
  have hcomma := hs.noComma
  have hlast := hs.noBlankEnd
  rw [hchars] at hcomma hlast
  refine ⟨?_, ?_⟩
  · simp_all
  · cases rest with
    | nil => rfl
    | cons c cs =>
      rw [List.getLast?_append_of_ne_nil _ (List.cons_ne_nil _ _), List.getLast?_cons_cons]
        at hlast
      simpa using hlast

end Text

namespace OptionText

theorem value_of_option {p k v : String} (hp : Text.Value p) (h : option p = (k, v)) :
    Text.Value v := by
  unfold option at h
  cases hcut : Text.cut? '=' p with
  | none =>
    rw [hcut] at h
    cases h
    decide
  | some ab =>
    rw [hcut] at h
    obtain rfl : ab = (k, v) := h
    exact Text.value_of_cut? hp hcut

theorem value_of_get?_parse {s k v : String} (h : (parse s).get? k = some v) : Text.Value v := by
  have hparts : ∀ p ∈ parts s, Text.Value p := by
    intro p hp
    obtain ⟨t, ht, rfl⟩ := List.mem_map.1 hp
    exact Text.value_trim (Text.not_mem_of_mem_pieces ht)
  have hoptions : ∀ ps ⊆ parts s, (optionsOf ps).get? k = some v → Text.Value v := by
    intro ps hps hget
    rcases KeyMap.mem_of_get?_foldl_insert hget with hmem | hempty
    · obtain ⟨p, hp, hoption⟩ := List.mem_map.1 hmem
      exact value_of_option (hparts p (hps (List.mem_filter.1 hp).1)) hoption
    · cases hempty
  unfold parse at h
  cases hps : parts s with
  | nil =>
    rw [hps] at h
    cases h
  | cons first rest =>
    simp only [hps] at h hoptions
    split at h
    · exact hoptions rest (List.subset_cons_self first rest) h
    · exact hoptions (first :: rest) (List.Subset.refl _) h

theorem parts_join {ps : List String} (hne : ps ≠ []) (h : ∀ p ∈ ps, Text.Clean p) :
    parts (join ps) = ps := by
  unfold parts join
  rw [Text.pieces_intercalate rfl hne fun p hp => (h p hp).noComma]
  exact (List.map_congr_left fun p hp => (h p hp).trim).trans (List.map_id ps)

theorem optionsOf_eq {ps : List String} (h : ∀ p ∈ ps, Text.Clean p) :
    optionsOf ps = .ofList (ps.map option) := by
  have hkeep : ps.filter (!·.isEmpty) = ps :=
    List.filter_eq_self.2 fun p hp => by simp [(h p hp).nonempty]
  rw [optionsOf, hkeep]

theorem parse_join_head {head : String} {ps : List String} (hhead : Text.Token head)
    (h : ∀ p ∈ ps, Text.Clean p) :
    parse (join (head :: ps)) = { head := some head, options := .ofList (ps.map option) } := by
  have hisHead : isHead head = true := by
    simp [isHead, hhead.nonempty, Text.cut?_eq_none hhead.noEquals]
  unfold parse
  rw [parts_join (List.cons_ne_nil _ _) (List.forall_mem_cons.2 ⟨hhead.toClean, h⟩)]
  simp only [hisHead, if_true, optionsOf_eq h]

theorem parse_join_options {ps : List String} (h : ∀ p ∈ ps, Text.Clean p)
    (hcut : ∀ p ∈ ps.head?, (Text.cut? '=' p).isSome) :
    parse (join ps) = { options := .ofList (ps.map option) } := by
  cases ps with
  | nil => rfl
  | cons p ps =>
    have hnoHead : isHead p = false := by
      have hp : (Text.cut? '=' p).isSome := hcut p rfl
      simp [isHead, Option.isNone_eq_false_iff.2 hp]
    unfold parse
    rw [parts_join (List.cons_ne_nil _ _) h]
    simp [hnoHead, optionsOf_eq h]

theorem option_pair {key : String} (hkey : '=' ∉ key.toList) (value : String) :
    option (key ++ "=" ++ value) = (key, value) := by
  rw [option, Text.cut?_append rfl hkey]
  rfl

theorem option_key {key : String} (hkey : '=' ∉ key.toList) : option key = (key, "") := by
  rw [option, Text.cut?_eq_none hkey]
  rfl

def flagValue (on : Bool) : Option String := if on then some "1" else none

theorem writtenFlag_eq (key : String) (on : Bool) :
    writtenFlag key on = written key (flagValue on) := by
  cases on with
  | false => rfl
  | true =>
    have hone : key ++ "=1" = key ++ "=" ++ "1" := by rw [String.append_assoc]; rfl
    simp [writtenFlag, written, flagValue, hone]

theorem value_of_mem_flagValue {on : Bool} : ∀ v ∈ flagValue on, Text.Value v := by
  cases on
  · nofun
  · rintro _ ⟨⟩
    decide

theorem flag_of_get? {t : OptionText} {key : String} {on : Bool}
    (h : t.get? key = flagValue on) : t.flag key = on := by
  unfold flag
  rw [h]
  cases on <;> rfl

abbrev Written := List (String × Option String)

namespace Written

def parts (fs : Written) : List String := fs.flatMap fun f => written f.1 f.2

def found (fs : Written) : List (String × String) := fs.filterMap fun f => f.2.map (f.1, ·)

/-- Everything that is written is read as it was. -/
def Sound (fs : Written) : Prop := ∀ f ∈ fs, Text.Token f.1 ∧ ∀ v ∈ f.2, Text.Value v

theorem Sound.nil : Sound [] := nofun

theorem Sound.cons {key : String} {o : Option String} {fs : Written} (hkey : Text.Token key)
    (hvalue : ∀ v ∈ o, Text.Value v) (h : Sound fs) : Sound ((key, o) :: fs) :=
  List.forall_mem_cons.2 ⟨⟨hkey, hvalue⟩, h⟩

theorem mem_found {fs : Written} {k v : String} : (k, v) ∈ fs.found ↔ (k, some v) ∈ fs := by
  simp [found]

theorem parts_clean {fs : Written} (h : fs.Sound) : ∀ p ∈ fs.parts, Text.Clean p := by
  intro p hp
  obtain ⟨⟨key, value⟩, hf, hp⟩ := List.mem_flatMap.1 hp
  cases value with
  | none => exact absurd hp List.not_mem_nil
  | some v =>
    obtain rfl := List.mem_singleton.1 hp
    exact Text.Clean.option (h _ hf).1.toClean ((h _ hf).2 v rfl)

theorem map_option_parts {fs : Written} (h : fs.Sound) : fs.parts.map option = fs.found := by
  induction fs with
  | nil => rfl
  | cons f fs ih =>
    obtain ⟨hf, hfs⟩ := List.forall_mem_cons.1 h
    obtain ⟨key, value⟩ := f
    have hrest : (parts fs).map option = found fs := ih hfs
    cases value with
    | none => simpa [parts, found, written] using hrest
    | some v =>
      have hoption := option_pair hf.1.noEquals v
      simpa [parts, found, written, hoption] using hrest

theorem cut?_head {fs : Written} (h : fs.Sound) :
    ∀ p ∈ fs.parts.head?, (Text.cut? '=' p).isSome := by
  intro p hp
  obtain ⟨⟨key, value⟩, hf, hp⟩ := List.mem_flatMap.1 (List.mem_of_mem_head? hp)
  cases value with
  | none => exact absurd hp List.not_mem_nil
  | some v =>
    obtain rfl := List.mem_singleton.1 hp
    rw [Text.cut?_append rfl (h _ hf).1.noEquals]
    rfl

def text (head : Option String) (fs : Written) : OptionText :=
  { head, options := .ofList fs.found }

theorem parse_join {fs : Written} (h : fs.Sound) : parse (join fs.parts) = text none fs := by
  rw [parse_join_options (parts_clean h) (cut?_head h), map_option_parts h]
  rfl

theorem parse_join_head {fs : Written} {head : String} (hhead : Text.Token head) (h : fs.Sound) :
    parse (join (head :: fs.parts)) = text (some head) fs := by
  rw [OptionText.parse_join_head hhead (parts_clean h), map_option_parts h]
  rfl

theorem get?_foldl_found {fs : Written} {k : String} {o : Option String}
    (hkeys : (fs.map (·.1)).Nodup) (h : (k, o) ∈ fs) (m : KeyMap String String) :
    (fs.found.foldl (fun m e => m.insert e.1 e.2) m).get? k = o.or (m.get? k) := by
  have hsole : ∀ o', (k, o') ∈ fs → o' = o := fun o' h' =>
    congrArg Prod.snd (List.inj_on_of_nodup_map hkeys h' h rfl)
  cases o with
  | none =>
    refine KeyMap.get?_foldl_insert_of_not_mem (fun hk => ?_) m
    obtain ⟨⟨k', v⟩, hv, rfl⟩ := List.mem_map.1 hk
    cases hsole _ (mem_found.1 hv)
  | some v =>
    refine KeyMap.get?_foldl_insert_of_sole (mem_found.2 h) (fun w hw => ?_) m
    exact Option.some.inj (hsole _ (mem_found.1 hw))

theorem get?_text {fs : Written} {k : String} {o : Option String} (hkeys : (fs.map (·.1)).Nodup)
    (h : (k, o) ∈ fs) (head : Option String) : (text head fs).get? k = o :=
  (get?_foldl_found hkeys h .empty).trans Option.or_none

theorem mem_of_get?_text {fs : Written} {k v : String} {head : Option String}
    (h : (text head fs).get? k = some v) : (k, some v) ∈ fs := by
  rcases KeyMap.mem_of_get?_foldl_insert h with hmem | hempty
  · exact mem_found.1 hmem
  · cases hempty

theorem get?_text_of_unwritten {fs : Written} {k : String} (h : ∀ v, (k, some v) ∉ fs)
    (head : Option String) : (text head fs).get? k = none := by
  cases hget : (text head fs).get? k with
  | none => rfl
  | some v => exact absurd (mem_of_get?_text hget) (h v)

end Written
end OptionText
end NodeProvisioner
