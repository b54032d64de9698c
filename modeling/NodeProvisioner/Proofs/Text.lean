import Mathlib.Data.List.Basic
import NodeProvisioner.Text.Blank
import NodeProvisioner.Text.Cut
import NodeProvisioner.Text.Numeral

/-! Texts that are put together and read back: pieces between separators, and numerals. -/
namespace NodeProvisioner.Text

theorem piecesBy_intercalate {p : Char → Bool} {sep : Char} {s : String} (hsep : s.toList = [sep])
    (hp : p sep = true) {parts : List String} (hne : parts ≠ [])
    (h : ∀ t ∈ parts, ∀ c ∈ t.toList, p c = false) :
    piecesBy p (String.intercalate s parts) = parts := by
  induction parts with
  | nil => exact absurd rfl hne
  | cons t ts ih =>
    obtain ⟨ht, hts⟩ := List.forall_mem_cons.1 h
    cases ts with
    | nil => simp [piecesBy, List.splitOnP_eq_singleton ht]
    | cons t' ts =>
      have hrest := ih (List.cons_ne_nil _ _) hts
      unfold piecesBy at hrest ⊢
      rw [String.intercalate_cons_cons, String.toList_append, String.toList_append, hsep,
        List.append_assoc, List.singleton_append, List.splitOnP_append_cons _ _ hp,
        List.splitOnP_eq_singleton ht, List.map_append, hrest]
      simp

theorem pieces_intercalate {sep : Char} {s : String} (hsep : s.toList = [sep])
    {parts : List String} (hne : parts ≠ []) (h : ∀ p ∈ parts, sep ∉ p.toList) :
    pieces sep (String.intercalate s parts) = parts := by
  unfold pieces
  refine piecesBy_intercalate (p := (· == sep)) hsep (beq_self_eq_true sep) hne fun t ht c hc => ?_
  simpa using fun heq : c = sep => h t ht (heq ▸ hc)

theorem pieces_append {sep : Char} {s : String} (hsep : s.toList = [sep]) (a b : String) :
    pieces sep (a ++ s ++ b) = pieces sep a ++ pieces sep b := by
  have htext : (a ++ s ++ b).toList = a.toList ++ sep :: b.toList := by simp [hsep]
  have hp : (sep == sep) = true := beq_self_eq_true sep
  unfold pieces piecesBy
  rw [htext, List.splitOnP_append_cons (p := (· == sep)) _ _ hp, List.map_append]

theorem pieces_intercalate_eq {sep : Char} {s : String} (hsep : s.toList = [sep])
    {parts : List String} (hne : parts ≠ []) :
    pieces sep (String.intercalate s parts) = parts.flatMap (pieces sep) := by
  induction parts with
  | nil => exact absurd rfl hne
  | cons t ts ih =>
    cases ts with
    | nil => simp
    | cons t' ts =>
      rw [String.intercalate_cons_cons, pieces_append hsep, ih (List.cons_ne_nil _ _)]
      rfl

theorem pieces_of_not_mem {sep : Char} {s : String} (h : sep ∉ s.toList) : pieces sep s = [s] := by
  unfold pieces piecesBy
  have hnone : ∀ c ∈ s.toList, (c == sep) = false := by
    intro c hc
    simpa using fun heq : c = sep => h (heq ▸ hc)
  rw [List.splitOnP_eq_singleton hnone]
  simp

theorem pieces_ne_nil (sep : Char) (s : String) : pieces sep s ≠ [] := by
  simp [pieces, piecesBy]

theorem not_mem_of_pieces {sep : Char} {s t : String} (h : pieces sep s = [t]) :
    sep ∉ s.toList ∧ t = s := by
  have hnot : sep ∉ s.toList := by
    intro hmem
    obtain ⟨a, b, hab⟩ := List.append_of_mem hmem
    have hp : (sep == sep) = true := beq_self_eq_true sep
    have hlength := congrArg List.length h
    unfold pieces piecesBy at hlength
    rw [hab, List.splitOnP_append_cons (p := (· == sep)) _ _ hp] at hlength
    have ha := List.length_pos_of_ne_nil (List.splitOnP_ne_nil (· == sep) a)
    have hb := List.length_pos_of_ne_nil (List.splitOnP_ne_nil (· == sep) b)
    simp only [List.length_map, List.length_append, List.length_singleton] at hlength
    omega
  rw [pieces_of_not_mem hnot] at h
  exact ⟨hnot, (List.head_eq_of_cons_eq h).symm⟩

theorem of_mem_splitOnP {p : Char → Bool} {s t : List Char} (h : t ∈ s.splitOnP p) :
    ∀ c ∈ t, p c = false := by
  induction s generalizing t with
  | nil => simp_all
  | cons x xs ih =>
    rw [List.splitOnP_cons_eq_if_modifyHead] at h
    split at h
    · rcases List.mem_cons.1 h with rfl | h
      · simp
      · exact ih h
    · next hx =>
      cases hxs : xs.splitOnP p with
      | nil => simp [hxs] at h
      | cons u us =>
        rw [hxs] at h ih
        rcases List.mem_cons.1 h with rfl | h
        · exact List.forall_mem_cons.2 ⟨by simpa using hx, ih List.mem_cons_self⟩
        · exact ih (List.mem_cons_of_mem u h)

theorem not_mem_of_mem_pieces {sep : Char} {s t : String} (h : t ∈ pieces sep s) :
    sep ∉ t.toList := by
  obtain ⟨cs, hcs, rfl⟩ := List.mem_map.1 h
  intro hsep
  rw [String.toList_ofList] at hsep
  simpa using of_mem_splitOnP hcs sep hsep

theorem mem_of_mem_trim {s : String} {c : Char} (h : c ∈ (trim s).toList) : c ∈ s.toList := by
  simp only [trim, String.toList_ofList, trimEnd, trimStart, List.mem_reverse] at h
  have hstart := (List.dropWhile_sublist _).mem h
  exact (List.dropWhile_sublist _).mem (List.mem_reverse.1 hstart)

theorem last_trim (s : String) : (trim s).toList.getLast?.any isBlank = false := by
  have hhead := List.head?_dropWhile_not isBlank (trimStart s.toList).reverse
  simp only [trim, String.toList_ofList, trimEnd, List.getLast?_reverse]
  cases h : ((trimStart s.toList).reverse.dropWhile isBlank).head? with
  | none => rfl
  | some c => simpa [h] using hhead

theorem trim_eq {s : String} (hfirst : s.toList.head?.any isBlank = false)
    (hlast : s.toList.getLast?.any isBlank = false) : trim s = s := by
  have hstart : trimStart s.toList = s.toList := by
    unfold trimStart
    cases hs : s.toList with
    | nil => rfl
    | cons c cs =>
      rw [List.dropWhile_cons_of_neg]
      simpa [hs] using hfirst
  have hend : trimEnd s.toList = s.toList := by
    unfold trimEnd
    cases hs : s.toList.reverse with
    | nil => simpa using hs.symm
    | cons c cs =>
      rw [List.dropWhile_cons_of_neg, ← hs, List.reverse_reverse]
      rw [List.getLast?_eq_head?_reverse, hs] at hlast
      simpa using hlast
  rw [trim, hstart, hend, String.ofList_toList]

theorem trim_of_solid {s : String} (h : ∀ c ∈ s.toList, isBlank c = false) : trim s = s := by
  apply trim_eq
  · cases hs : s.toList.head? with
    | none => rfl
    | some c => exact h c (List.mem_of_head? hs)
  · cases hs : s.toList.getLast? with
    | none => rfl
    | some c => exact h c (List.mem_of_getLast? hs)

theorem cut?_append {sep : Char} {s a b : String} (hsep : s.toList = [sep]) (h : sep ∉ a.toList) :
    cut? sep (a ++ s ++ b) = some (a, b) := by
  have htext : (a ++ s ++ b).toList = a.toList ++ sep :: b.toList := by simp [hsep]
  rw [cut?, htext, cutChars_eq_some.2 ⟨rfl, h⟩]
  simp

theorem cut?_eq_none {sep : Char} {s : String} (h : sep ∉ s.toList) : cut? sep s = none := by
  rw [cut?, cutChars_eq_none.2 h]
  rfl

theorem after?_append (start rest : String) : after? start (start ++ rest) = some rest := by
  have hprefix : start.toList.isPrefixOf? (start ++ rest).toList = some rest.toList :=
    List.isPrefixOf?_eq_some_iff_append_eq.2 String.toList_append.symm
  rw [after?, hprefix, Option.map_some, String.ofList_toList]

theorem prefix_of_after? {start s rest : String} (h : after? start s = some rest) :
    start.toList <+: s.toList := by
  obtain ⟨cs, hcs, -⟩ := Option.map_eq_some_iff.1 h
  exact ⟨cs, List.isPrefixOf?_eq_some_iff_append_eq.1 hcs⟩

theorem after?_eq_none {a b s rest : String} (h : after? a s = some rest)
    (hab : ¬ a.toList <+: b.toList ∧ ¬ b.toList <+: a.toList) : after? b s = none := by
  cases hb : after? b s with
  | none => rfl
  | some _ =>
    rcases List.prefix_or_prefix_of_prefix (prefix_of_after? h) (prefix_of_after? hb) with h | h
    · exact absurd h hab.1
    · exact absurd h hab.2

theorem includes_iff {part s : List Char} : includes part s = true ↔ part <:+: s := by
  induction s with
  | nil => simp [includes]
  | cons c s ih => simp [includes, ih, List.infix_cons_iff, List.isPrefixOf_iff_prefix]

theorem isBlank_of_isDigit {c : Char} (h : c.isDigit = true) : isBlank c = false := by
  have hrange : 48 ≤ c.toNat ∧ c.toNat ≤ 57 := by
    simpa [Char.isDigit, UInt32.le_iff_toNat_le] using h
  simp only [isBlank, blankRanges, List.any_cons, List.any_nil, Bool.or_false, Bool.or_eq_false_iff,
    Bool.and_eq_false_iff, decide_eq_false_iff_not]
  omega

@[simp] theorem toList_numeral (n : Nat) : (numeral n).toList = Nat.toDigits 10 n := by
  simp [numeral]

theorem numeral_isEmpty (n : Nat) : (numeral n).isEmpty = false := by
  rw [String.isEmpty_eq_false_iff, ne_eq, ← String.toList_eq_nil_iff, toList_numeral]
  exact Nat.toDigits_ne_nil

theorem isDigit_of_mem_numeral {n : Nat} {c : Char} (h : c ∈ (numeral n).toList) :
    c.isDigit = true :=
  Nat.isDigit_of_mem_toDigits (by decide) (by decide) (toList_numeral n ▸ h)

theorem not_mem_numeral {n : Nat} {c : Char} (h : c.isDigit = false) : c ∉ (numeral n).toList := by
  intro hc
  rw [isDigit_of_mem_numeral hc] at h
  cases h

theorem digitsValue_eq {cs : List Char} (h : ∀ c ∈ cs, c.isDigit = true) (acc : Nat) :
    digitsValue acc cs = some (Nat.ofDigitChars 10 cs acc) := by
  induction cs generalizing acc with
  | nil => rfl
  | cons c cs ih =>
    obtain ⟨hc, hcs⟩ := List.forall_mem_cons.1 h
    rw [digitsValue, if_pos hc, ih hcs]
    rfl

@[simp] theorem readNat?_numeral (n : Nat) : readNat? (numeral n) = some n := by
  have hdigits : ∀ c ∈ Nat.toDigits 10 n, c.isDigit = true := fun c hc =>
    isDigit_of_mem_numeral (n := n) (by simpa using hc)
  have hvalue := digitsValue_eq hdigits 0
  rw [Nat.ofDigitChars_toDigits (by decide) (by decide)] at hvalue
  unfold readNat?
  rw [toList_numeral]
  cases hcs : Nat.toDigits 10 n with
  | nil => exact absurd hcs Nat.toDigits_ne_nil
  | cons c cs =>
    rw [hcs] at hvalue hdigits
    have hplus : c ≠ '+' := by
      rintro rfl
      exact absurd (hdigits '+' List.mem_cons_self) (by decide)
    split <;> simp_all

@[simp] theorem readUInt8?_numeral (n : UInt8) : readUInt8? (numeral n.toNat) = some n := by
  simp [readUInt8?, n.toNat_lt_size]

@[simp] theorem readUInt16?_numeral (n : UInt16) : readUInt16? (numeral n.toNat) = some n := by
  simp [readUInt16?, n.toNat_lt_size]

@[simp] theorem readUInt32?_numeral (n : UInt32) : readUInt32? (numeral n.toNat) = some n := by
  simp [readUInt32?, n.toNat_lt_size]

@[simp] theorem readUInt64?_numeral (n : UInt64) : readUInt64? (numeral n.toNat) = some n := by
  simp [readUInt64?, n.toNat_lt_size]

theorem readNat?_of_readUInt64? {s : String} {n : UInt64} (h : readUInt64? s = some n) :
    readNat? s = some n.toNat := by
  obtain ⟨value, hvalue, hn⟩ := Option.bind_eq_some_iff.1 h
  split at hn
  · obtain rfl := Option.some.inj hn
    exact hvalue
  · cases hn

end NodeProvisioner.Text
