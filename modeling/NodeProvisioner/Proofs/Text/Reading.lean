import NodeProvisioner.Proofs.Text

/-! Exactly which texts are read. A number has many numerals, of which only one is written; all of
them are read, and nothing else. Where a text is cut is known from what it was put together of. -/
namespace NodeProvisioner.Text

structure Digits (cs : List Char) (n : Nat) : Prop where
  nonempty : cs ≠ []
  isDigit : ∀ c ∈ cs, c.isDigit = true
  value : Nat.ofDigitChars 10 cs 0 = n

inductive Denotes (s : String) (n : Nat) : Prop where
  | plain (h : Digits s.toList n)
  | signed {cs : List Char} (hs : s.toList = '+' :: cs) (h : Digits cs n)

theorem digitsValue_eq_some {acc n : Nat} {cs : List Char} : digitsValue acc cs = some n ↔
    (∀ c ∈ cs, c.isDigit = true) ∧ Nat.ofDigitChars 10 cs acc = n := by
  constructor
  · intro h
    have hdigits : ∀ c ∈ cs, c.isDigit = true := by
      induction cs generalizing acc with
      | nil => simp
      | cons c cs ih =>
        unfold digitsValue at h
        split at h
        · next hc => exact List.forall_mem_cons.2 ⟨hc, ih h⟩
        · cases h
    rw [digitsValue_eq hdigits acc] at h
    exact ⟨hdigits, Option.some.inj h⟩
  · rintro ⟨hdigits, rfl⟩
    exact digitsValue_eq hdigits acc

theorem digits_cons {c : Char} {cs : List Char} {n : Nat} :
    Digits (c :: cs) n ↔ digitsValue 0 (c :: cs) = some n := by
  rw [digitsValue_eq_some]
  exact ⟨fun h => ⟨h.isDigit, h.value⟩, fun h => ⟨List.cons_ne_nil c cs, h.1, h.2⟩⟩

theorem not_digits_plus {cs : List Char} {n : Nat} : ¬ Digits ('+' :: cs) n :=
  fun h => absurd (h.isDigit '+' List.mem_cons_self) (by decide)

theorem readNat?_eq_some {s : String} {n : Nat} : readNat? s = some n ↔ Denotes s n := by
  unfold readNat?
  constructor
  · intro h
    split at h
    · cases h
    · cases h
    · next c cs hs => exact .signed hs (digits_cons.2 h)
    · next c cs _ hs => exact .plain (hs ▸ digits_cons.2 h)
  · intro h
    cases h with
    | plain h =>
      split
      · next hs => exact absurd hs h.nonempty
      · next hs => exact absurd (hs ▸ h) not_digits_plus
      · next hs => exact absurd (hs ▸ h) not_digits_plus
      · next hs => exact digits_cons.1 (hs ▸ h)
    | @signed cs hs h =>
      rw [hs]
      cases cs with
      | nil => exact absurd rfl h.nonempty
      | cons c cs => exact digits_cons.1 h

theorem readUInt32?_eq_some {s : String} {n : UInt32} :
    readUInt32? s = some n ↔ Denotes s n.toNat := by
  unfold readUInt32?
  rw [Option.bind_eq_some_iff, ← readNat?_eq_some]
  constructor
  · rintro ⟨k, hk, hn⟩
    split at hn
    · cases hn
      exact hk
    · cases hn
  · intro h
    exact ⟨n.toNat, h, by simp [n.toNat_lt_size]⟩

theorem denotes_numeral (n : Nat) : Denotes (numeral n) n := readNat?_eq_some.1 (readNat?_numeral n)

theorem Denotes.not_mem {s : String} {n : Nat} (h : Denotes s n) {c : Char}
    (hdigit : c.isDigit = false) (hplus : c ≠ '+') : c ∉ s.toList := by
  have hrow {cs : List Char} (hcs : Digits cs n) : c ∉ cs := by
    intro hc
    simp [hcs.isDigit c hc] at hdigit
  cases h with
  | plain h => exact hrow h
  | signed hs h =>
    rw [hs, List.mem_cons, not_or]
    exact ⟨hplus, hrow h⟩

theorem Denotes.unique {s : String} {n k : Nat} (h : Denotes s n) (h' : Denotes s k) : n = k := by
  rw [← readNat?_eq_some] at h h'
  exact Option.some.inj (h.symm.trans h')

theorem cut?_eq_some {sep : Char} {t s a b : String} (hsep : t.toList = [sep]) :
    cut? sep s = some (a, b) ↔ s = a ++ t ++ b ∧ sep ∉ a.toList := by
  constructor
  · intro h
    obtain ⟨⟨before, after⟩, hcut, hab⟩ := Option.map_eq_some_iff.1 h
    obtain ⟨hchars, hnot⟩ := cutChars_eq_some.1 hcut
    cases hab
    refine ⟨?_, by simpa using hnot⟩
    apply String.toList_injective
    simp [hchars, hsep]
  · rintro ⟨rfl, hnot⟩
    exact cut?_append hsep hnot

theorem cut?_eq_none_iff {sep : Char} {s : String} : cut? sep s = none ↔ sep ∉ s.toList := by
  rw [cut?, Option.map_eq_none_iff, cutChars_eq_none]

theorem cutLast?_eq_some {sep : Char} {t s a b : String} (hsep : t.toList = [sep]) :
    cutLast? sep s = some (a, b) ↔ s = a ++ t ++ b ∧ sep ∉ b.toList := by
  unfold cutLast?
  rw [Option.map_eq_some_iff]
  constructor
  · rintro ⟨⟨after, before⟩, hcut, hab⟩
    obtain ⟨hchars, hnot⟩ := cutChars_eq_some.1 hcut
    cases hab
    refine ⟨?_, by simpa using hnot⟩
    apply String.toList_injective
    rw [← List.reverse_reverse s.toList, hchars]
    simp [hsep]
  · rintro ⟨rfl, hnot⟩
    refine ⟨(b.toList.reverse, a.toList.reverse), ?_, by simp⟩
    rw [cutChars_eq_some]
    simp [hsep, hnot]

theorem cutLast?_eq_none {sep : Char} {s : String} : cutLast? sep s = none ↔ sep ∉ s.toList := by
  rw [cutLast?, Option.map_eq_none_iff, cutChars_eq_none, List.mem_reverse]

theorem after?_eq_some {start s rest : String} :
    after? start s = some rest ↔ s = start ++ rest := by
  constructor
  · intro h
    obtain ⟨cs, hcs, rfl⟩ := Option.map_eq_some_iff.1 h
    apply String.toList_injective
    rw [String.toList_append, String.toList_ofList]
    exact (List.isPrefixOf?_eq_some_iff_append_eq.1 hcs).symm
  · rintro rfl
    exact after?_append start rest

theorem pieces_eq_iff {sep : Char} {t s : String} (hsep : t.toList = [sep]) {ps : List String} :
    pieces sep s = ps ↔ ps ≠ [] ∧ (∀ p ∈ ps, sep ∉ p.toList) ∧ s = String.intercalate t ps := by
  constructor
  · rintro rfl
    refine ⟨pieces_ne_nil sep s, fun p => not_mem_of_mem_pieces, ?_⟩
    apply String.toList_injective
    have hjoin : [sep].intercalate (s.toList.splitOn sep) = s.toList :=
      List.intercalate_splitOn sep
    simp only [pieces, piecesBy, String.toList_intercalate, List.map_map, hsep]
    simpa [Function.comp_def, List.splitOn_eq_splitOnP] using hjoin.symm
  · rintro ⟨hne, hnot, rfl⟩
    exact pieces_intercalate hsep hne hnot

end NodeProvisioner.Text
