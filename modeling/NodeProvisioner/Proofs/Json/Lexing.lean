import Mathlib.Data.List.TakeWhile
import Mathlib.Tactic.IntervalCases
import NodeProvisioner.Json.Token
import NodeProvisioner.Json.Writing
import NodeProvisioner.Proofs.Text

/-! Written JSON cut into tokens again. A word or a number ends only where the text ends or another
token begins, so what is said of the pieces of a text is said of what may follow them too. -/
namespace NodeProvisioner.Json

namespace Token

/-- Where a word can end: at the end of the text, or before a token of one character. -/
def Ending : List Char → Prop
  | [] => True
  | c :: _ => ∃ t, mark? c = some t

/-- These characters stand for these tokens, whatever was read before. -/
def Spells (cs : List Char) (ts : List Token) : Prop :=
  ∀ done rest, Ending rest → between done (cs ++ rest) = between (ts.reverse ++ done) rest

variable {c : Char} {cs cs' rest word : List Char} {t : Token} {ts ts' done : List Token}

theorem mark_solid (h : mark? c = some t) : (c == '"') = false ∧ isSpace c = false := by
  unfold mark? at h
  split at h <;> first | exact ⟨rfl, rfl⟩ | cases h

theorem between_mark (h : mark? c = some t) :
    between done (c :: cs) = between (t :: done) cs := by
  obtain ⟨hquote, hspace⟩ := mark_solid h
  simp [between, hquote, hspace, h]

theorem Spells.mark (h : mark? c = some t) : Spells [c] [t] := fun _ _ _ => between_mark h

theorem Spells.append (h : Spells cs ts) (h' : Spells cs' ts')
    (hend : ∀ rest, Ending (cs' ++ rest)) : Spells (cs ++ cs') (ts ++ ts') := by
  intro done rest hrest
  rw [List.append_assoc, h done _ (hend rest), h' _ rest hrest, List.reverse_append,
    List.append_assoc]

theorem Spells.cons_mark (hc : mark? c = some t) (h : Spells cs ts) :
    Spells (c :: cs) (t :: ts) := by
  intro done rest hrest
  rw [List.cons_append, between_mark hc, h _ rest hrest, List.reverse_cons, List.append_assoc]
  rfl

structure Plain (c : Char) : Prop where
  unquoted : (c == '"') = false
  solid : isSpace c = false
  unmarked : mark? c = none

theorem inWord_append (h : ∀ c ∈ cs, Plain c) :
    inWord done word (cs ++ rest) = inWord done (cs.reverse ++ word) rest := by
  induction cs generalizing word with
  | nil => rfl
  | cons c cs ih =>
    obtain ⟨hc, hcs⟩ := List.forall_mem_cons.1 h
    rw [List.cons_append, inWord]
    simp [hc.solid, hc.unmarked, ih hcs]

theorem inWord_ending (hrest : Ending rest) (hword : word? word.reverse = some t) :
    inWord done word rest = between (t :: done) rest := by
  cases rest with
  | nil => simp [inWord, between, hword]
  | cons c rest =>
    obtain ⟨m, hm⟩ := hrest
    rw [inWord, between_mark hm]
    simp [(mark_solid hm).2, hm, hword]

theorem Spells.ofWord (h : word? cs = some t) (hne : cs ≠ []) (hplain : ∀ c ∈ cs, Plain c) :
    Spells cs [t] := by
  intro done rest hrest
  cases cs with
  | nil => exact absurd rfl hne
  | cons c cs =>
    obtain ⟨hc, hcs⟩ := List.forall_mem_cons.1 hplain
    rw [List.cons_append, between]
    simp only [hc.unquoted, hc.solid, hc.unmarked, Bool.false_eq_true, if_false]
    rw [inWord_append hcs, inWord_ending hrest (by simpa using h)]
    rfl

theorem Plain.of_isAlphanum (h : c.isAlphanum = true) : Plain c := by
  have hne {m : Char} (hm : m.isAlphanum = false) : c ≠ m := by
    rintro rfl
    rw [h] at hm
    cases hm
  constructor
  · exact beq_false_of_ne (hne rfl)
  · simp [isSpace, hne]
  · unfold mark?
    split <;> first | exact absurd rfl (hne rfl) | rfl

end Token

namespace Numeral

theorem digits_eq {cs : List Char} (h : ∀ c ∈ cs, c.isDigit = true) :
    digits cs = (cs.map fun c => c.toNat - '0'.toNat, []) := by
  rw [digits, List.takeWhile_eq_self_iff.2 h, List.dropWhile_eq_nil_iff.2 h]

theorem value_map (cs : List Char) :
    value (cs.map fun c => c.toNat - '0'.toNat) = Nat.ofDigitChars 10 cs 0 := by
  rw [value, List.foldl_map]
  rfl

theorem head_toDigits {n : Nat} (h : 0 < n) : (Nat.toDigits 10 n).head? ≠ some '0' := by
  induction n using Nat.strongRecOn with
  | ind n ih =>
    rw [Nat.toDigits_eq_if (by decide)]
    split
    · next hlt => interval_cases n <;> decide
    · next hle =>
      have hquotient := ih (n / 10) (by omega) (by omega)
      rw [List.head?_append_of_ne_nil _ Nat.toDigits_ne_nil]
      exact hquotient

theorem whole?_of_lead {c : Char} {cs : List Char} (h : ∀ d ∈ c :: cs, d.isDigit = true)
    (hlead : c ≠ '0' ∨ cs = []) :
    whole? (c :: cs) = some ((c :: cs).map fun d => d.toNat - '0'.toNat, []) := by
  unfold whole? digits?
  rw [digits_eq h, List.map_cons]
  rcases hlead with hlead | rfl
  · have hpos : c.toNat - '0'.toNat ≠ 0 := by
      have hrange : 48 ≤ c.toNat ∧ c.toNat ≤ 57 := by
        simpa [Char.isDigit, UInt32.le_iff_toNat_le] using h c List.mem_cons_self
      have hne : c.toNat ≠ '0'.toNat := fun heq => hlead (Char.toNat_inj.1 heq)
      have hzero : '0'.toNat = 48 := rfl
      omega
    generalize c.toNat - '0'.toNat = d at hpos
    cases d with
    | zero => exact absurd rfl hpos
    | succ d => rfl
  · generalize c.toNat - '0'.toNat = d
    cases d <;> rfl

theorem whole?_toDigits (n : Nat) : whole? (Nat.toDigits 10 n) =
    some ((Nat.toDigits 10 n).map fun c => c.toNat - '0'.toNat, []) := by
  have hdigits : ∀ c ∈ Nat.toDigits 10 n, c.isDigit = true := fun c hc =>
    Nat.isDigit_of_mem_toDigits (by decide) (by decide) hc
  rcases Nat.eq_zero_or_pos n with rfl | hpos
  · rfl
  · have hhead := head_toDigits hpos
    cases hcs : Nat.toDigits 10 n with
    | nil => exact absurd hcs Nat.toDigits_ne_nil
    | cons c cs =>
      rw [hcs] at hdigits hhead
      exact whole?_of_lead hdigits (.inl fun hc => hhead (by rw [hc]; rfl))

theorem parse?_toDigits (n : Nat) : parse? (Nat.toDigits 10 n) = some {
    negative := false, whole := (Nat.toDigits 10 n).map fun c => c.toNat - '0'.toNat
    fraction := none, exponent := none } := by
  have hsign : sign (Nat.toDigits 10 n) = (false, Nat.toDigits 10 n) := by
    unfold sign
    split
    · next cs hcs =>
      have hmem : '-' ∈ Nat.toDigits 10 n := by simp [hcs]
      cases Nat.isDigit_of_mem_toDigits (by decide) (by decide) hmem
    · rfl
  simp [parse?, hsign, whole?_toDigits, fraction?, exponent?]

theorem toDocument_natural {ds : List Nat} {n : Nat} (hvalue : value ds = n)
    (h : n < UInt64.size) :
    toDocument { negative := false, whole := ds, fraction := none, exponent := none } =
      .integer n := by
  simp [toDocument, integer?, hvalue, h]

end Numeral

theorem Token.word?_numeral {n : Nat} (h : n < UInt64.size) :
    word? (Text.numeral n).toList = some (leaf (.integer n)) := by
  have hword {w : String} {c : Char} (hc : c ∈ w.toList) (hdigit : c.isDigit = false) :
      (Text.numeral n).toList ≠ w.toList := fun heq => Text.not_mem_numeral hdigit (heq ▸ hc)
  have hvalue : Numeral.value ((Nat.toDigits 10 n).map fun c => c.toNat - '0'.toNat) = n := by
    rw [Numeral.value_map, Nat.ofDigitChars_toDigits (by decide) (by decide)]
  unfold word?
  rw [if_neg (hword (c := 'n') (by decide) (by decide)),
    if_neg (hword (c := 't') (by decide) (by decide)),
    if_neg (hword (c := 'f') (by decide) (by decide)), Text.toList_numeral,
    Numeral.parse?_toDigits, Option.map_some, Numeral.toDocument_natural hvalue h]

theorem Token.Spells.numeral {n : Nat} (h : n < UInt64.size) :
    Spells (Text.numeral n).toList [leaf (.integer n)] := by
  refine .ofWord (word?_numeral h) ?_ fun c hc => ?_
  · rw [Text.toList_numeral]
    exact Nat.toDigits_ne_nil
  · exact .of_isAlphanum (by simp [Char.isAlphanum, Text.isDigit_of_mem_numeral hc])

theorem Token.hexDigit?_hexDigit {d : Nat} (h : d < 16) : hexDigit? (hexDigit d) = some d := by
  interval_cases d <;> rfl

namespace Token
variable {c : Char} {cs rest chars : List Char} {done : List Token} {n : Nat}

theorem codeUnit?_hexDigits (h : n < 65536) :
    ∃ a b c d, hexDigits 4 n = [a, b, c, d] ∧ codeUnit? a b c d = some n := by
  refine ⟨_, _, _, _, rfl, ?_⟩
  have hdigit (i : Nat) :
      hexDigit? (hexDigit (n >>> (4 * i) % 16)) = some (n / 2 ^ (4 * i) % 16) := by
    rw [hexDigit?_hexDigit (Nat.mod_lt _ (by decide)), Nat.shiftRight_eq_div_pow]
  rw [codeUnit?, hdigit, hdigit, hdigit, hdigit]
  change some ((n / 4096 % 16 * 16 + n / 256 % 16) * 256 + n / 16 % 16 * 16 + n / 1 % 16) = some n
  apply congrArg some
  omega

theorem toNat_of_isEscaped (h : isEscaped c = true) : c.toNat ≤ 0x2029 := by
  simp only [isEscaped, Bool.or_eq_true, decide_eq_true_eq, beq_iff_eq] at h
  omega

theorem inText_writeChar :
    inText done none chars (writeChar c ++ cs) = inText done none (c :: chars) cs := by
  unfold writeChar
  split
  · next h =>
    simp only [Bool.or_eq_true, beq_iff_eq] at h
    rcases h with rfl | rfl <;> simp [inText, escaped?]
  · next hplain =>
    simp only [Bool.or_eq_true, beq_iff_eq, not_or] at hplain
    split
    · next h =>
      have hle := toNat_of_isEscaped h
      obtain ⟨a, b, x, d, hdigits, hunit⟩ := codeUnit?_hexDigits (n := c.toNat) (by omega)
      have hlow : isLowHalf c.toNat = false := by simp [isLowHalf]; omega
      have hhigh : isHighHalf c.toNat = false := by simp [isHighHalf]; omega
      rw [hdigits]
      simp [inText, hunit, hlow, hhigh]
    · next h =>
      have hlow : ¬ c.toNat < 0x20 := by
        intro hlow
        exact h (by simp [isEscaped, hlow])
      simp [inText, hlow, hplain]

theorem inText_flatMap : inText done none chars (cs.flatMap writeChar ++ rest) =
    inText done none (cs.reverse ++ chars) rest := by
  induction cs generalizing chars with
  | nil => rfl
  | cons c cs ih => simp [inText_writeChar, ih]

theorem Spells.quote (s : String) : Spells (Json.quote s).toList [leaf (.text s)] := by
  intro done rest _
  rw [Json.quote, String.toList_ofList, List.append_assoc, List.cons_append, between]
  simp [inText_flatMap, inText]

end Token

end NodeProvisioner.Json
