import NodeProvisioner.Proofs.Machine.Writing
import NodeProvisioner.Template.Inventory

/-! What the fingerprint of a template tells apart. Bootstrap settings are digested as sorted lines,
and two machines give the same lines only if they have the same settings. -/
namespace NodeProvisioner

/-! ### The text of a list of pairs -/

namespace Fingerprint

def lines (ps : List (String × String)) : List String :=
  (ps.map line).mergeSort fun a b => decide (a ≤ b)

theorem text_eq (ps : List (String × String)) : text ps = String.intercalate "\n" (lines ps) := rfl

@[simp] theorem mem_lines {ps : List (String × String)} {l : String} :
    l ∈ lines ps ↔ ∃ p ∈ ps, line p = l := by
  rw [lines, List.mem_mergeSort, List.mem_map]

theorem lines_sorted (ps : List (String × String)) : (lines ps).Pairwise (· ≤ ·) := by
  have hsorted : (lines ps).Pairwise fun a b => decide (a ≤ b) = true := by
    refine List.pairwise_mergeSort (fun a b c hab hbc => ?_) (fun a b => ?_) _
    · rw [decide_eq_true_eq] at hab hbc ⊢
      exact String.le_trans hab hbc
    · rw [Bool.or_eq_true, decide_eq_true_eq, decide_eq_true_eq]
      exact String.le_total a b
  exact hsorted.imp of_decide_eq_true

theorem text_of_perm {ps qs : List (String × String)} (h : ps.Perm qs) : text ps = text qs := by
  have hlines : (lines ps).Perm (lines qs) :=
    (List.mergeSort_perm _ _).trans ((h.map line).trans (List.mergeSort_perm _ _).symm)
  rw [text_eq, text_eq, hlines.eq_of_pairwise (fun _ _ _ _ => String.le_antisymm)
    (lines_sorted ps) (lines_sorted qs)]

/-- A pair that can be told from its line, and its line from the lines around it. -/
structure Plain (p : String × String) : Prop where
  key : '=' ∉ p.1.toList
  keyOneLine : '\n' ∉ p.1.toList
  valueOneLine : '\n' ∉ p.2.toList

namespace Plain
variable {p q : String × String}

theorem cut?_line (hp : Plain p) : Text.cut? '=' (line p) = some p := Text.cut?_append rfl hp.key

theorem line_injective (hp : Plain p) (hq : Plain q) (h : line p = line q) : p = q := by
  have hcut := hp.cut?_line
  rw [h, hq.cut?_line] at hcut
  exact (Option.some.inj hcut).symm

theorem oneLine (hp : Plain p) : '\n' ∉ (line p).toList := by
  simp [line, hp.keyOneLine, hp.valueOneLine]

end Plain

theorem line_ne_empty (p : String × String) : line p ≠ "" := by
  intro h
  have hmem : '=' ∈ (line p).toList := by simp [line]
  rw [h] at hmem
  cases hmem

/-- A text is taken apart into its lines. No text at all is one empty line, which no pair gives. -/
theorem pieces_text {ps : List (String × String)} (h : ∀ p ∈ ps, Plain p) :
    (Text.pieces '\n' (text ps)).filter (!·.isEmpty) = lines ps := by
  have hkeep : (lines ps).filter (!·.isEmpty) = lines ps := by
    refine List.filter_eq_self.2 fun l hl => ?_
    obtain ⟨p, -, rfl⟩ := mem_lines.1 hl
    simpa using line_ne_empty p
  cases hlines : lines ps with
  | nil =>
    rw [text_eq, hlines]
    decide
  | cons l ls =>
    have hone : ∀ l ∈ lines ps, '\n' ∉ l.toList := by
      intro l hl
      obtain ⟨p, hp, rfl⟩ := mem_lines.1 hl
      exact (h p hp).oneLine
    rw [text_eq, Text.pieces_intercalate rfl (by simp [hlines]) hone, hkeep, hlines]

theorem mem_of_text_eq {ps qs : List (String × String)} (hps : ∀ p ∈ ps, Plain p)
    (hqs : ∀ q ∈ qs, Plain q) (h : text ps = text qs) {p : String × String} (hp : p ∈ ps) :
    p ∈ qs := by
  have hlines : lines ps = lines qs := by rw [← pieces_text hps, ← pieces_text hqs, h]
  have hline : line p ∈ lines qs := hlines ▸ mem_lines.2 ⟨p, hp, rfl⟩
  obtain ⟨q, hq, hqp⟩ := mem_lines.1 hline
  rwa [(hps p hp).line_injective (hqs q hq) hqp.symm]

theorem text_entries_inj {m n : KeyMap String String} (hm : ∀ p ∈ m.entries, Plain p)
    (hn : ∀ p ∈ n.entries, Plain p) : text m.entries = text n.entries ↔ m = n := by
  constructor
  · intro h
    refine KeyMap.ext_get? fun key => Option.ext fun value => ?_
    have hmem : (key, value) ∈ m.entries ↔ (key, value) ∈ n.entries :=
      ⟨mem_of_text_eq hm hn h, mem_of_text_eq hn hm h.symm⟩
    rwa [KeyMap.mem_entries, KeyMap.mem_entries] at hmem
  · rintro rfl
    rfl

end Fingerprint

/-! ### Which options are bootstrap settings -/

namespace Setting

theorem Place.ofKey_eq_cloudInit {key k : String} :
    ofKey key = cloudInit k ↔ key = k ∧ k ∈ cloudInitKeys := by
  constructor
  · intro h
    unfold ofKey at h
    split at h
    case h_15 =>
      split at h
      · next hcloud =>
        cases h
        exact ⟨rfl, by simpa using hcloud⟩
      · unfold ofDevice at h
        repeat' split at h
        all_goals cases h
    all_goals cases h
  · rintro ⟨rfl, hmem⟩
    exact ofKey_cloudInit hmem

theorem read_eq_cloudInit {key value k v : String} :
    read key value = .ok (cloudInit k v) ↔ key = k ∧ value = v ∧ k ∈ cloudInitKeys := by
  constructor
  · intro h
    have hplace := (read_place h).symm
    rw [read_eq, hplace] at h
    obtain ⟨rfl, hmem⟩ := Place.ofKey_eq_cloudInit.1 hplace
    cases h
    exact ⟨rfl, rfl, hmem⟩
  · rintro ⟨rfl, rfl, hmem⟩
    rw [read_eq, Place.ofKey_eq_cloudInit.2 ⟨rfl, hmem⟩]
    rfl

end Setting

def Options.CloudInitOneLine (o : Options) : Prop :=
  ∀ key ∈ Setting.cloudInitKeys, ∀ value ∈ o.get? key, '\n' ∉ value.toList

instance (o : Options) : Decidable o.CloudInitOneLine :=
  inferInstanceAs (Decidable (∀ key ∈ Setting.cloudInitKeys, ∀ value ∈ o.get? key, _))

namespace Machine
open Setting (cloudInitKeys)

variable {o o' : Options} {m m' : Machine}

def fingerprinted (m : Machine) : String := Fingerprint.text m.cloudInit.entries

theorem cloudInit_get?_eq_some (hm : ofOptions o = .ok m) {key value : String} :
    m.cloudInit.get? key = some value ↔ key ∈ cloudInitKeys ∧ o.get? key = some value := by
  constructor
  · intro h
    have hat : m.at? (.cloudInit key) = some (.cloudInit key value) := congrArg (Option.map _) h
    obtain ⟨k, v, hget, hread⟩ := exists_option_of_at? hm hat
    obtain ⟨rfl, rfl, hmem⟩ := Setting.read_eq_cloudInit.1 hread
    exact ⟨hmem, hget⟩
  · rintro ⟨hmem, hget⟩
    have hread : Setting.read key value = .ok (.cloudInit key value) :=
      Setting.read_eq_cloudInit.2 ⟨rfl, rfl, hmem⟩
    have hplace := Setting.Place.ofKey_cloudInit hmem
    have hat := at?_of_option hm hget hread fun k _ _ hk =>
      (Setting.Place.ofKey_eq_cloudInit.1 (hk.trans hplace)).1
    rw [hplace] at hat
    obtain ⟨v, hv, heq⟩ := Option.map_eq_some_iff.1 hat
    cases heq
    exact hv

theorem cloudInit_plain (hm : ofOptions o = .ok m) (ho : o.CloudInitOneLine) :
    ∀ p ∈ m.cloudInit.entries, Fingerprint.Plain p := by
  have hkeys : ∀ key ∈ cloudInitKeys, '=' ∉ key.toList ∧ '\n' ∉ key.toList := by decide
  intro p hp
  obtain ⟨hmem, hget⟩ := (cloudInit_get?_eq_some hm).1 (KeyMap.mem_entries.1 hp)
  exact ⟨(hkeys p.1 hmem).1, (hkeys p.1 hmem).2, ho p.1 hmem p.2 hget⟩

theorem cloudInit_eq_iff (hm : ofOptions o = .ok m) (hm' : ofOptions o' = .ok m') :
    m.cloudInit = m'.cloudInit ↔ ∀ key ∈ cloudInitKeys, o.get? key = o'.get? key := by
  constructor
  · intro h key hmem
    refine Option.ext fun value => ?_
    have hget : m.cloudInit.get? key = some value ↔ m'.cloudInit.get? key = some value := by rw [h]
    rw [cloudInit_get?_eq_some hm, cloudInit_get?_eq_some hm'] at hget
    simpa only [hmem, true_and] using hget
  · intro h
    refine KeyMap.ext_get? fun key => Option.ext fun value => ?_
    rw [cloudInit_get?_eq_some hm, cloudInit_get?_eq_some hm']
    exact and_congr_right fun hmem => by rw [h key hmem]

end Machine

namespace TemplateEntry

/-- The order of the settings is of no account, and the fingerprint is the digest of a text that is
the same for two machines exactly when they have the same bootstrap settings. -/
theorem fingerprint_sees_cloudInit :
    (∀ ps qs : List (String × String), ps.Perm qs → Fingerprint.text ps = Fingerprint.text qs) ∧
      (∀ ps qs : List (String × String), Fingerprint.text ps = Fingerprint.text qs →
        Fingerprint.ofPairs ps = Fingerprint.ofPairs qs) ∧
      (∀ region seen m storage, (classify region seen m storage).fingerprint =
        (Sha256.digestText m.fingerprinted).base64) ∧
      ∀ (o o' : Options) (m m' : Machine), Machine.ofOptions o = .ok m →
        Machine.ofOptions o' = .ok m' → o.CloudInitOneLine → o'.CloudInitOneLine →
          (m.fingerprinted = m'.fingerprinted ↔
            ∀ key ∈ Setting.cloudInitKeys, o.get? key = o'.get? key) := by
  refine ⟨fun _ _ => Fingerprint.text_of_perm, fun _ _ h => ?_, fun _ _ _ _ => rfl, ?_⟩
  · rw [Fingerprint.ofPairs, Fingerprint.ofPairs, h]
  · intro o o' m m' hm hm' ho ho'
    rw [← Machine.cloudInit_eq_iff hm hm']
    exact Fingerprint.text_entries_inj (Machine.cloudInit_plain hm ho)
      (Machine.cloudInit_plain hm' ho')

/-- The options of a template; then of one with another shape, and of one that lets no key in. -/
def baseOptions : Options :=
  .ofList [("ciuser", "root"), ("sshkeys", "ssh-rsa%20AAAA=="), ("name", "base"), ("cores", "2")]

def resizedOptions : Options :=
  .ofList [("ciuser", "root"), ("sshkeys", "ssh-rsa%20AAAA=="), ("memory", "4096"), ("vga", "std")]

def keylessOptions : Options := .ofList [("ciuser", "root"), ("name", "base"), ("cores", "2")]

theorem fingerprint_sees_cloudInit_resized : ∃ m m' m'', Machine.ofOptions baseOptions = .ok m ∧
    Machine.ofOptions resizedOptions = .ok m' ∧ Machine.ofOptions keylessOptions = .ok m'' ∧
      m.fingerprinted = m'.fingerprinted ∧ m.fingerprinted ≠ m''.fingerprinted := by
  have hsees := fingerprint_sees_cloudInit.2.2.2
  refine ⟨_, _, _, rfl, rfl, rfl, ?_, ?_⟩
  · exact (hsees baseOptions resizedOptions _ _ rfl rfl (by decide) (by decide)).2 (by decide)
  · exact fun h => absurd ((hsees baseOptions keylessOptions _ _ rfl rfl (by decide)
      (by decide)).1 h "sshkeys" (by decide)) (by decide)

end TemplateEntry
end NodeProvisioner
