import NodeProvisioner.Device.CpuSet
import NodeProvisioner.Proofs.Text

/-! A set of processors is read back from its ranges as it was. -/
namespace NodeProvisioner.CpuSet

theorem strict_eq_self {cs : List UInt32} {last : Option UInt32} (h : cs.Pairwise (· < ·))
    (hlast : ∀ l ∈ last, ∀ c ∈ cs, l < c) : strict last cs = cs := by
  induction cs generalizing last with
  | nil => rfl
  | cons c cs ih =>
    obtain ⟨hc, hcs⟩ := List.pairwise_cons.1 h
    have hrest : strict (some c) cs = cs := ih hcs fun l hl => by cases hl; exact hc
    cases last with
    | none => rw [strict, hrest]
    | some l => simp [strict, hlast l rfl c List.mem_cons_self, hrest]

theorem ofList_cpus (s : CpuSet) : ofList s.cpus = s := by
  have hsorted : s.cpus.mergeSort (fun a b => a ≤ b) = s.cpus :=
    List.mergeSort_of_pairwise (s.ascending.imp fun h => by simpa using UInt32.le_of_lt h)
  ext1
  calc (ofList s.cpus).cpus
    _ = strict none s.cpus := congrArg (strict none) hsorted
    _ = s.cpus := strict_eq_self s.ascending nofun

theorem range_self (n : UInt32) : range n n = [n] := by
  simp [range]

theorem toNat_succ {n next : UInt32} (h : n < next) (hnext : next = n + 1) :
    next.toNat = n.toNat + 1 := by
  have hlt : n.toNat < next.toNat := UInt32.lt_iff_toNat_lt.1 h
  have hadd : next.toNat = (n.toNat + 1) % 4294967296 := by rw [hnext]; exact UInt32.toNat_add n 1
  have := next.toNat_lt
  omega

theorem range_succ {lo hi next : UInt32} (h : lo ≤ hi) (hlt : hi < next) (hnext : next = hi + 1) :
    range lo next = range lo hi ++ [next] := by
  have hle : lo.toNat ≤ hi.toNat := UInt32.le_iff_toNat_le.1 h
  have hsucc := toNat_succ hlt hnext
  have hlength : next.toNat + 1 - lo.toNat = hi.toNat + 1 - lo.toNat + 1 := by omega
  have hend : lo + UInt32.ofNat (hi.toNat + 1 - lo.toNat) = next := by
    apply UInt32.toNat_inj.1
    have := next.toNat_lt
    rw [UInt32.toNat_add, UInt32.toNat_ofNat']
    omega
  unfold range
  rw [hlength, List.range_succ, List.map_append, List.map_singleton, hend]

theorem rangesFrom_flatMap {lo hi : UInt32} {cs : List UInt32} (h : lo ≤ hi)
    (hcs : (hi :: cs).Pairwise (· < ·)) :
    ((rangesFrom lo hi cs).flatMap fun r => range r.1 r.2) = range lo hi ++ cs := by
  induction cs generalizing lo hi with
  | nil => simp [rangesFrom]
  | cons c cs ih =>
    obtain ⟨hhi, hrest⟩ := List.pairwise_cons.1 hcs
    have hc : hi < c := hhi c List.mem_cons_self
    unfold rangesFrom
    split
    · next hnext =>
      rw [ih (UInt32.le_trans h (UInt32.le_of_lt hc)) hrest, range_succ h hc hnext]
      simp
    · rw [List.flatMap_cons, ih (UInt32.le_refl c) hrest, range_self]
      simp

theorem rangesFrom_le {lo hi : UInt32} {cs : List UInt32} (h : lo ≤ hi)
    (hcs : (hi :: cs).Pairwise (· < ·)) : ∀ r ∈ rangesFrom lo hi cs, r.1 ≤ r.2 := by
  induction cs generalizing lo hi with
  | nil => simpa [rangesFrom] using h
  | cons c cs ih =>
    obtain ⟨hhi, hrest⟩ := List.pairwise_cons.1 hcs
    have hc : hi < c := hhi c List.mem_cons_self
    unfold rangesFrom
    split
    · exact ih (UInt32.le_trans h (UInt32.le_of_lt hc)) hrest
    · exact List.forall_mem_cons.2 ⟨h, ih (UInt32.le_refl c) hrest⟩

theorem ranges_flatMap (s : CpuSet) : (s.ranges.flatMap fun r => range r.1 r.2) = s.cpus := by
  have hcpus := s.ascending
  unfold ranges
  cases hs : s.cpus with
  | nil => rfl
  | cons c cs =>
    rw [hs] at hcpus
    rw [rangesFrom_flatMap (UInt32.le_refl c) hcpus, range_self]
    rfl

theorem ranges_le (s : CpuSet) : ∀ r ∈ s.ranges, r.1 ≤ r.2 := by
  have hcpus := s.ascending
  unfold ranges
  cases hs : s.cpus with
  | nil => simp
  | cons c cs =>
    rw [hs] at hcpus
    exact rangesFrom_le (UInt32.le_refl c) hcpus

theorem mem_renderRange {r : UInt32 × UInt32} {c : Char} (h : c ∈ (renderRange r).toList) :
    c.isDigit = true ∨ c = '-' := by
  unfold renderRange at h
  split at h
  · exact .inl (Text.isDigit_of_mem_numeral h)
  · simp only [String.toList_append, List.mem_append] at h
    rcases h with (h | h) | h
    · exact .inl (Text.isDigit_of_mem_numeral h)
    · exact .inr (List.mem_singleton.1 h)
    · exact .inl (Text.isDigit_of_mem_numeral h)

theorem part?_renderRange {r : UInt32 × UInt32} (h : r.1 ≤ r.2) :
    part? (renderRange r) = some (range r.1 r.2) := by
  have hdash : '-' ∉ (Text.numeral r.1.toNat).toList := Text.not_mem_numeral (by decide)
  unfold renderRange
  split
  · next heq =>
    rw [part?, Text.cut?_eq_none hdash]
    simp [← heq, range_self]
  · rw [part?, Text.cut?_append rfl hdash]
    simp [h]

theorem renderRange_solid (r : UInt32 × UInt32) : ',' ∉ (renderRange r).toList ∧
    Text.trim (renderRange r) = renderRange r ∧ (renderRange r).isEmpty = false := by
  refine ⟨fun hc => ?_, Text.trim_of_solid fun c hc => ?_, ?_⟩
  · rcases mem_renderRange hc with h | h
    · exact absurd h (by decide)
    · exact absurd h (by decide)
  · rcases mem_renderRange hc with h | rfl
    · exact Text.isBlank_of_isDigit h
    · decide
  · rw [String.isEmpty_eq_false_iff, ne_eq, ← String.toList_eq_nil_iff]
    unfold renderRange
    split <;> simp [Nat.toDigits_ne_nil]

theorem parts_render (s : CpuSet) : parts s.render = s.ranges.map renderRange := by
  unfold parts render
  cases hs : s.ranges with
  | nil => decide
  | cons r rs =>
    rw [← hs]
    have hne : s.ranges.map renderRange ≠ [] := by simp [hs]
    have hcomma : ∀ p ∈ s.ranges.map renderRange, ',' ∉ p.toList :=
      List.forall_mem_map.2 fun r _ => (renderRange_solid r).1
    rw [Text.pieces_intercalate rfl hne hcomma, List.map_map]
    have htrim : s.ranges.map (Text.trim ∘ renderRange) = s.ranges.map renderRange :=
      List.map_congr_left fun r _ => (renderRange_solid r).2.1
    rw [htrim, List.filter_eq_self]
    exact List.forall_mem_map.2 fun r _ => by simp [(renderRange_solid r).2.2]

theorem mapM_part? {rs : List (UInt32 × UInt32)} (h : ∀ r ∈ rs, r.1 ≤ r.2) :
    (rs.map renderRange).mapM part? = some (rs.map fun r => range r.1 r.2) := by
  induction rs with
  | nil => rfl
  | cons r rs ih =>
    obtain ⟨hr, hrs⟩ := List.forall_mem_cons.1 h
    simp [part?_renderRange hr, ih hrs]

theorem parse_render (s : CpuSet) : parse s.render = .ok s := by
  unfold parse
  rw [parts_render, mapM_part? s.ranges_le]
  dsimp only
  rw [← List.flatMap_def, ranges_flatMap, ofList_cpus]

end NodeProvisioner.CpuSet
