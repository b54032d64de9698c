import NodeProvisioner.Proofs.Device.CpuSet
import NodeProvisioner.Proofs.Text.Reading

/-! What a text of processor numbers lists, and how a set of them is written. Many texts list one
set. It is written in only one way, with as few ranges as there can be. -/
namespace NodeProvisioner.CpuSet

/-- What one part of a text lists: a number, or the numbers from one to another. -/
inductive Lists : String → UInt32 → UInt32 → Prop where
  | number {part : String} {n : UInt32} (h : Text.Denotes part n.toNat) : Lists part n n
  | range {first last : String} {lo hi : UInt32} (hlo : Text.Denotes first lo.toNat)
      (hhi : Text.Denotes last hi.toNat) (hle : lo ≤ hi) : Lists (first ++ "-" ++ last) lo hi

/-- Some part between the commas of a text lists the number. -/
def Listed (s : String) (c : UInt32) : Prop :=
  ∃ part ∈ Text.pieces ',' s, ∃ lo hi, Lists (Text.trim part) lo hi ∧ lo ≤ c ∧ c ≤ hi

/-- Some part between the commas is not blank, and lists nothing. -/
def Malformed (s : String) : Prop :=
  ∃ part ∈ Text.pieces ',' s, Text.trim part ≠ "" ∧ ∀ lo hi, ¬ Lists (Text.trim part) lo hi

section reading

theorem mem_range {lo hi c : UInt32} : c ∈ range lo hi ↔ lo ≤ c ∧ c ≤ hi := by
  unfold range
  simp only [List.mem_map, List.mem_range, UInt32.le_iff_toNat_le]
  constructor
  · rintro ⟨i, hi', rfl⟩
    have := hi.toNat_lt
    rw [UInt32.toNat_add, UInt32.toNat_ofNat']
    omega
  · rintro ⟨hlo, hhi⟩
    refine ⟨c.toNat - lo.toNat, by omega, ?_⟩
    apply UInt32.toNat_inj.1
    have := c.toNat_lt
    rw [UInt32.toNat_add, UInt32.toNat_ofNat']
    omega

theorem part?_eq_some {part : String} {ns : List UInt32} :
    part? part = some ns ↔ ∃ lo hi, Lists part lo hi ∧ range lo hi = ns := by
  constructor
  · intro h
    unfold part? at h
    split at h
    · obtain ⟨n, hn, rfl⟩ := Option.map_eq_some_iff.1 h
      exact ⟨n, n, .number (Text.readUInt32?_eq_some.1 hn), range_self n⟩
    · next first last hcut =>
      obtain ⟨rfl, -⟩ := (Text.cut?_eq_some (t := "-") rfl).1 hcut
      obtain ⟨lo, hlo, h⟩ := Option.bind_eq_some_iff.1 h
      obtain ⟨hi, hhi, h⟩ := Option.bind_eq_some_iff.1 h
      rw [Text.readUInt32?_eq_some] at hlo hhi
      split at h
      · next hle => exact ⟨lo, hi, .range hlo hhi hle, Option.some.inj h⟩
      · cases h
  · rintro ⟨lo, hi, hlists, rfl⟩
    unfold part?
    cases hlists with
    | number h =>
      rw [Text.cut?_eq_none (h.not_mem (by decide) (by decide))]
      simp [Text.readUInt32?_eq_some.2 h, range_self]
    | range hlo hhi hle =>
      rw [Text.cut?_append rfl (hlo.not_mem (by decide) (by decide))]
      simp [Text.readUInt32?_eq_some.2 hlo, Text.readUInt32?_eq_some.2 hhi, hle]

theorem part?_eq_none {part : String} : part? part = none ↔ ∀ lo hi, ¬ Lists part lo hi := by
  constructor
  · intro h lo hi hlists
    rw [part?_eq_some.2 ⟨lo, hi, hlists, rfl⟩] at h
    cases h
  · intro h
    rw [Option.eq_none_iff_forall_ne_some]
    intro ns hns
    obtain ⟨lo, hi, hlists, -⟩ := part?_eq_some.1 hns
    exact h lo hi hlists

theorem not_lists_empty (lo hi : UInt32) : ¬ Lists "" lo hi := by
  intro h
  have hread : part? "" = some (range lo hi) := part?_eq_some.2 ⟨lo, hi, h, rfl⟩
  have hnone : part? "" = none := by decide
  simp [hnone] at hread

theorem mem_parts {s part : String} :
    part ∈ parts s ↔ (∃ piece ∈ Text.pieces ',' s, Text.trim piece = part) ∧ part ≠ "" := by
  simp [parts]

theorem mapM_eq_none {α β : Type} {f : α → Option β} {xs : List α} :
    xs.mapM f = none ↔ ∃ x ∈ xs, f x = none := by
  induction xs with
  | nil => simp
  | cons x xs ih =>
    have hrest : (∃ a ∈ x :: xs, f a = none) ↔ f x = none ∨ xs.mapM f = none := by simp [ih]
    rw [hrest, List.mapM_cons]
    cases f x <;> cases xs.mapM f <;> simp

theorem mem_flatten_of_mapM {α β : Type} {f : α → Option (List β)} {xs : List α}
    {yss : List (List β)} (h : xs.mapM f = some yss) {y : β} :
    y ∈ yss.flatten ↔ ∃ x ∈ xs, ∃ ys, f x = some ys ∧ y ∈ ys := by
  induction xs generalizing yss with
  | nil =>
    cases h
    simp
  | cons x xs ih =>
    rw [List.mapM_cons] at h
    obtain ⟨ys, hys, h⟩ := Option.bind_eq_some_iff.1 h
    obtain ⟨rest, hrest, h⟩ := Option.bind_eq_some_iff.1 h
    cases h
    simp [ih hrest, hys]

theorem mem_strict {last : Option UInt32} {cs : List UInt32} (hcs : cs.Pairwise (· ≤ ·))
    (hlast : ∀ l ∈ last, ∀ c ∈ cs, l ≤ c) {c : UInt32} :
    c ∈ strict last cs ↔ c ∈ cs ∧ last ≠ some c := by
  induction cs generalizing last with
  | nil => simp [strict]
  | cons d ds ih =>
    obtain ⟨hd, hds⟩ := List.pairwise_cons.1 hcs
    have hrest : c ∈ strict (some d) ds ↔ c ∈ ds ∧ some d ≠ some c := by
      apply ih hds
      rintro l ⟨⟩
      exact hd
    cases last with
    | none =>
      simp only [strict, List.mem_cons, hrest]
      grind
    | some l =>
      have hl := hlast l rfl
      unfold strict
      dsimp only
      split
      · next hlt =>
        have hne : ∀ c ∈ d :: ds, l ≠ c := by
          intro c hc heq
          have hdc : d ≤ c := (List.mem_cons.1 hc).elim (fun h => h ▸ UInt32.le_refl d) (hd c)
          rw [← heq] at hdc
          exact UInt32.not_le.2 hlt hdc
        simp only [List.mem_cons, hrest]
        grind
      · next hlt =>
        obtain rfl : l = d := UInt32.le_antisymm (hl d List.mem_cons_self) (UInt32.not_lt.1 hlt)
        rw [hrest]
        grind

theorem mem_ofList {cpus : List UInt32} {c : UInt32} : c ∈ (ofList cpus).cpus ↔ c ∈ cpus := by
  have hsorted : (cpus.mergeSort fun a b => a ≤ b).Pairwise (· ≤ ·) := by
    have htrans (a b c : UInt32) : decide (a ≤ b) = true → decide (b ≤ c) = true →
        decide (a ≤ c) = true := by
      simpa using UInt32.le_trans
    have htotal (a b : UInt32) : (decide (a ≤ b) || decide (b ≤ a)) = true := by
      simpa using UInt32.le_total a b
    simpa using List.pairwise_mergeSort htrans htotal cpus
  unfold ofList
  rw [mem_strict hsorted (by simp)]
  simp

theorem eq_of_mem_iff {a b : CpuSet} (h : ∀ c, c ∈ a.cpus ↔ c ∈ b.cpus) : a = b := by
  have hnodup (s : CpuSet) : s.cpus.Nodup := s.ascending.imp fun hlt => UInt32.ne_of_lt hlt
  have hperm : a.cpus.Perm b.cpus := (List.perm_ext_iff_of_nodup (hnodup a) (hnodup b)).2 h
  ext1
  apply hperm.eq_of_pairwise _ a.ascending b.ascending
  intro c d _ _ hcd hdc
  exact absurd (UInt32.lt_trans hcd hdc) (UInt32.lt_irrefl c)

theorem malformed_iff {s : String} : Malformed s ↔ (parts s).mapM part? = none := by
  simp only [mapM_eq_none, part?_eq_none, mem_parts]
  constructor
  · rintro ⟨piece, hpiece, hne, hnone⟩
    exact ⟨_, ⟨⟨piece, hpiece, rfl⟩, hne⟩, hnone⟩
  · rintro ⟨_, ⟨⟨piece, hpiece, rfl⟩, hne⟩, hnone⟩
    exact ⟨piece, hpiece, hne, hnone⟩

theorem listed_iff {s : String} {c : UInt32} :
    Listed s c ↔ ∃ part ∈ parts s, ∃ ns, part? part = some ns ∧ c ∈ ns := by
  simp only [part?_eq_some, mem_parts]
  constructor
  · rintro ⟨piece, hpiece, lo, hi, hlists, hc⟩
    refine ⟨_, ⟨⟨piece, hpiece, rfl⟩, ?_⟩, _, ⟨lo, hi, hlists, rfl⟩, mem_range.2 hc⟩
    intro hempty
    exact not_lists_empty lo hi (hempty ▸ hlists)
  · rintro ⟨_, ⟨⟨piece, hpiece, rfl⟩, -⟩, _, ⟨lo, hi, hlists, rfl⟩, hc⟩
    exact ⟨piece, hpiece, lo, hi, hlists, mem_range.1 hc⟩

theorem parse_cases (s : String) :
    (Malformed s ∧ parse s = .error (.cpuSet s)) ∨
      ¬ Malformed s ∧ ∃ set, parse s = .ok set ∧ ∀ c, c ∈ set.cpus ↔ Listed s c := by
  unfold parse
  cases h : (parts s).mapM part? with
  | none => exact .inl ⟨malformed_iff.2 h, rfl⟩
  | some lists =>
    refine .inr ⟨by simp [malformed_iff, h], _, rfl, fun c => ?_⟩
    rw [mem_ofList, mem_flatten_of_mapM h, listed_iff]

theorem parse_eq_error {s : String} {e : Unreadable} :
    parse s = .error e ↔ Malformed s ∧ e = .cpuSet s := by
  rcases parse_cases s with ⟨hbad, h⟩ | ⟨hgood, set, h, -⟩
  · simp [h, hbad, eq_comm]
  · simp [h, hgood]

theorem parse_eq_ok {s : String} {set : CpuSet} :
    parse s = .ok set ↔ ¬ Malformed s ∧ ∀ c, c ∈ set.cpus ↔ Listed s c := by
  rcases parse_cases s with ⟨hbad, h⟩ | ⟨hgood, read, h, hread⟩
  · simp [h, hbad]
  · simp only [h, Except.ok.injEq, hgood, not_false_eq_true, true_and]
    constructor
    · rintro rfl
      exact hread
    · intro hset
      exact eq_of_mem_iff fun c => (hread c).trans (hset c).symm

end reading

section writing

/-- The ranges hold what a set holds, and there is no way to make them fewer. -/
structure Spans (s : CpuSet) (rs : List (UInt32 × UInt32)) : Prop where
  upward : ∀ r ∈ rs, r.1 ≤ r.2
  mem_iff : ∀ c, c ∈ s.cpus ↔ ∃ r ∈ rs, r.1 ≤ c ∧ c ≤ r.2
  /-- Between two ranges at least one number is missing. -/
  apart : rs.Pairwise fun r r' => r.2.toNat + 1 < r'.1.toNat
  /-- What stands right before or after a range is missing. -/
  longest : ∀ r ∈ rs, ∀ c : UInt32,
    c.toNat + 1 = r.1.toNat ∨ c.toNat = r.2.toNat + 1 → c ∉ s.cpus

/-- The number after the greatest one is zero, which does not follow on anything. -/
theorem lt_of_ne_succ {n next : UInt32} (h : n < next) (hne : next ≠ n + 1) :
    n.toNat + 1 < next.toNat := by
  have hlt := UInt32.lt_iff_toNat_lt.1 h
  have hsucc : next.toNat ≠ n.toNat + 1 := by
    intro heq
    apply hne
    apply UInt32.toNat_inj.1
    have := next.toNat_lt
    rw [UInt32.toNat_add, heq]
    exact (Nat.mod_eq_of_lt (by omega)).symm
  omega

theorem le_of_mem_rangesFrom {lo hi : UInt32} {cs : List UInt32} (h : lo ≤ hi)
    (hcs : (hi :: cs).Pairwise (· < ·)) : ∀ r ∈ rangesFrom lo hi cs, lo ≤ r.1 := by
  intro r hr
  have hmem : r.1 ∈ range lo hi ++ cs := by
    rw [← rangesFrom_flatMap h hcs, List.mem_flatMap]
    exact ⟨r, hr, mem_range.2 ⟨UInt32.le_refl r.1, rangesFrom_le h hcs r hr⟩⟩
  rcases List.mem_append.1 hmem with hrange | hlater
  · exact (mem_range.1 hrange).1
  · exact UInt32.le_trans h (UInt32.le_of_lt (List.rel_of_pairwise_cons hcs hlater))

theorem rangesFrom_apart {lo hi : UInt32} {cs : List UInt32} (h : lo ≤ hi)
    (hcs : (hi :: cs).Pairwise (· < ·)) :
    (rangesFrom lo hi cs).Pairwise fun r r' => r.2.toNat + 1 < r'.1.toNat := by
  induction cs generalizing lo hi with
  | nil => simp [rangesFrom]
  | cons c cs ih =>
    obtain ⟨hhi, hrest⟩ := List.pairwise_cons.1 hcs
    have hc : hi < c := hhi c List.mem_cons_self
    unfold rangesFrom
    split
    · exact ih (UInt32.le_trans h (UInt32.le_of_lt hc)) hrest
    · next hgap =>
      refine List.pairwise_cons.2 ⟨?_, ih (UInt32.le_refl c) hrest⟩
      intro r hr
      have hnext := lt_of_ne_succ hc hgap
      have hle := UInt32.le_iff_toNat_le.1 (le_of_mem_rangesFrom (UInt32.le_refl c) hrest r hr)
      exact Nat.lt_of_lt_of_le hnext hle

theorem ranges_apart (s : CpuSet) :
    s.ranges.Pairwise fun r r' => r.2.toNat + 1 < r'.1.toNat := by
  have hcpus := s.ascending
  unfold ranges
  cases hs : s.cpus with
  | nil => simp
  | cons c cs =>
    rw [hs] at hcpus
    exact rangesFrom_apart (UInt32.le_refl c) hcpus

theorem mem_cpus_iff (s : CpuSet) (c : UInt32) :
    c ∈ s.cpus ↔ ∃ r ∈ s.ranges, r.1 ≤ c ∧ c ≤ r.2 := by
  rw [← s.ranges_flatMap]
  simp [mem_range]

theorem spans_ranges (s : CpuSet) : s.Spans s.ranges where
  upward := s.ranges_le
  mem_iff := s.mem_cpus_iff
  apart := s.ranges_apart
  longest := by
    intro r hr c hc hmem
    obtain ⟨r', hr', hlo, hhi⟩ := (s.mem_cpus_iff c).1 hmem
    have hup := s.ranges_le r hr
    rw [UInt32.le_iff_toNat_le] at hlo hhi hup
    obtain ⟨i, hi, rfl⟩ := List.mem_iff_getElem.1 hr
    obtain ⟨j, hj, rfl⟩ := List.mem_iff_getElem.1 hr'
    have hapart := List.pairwise_iff_getElem.1 s.ranges_apart
    rcases Nat.lt_trichotomy i j with hij | rfl | hij
    · have := hapart i j hi hj hij
      omega
    · omega
    · have := hapart j i hj hi hij
      omega

theorem render_inj {a b : CpuSet} : a.render = b.render ↔ a = b := by
  constructor
  · intro h
    have hread := parse_render a
    rw [h, parse_render b] at hread
    exact (Except.ok.inj hread).symm
  · rintro rfl
    rfl

theorem render_eq_iff {s t : String} {a b : CpuSet} (ha : parse s = .ok a)
    (hb : parse t = .ok b) : a.render = b.render ↔ ∀ c, Listed s c ↔ Listed t c := by
  obtain ⟨-, ha⟩ := parse_eq_ok.1 ha
  obtain ⟨-, hb⟩ := parse_eq_ok.1 hb
  rw [render_inj]
  constructor
  · rintro rfl c
    exact (ha c).symm.trans (hb c)
  · intro h
    exact eq_of_mem_iff fun c => (ha c).trans ((h c).trans (hb c).symm)

end writing

/-- Numbers in whatever order make one set, which is written in its longest ranges and read back.
A text is read exactly if all its parts list something, as the set of all that they list. So two
texts are written anew in one way if they list the same, and in two ways if not. -/
theorem render_canonical :
    (∀ cpus : List UInt32, (ofList cpus).cpus.Pairwise (· < ·) ∧
      (∀ c, c ∈ (ofList cpus).cpus ↔ c ∈ cpus) ∧ parse (ofList cpus).render = .ok (ofList cpus) ∧
      ∃ rs, (ofList cpus).render = String.intercalate "," (rs.map renderRange) ∧
        (ofList cpus).Spans rs) ∧
    (∀ s e, parse s = .error e ↔ Malformed s ∧ e = .cpuSet s) ∧
    (∀ s set, parse s = .ok set ↔ ¬ Malformed s ∧ ∀ c, c ∈ set.cpus ↔ Listed s c) ∧
    ∀ s t a b, parse s = .ok a → parse t = .ok b →
      (a.render = b.render ↔ ∀ c, Listed s c ↔ Listed t c) := by
  refine ⟨fun cpus => ?_, fun s e => parse_eq_error, fun s set => parse_eq_ok,
    fun s t a b => render_eq_iff⟩
  exact ⟨(ofList cpus).ascending, fun c => mem_ofList, parse_render _, _, rfl, spans_ranges _⟩

/-- The same processors in two texts. -/
theorem render_canonical_overlapping :
    let first := ofList [8, 9, 10, 11, 0, 1, 2, 3, 2]
    let second := ofList [2, 3, 0, 1, 2, 11, 8, 9, 10]
    parse "8-11,0-3,2" = .ok first ∧ parse " 02-3,, +0-2 ,11,8-10" = .ok second ∧
      (first.render = second.render ↔
        ∀ c, Listed "8-11,0-3,2" c ↔ Listed " 02-3,, +0-2 ,11,8-10" c) := by
  have hlists : (parts "8-11,0-3,2").mapM part? = some [[8, 9, 10, 11], [0, 1, 2, 3], [2]] := by
    decide +kernel
  have hlists' : (parts " 02-3,, +0-2 ,11,8-10").mapM part? =
      some [[2, 3], [0, 1, 2], [11], [8, 9, 10]] := by
    decide +kernel
  have hfirst : parse "8-11,0-3,2" = .ok (ofList [8, 9, 10, 11, 0, 1, 2, 3, 2]) := by
    unfold parse
    rw [hlists]
    rfl
  have hsecond : parse " 02-3,, +0-2 ,11,8-10" = .ok (ofList [2, 3, 0, 1, 2, 11, 8, 9, 10]) := by
    unfold parse
    rw [hlists']
    rfl
  exact ⟨hfirst, hsecond, render_canonical.2.2.2 _ _ _ _ hfirst hsecond⟩

example : render ⟨[0, 1, 2, 3, 8, 9, 10, 11], by decide⟩ = "0-3,8-11" ∧
    parse "3-1" = .error (.cpuSet "3-1") := by
  constructor
  · decide +kernel
  · decide

end NodeProvisioner.CpuSet
