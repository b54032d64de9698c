import NodeProvisioner.Proofs.World.MachineIds

/-! Which id an allocation gives when nothing happens meanwhile: the hypervisor names the least free
id from some id on, and the clock stands still. -/
namespace NodeProvisioner.MachineIds

abbrev Ids := MachineId → Prop

def Ids.from (ids : Ids) (floor : MachineId) : Ids := fun id => ids id ∧ floor ≤ id

structure Ids.Least (ids : Ids) (id : MachineId) : Prop where
  mem : ids id
  le : ∀ other, ids other → id ≤ other

/-- The least `n` of some ids in ascending order, or all of them where there are not so many. -/
structure Ids.Leading (ids : Ids) (n : Nat) (first : List MachineId) : Prop where
  ascending : first.Pairwise (· < ·)
  mem : ∀ id ∈ first, ids id
  length_le : first.length ≤ n
  above : ∀ id, ids id → id ∉ first → first.length = n ∧ ∀ i ∈ first, i < id

namespace Ids
variable {ids : Ids} {n : Nat} {id other : MachineId} {rest : List MachineId}

theorem Least.unique (h : ids.Least id) (hother : ids.Least other) : id = other :=
  UInt32.le_antisymm (h.le other hother.mem) (hother.le id h.mem)

theorem Leading.not_mem_of_nil (h : ids.Leading (n + 1) []) : ¬ ids id := fun hid =>
  absurd (h.above id hid List.not_mem_nil).1 (Nat.succ_ne_zero n).symm

theorem Leading.least (h : ids.Leading (n + 1) (id :: rest)) : ids.Least id where
  mem := h.mem id List.mem_cons_self
  le other hother := by
    by_cases hmem : other ∈ id :: rest
    · rcases List.mem_cons.1 hmem with rfl | hrest
      · exact UInt32.le_refl other
      · exact UInt32.le_of_lt ((List.pairwise_cons.1 h.ascending).1 other hrest)
    · exact UInt32.le_of_lt ((h.above other hother hmem).2 id List.mem_cons_self)

theorem Leading.tail (h : ids.Leading (n + 1) (id :: rest)) :
    Leading (fun other => ids other ∧ id < other) n rest where
  ascending := (List.pairwise_cons.1 h.ascending).2
  mem other hother :=
    ⟨h.mem other (List.mem_cons_of_mem id hother),
      (List.pairwise_cons.1 h.ascending).1 other hother⟩
  length_le := Nat.le_of_succ_le_succ h.length_le
  above other hother hnot := by
    have hnot' : other ∉ id :: rest := by
      rw [List.mem_cons, not_or]
      exact ⟨(UInt32.ne_of_lt hother.2).symm, hnot⟩
    obtain ⟨hlength, hlt⟩ := h.above other hother.1 hnot'
    exact ⟨Nat.succ.inj hlength, fun i hi => hlt i (List.mem_cons_of_mem id hi)⟩

theorem from_succ {floor : MachineId} (hfloor : floor ≤ id) (hid : id.toNat + 1 < UInt32.size) :
    (fun other => ids.from floor other ∧ id < other) = ids.from (id + 1) := by
  funext other
  have hsucc : id < other ↔ id + 1 ≤ other := by
    have htoNat : (id + 1).toNat = id.toNat + 1 :=
      (UInt32.toNat_add id 1).trans (Nat.mod_eq_of_lt hid)
    rw [UInt32.lt_iff_toNat_lt, UInt32.le_iff_toNat_le, htoNat, Nat.succ_le_iff]
  simp only [Ids.from, hsucc, eq_iff_iff]
  constructor
  · rintro ⟨⟨hmem, _⟩, hlt⟩
    exact ⟨hmem, hlt⟩
  · rintro ⟨hmem, hle⟩
    exact ⟨⟨hmem, UInt32.le_trans hfloor (UInt32.le_of_lt (hsucc.2 hle))⟩, hle⟩

end Ids

/-- The hypervisor names the least free id, and fails where none is left. -/
structure NamesLeast (free : Ids) (nextId : MachineId → Except Fault MachineId) : Prop where
  ok : ∀ floor id, (free.from floor).Least id → nextId floor = .ok id
  error : ∀ floor, (∀ id, ¬ free.from floor id) → ∃ e, nextId floor = .error e

def answerAt (nextId : MachineId → Except Fault MachineId) (now : Nat) :
    (c : Call) → StateM Memory c.Reply
  | .hypervisor _ (.nextId floor) => pure (nextId floor)
  | .memory a => fun m => m.perform now a
  | c => pure c.grant

section search
variable {α : Type} {nextId : MachineId → Except Fault MachineId} {now attempts : Nat} {m : Memory}
  {region : String} {floor id : MachineId}

/-- The result of a plan, and what is remembered after it. -/
def playAt (nextId : MachineId → Except Fault MachineId) (now : Nat) (m : Memory) (p : Plan α) :
    α × Memory :=
  p.run (answerAt nextId now) m

@[simp] theorem playAt_done (a : α) : playAt nextId now m (.done a) = (a, m) := rfl

@[simp] theorem playAt_nextId (next : Except Fault MachineId → Plan α) :
    playAt nextId now m (.call (.hypervisor region (.nextId floor)) next) =
      playAt nextId now m (next (nextId floor)) := rfl

@[simp] theorem playAt_memory (a : Memory.Access) (next : a.Answer → Plan α) :
    playAt nextId now m (.call (.memory a) next) =
      playAt nextId now (m.perform now a).2 (next (m.perform now a).1) := rfl

theorem playAt_of_error {e : Fault} (h : nextId floor = .error e) :
    playAt nextId now m (allocateFrom region (attempts + 1) floor).run = (.error e, m) := by
  simp [allocateFrom_run, h]

theorem playAt_of_free (h : nextId floor = .ok id)
    (hfree : (m.recentIds.expire now).isHeld region id = false) :
    playAt nextId now m (allocateFrom region (attempts + 1) floor).run =
      (.ok id, { m with recentIds := m.recentIds.record now region id }) := by
  simp [allocateFrom_run, h, Memory.perform, RecentIds.claim_of_free hfree]

theorem playAt_of_held (h : nextId floor = .ok id)
    (hheld : (m.recentIds.expire now).isHeld region id = true) :
    playAt nextId now m (allocateFrom region (attempts + 1) floor).run =
      playAt nextId now { m with recentIds := m.recentIds.expire now }
        (allocateFrom region attempts (id + 1)).run := by
  simp [allocateFrom_run, h, Memory.perform, RecentIds.claim_of_held hheld]

end search

theorem expire_expire (r : RecentIds) (now : Nat) : (r.expire now).expire now = r.expire now := by
  apply congrArg (RecentIds.mk r.span)
  apply List.filter_eq_self.2
  exact fun h hmem => decide_eq_true (RecentIds.mem_expire.1 hmem).2

/-- What an allocation comes to that finds `first` to be the least free ids, in order. -/
structure Finds (free : Ids) (first : List MachineId) (attempts now : Nat) (region : String)
    (m : Memory) (result : Except Fault MachineId) (m' : Memory) : Prop where
  /-- It is the least free id that is not held, and is recorded. -/
  ok : ∀ id, result = .ok id →
    Ids.Least (fun id => free id ∧ (m.recentIds.expire now).isHeld region id = false) id ∧
      m' = { m with recentIds := m.recentIds.record now region id }
  /-- A failure records nothing. -/
  error : ∀ e, result = .error e →
    m'.inventory = m.inventory ∧ m'.recentIds.expire now = m.recentIds.expire now ∧
      (first.length = attempts → e = exhausted region)
  error_iff : (∃ e, result = .error e) ↔
    ∀ id ∈ first, (m.recentIds.expire now).isHeld region id = true

section finds
variable {free : Ids} {nextId : MachineId → Except Fault MachineId} {first : List MachineId}
  {attempts now : Nat} {region : String} {floor id : MachineId} {m : Memory}

theorem finds_of_free (h : (free.from floor).Leading (attempts + 1) (id :: first))
    (hfree : (m.recentIds.expire now).isHeld region id = false) :
    Finds (free.from floor) (id :: first) (attempts + 1) now region m (.ok id)
      { m with recentIds := m.recentIds.record now region id } where
  ok := by
    rintro _ ⟨⟩
    exact ⟨⟨⟨h.least.mem, hfree⟩, fun other hother => h.least.le other hother.1⟩, rfl⟩
  error := by
    rintro e ⟨⟩
  error_iff := by
    constructor
    · rintro ⟨e, ⟨⟩⟩
    · intro hall
      rw [hall id List.mem_cons_self] at hfree
      cases hfree

theorem Finds.cons {result : Except Fault MachineId} {m' : Memory}
    (h : (free.from floor).Leading (attempts + 1) (id :: first))
    (hid : id.toNat + 1 < UInt32.size)
    (hheld : (m.recentIds.expire now).isHeld region id = true)
    (hrest : Finds (free.from (id + 1)) first attempts now region
      { m with recentIds := m.recentIds.expire now } result m') :
    Finds (free.from floor) (id :: first) (attempts + 1) now region m result m' where
  ok := by
    intro found hfound
    obtain ⟨hleast, hmemory⟩ := hrest.ok found hfound
    rw [← Ids.from_succ h.least.mem.2 hid] at hleast
    simp only [expire_expire] at hleast
    constructor
    · constructor
      · exact ⟨hleast.mem.1.1, hleast.mem.2⟩
      · intro other hother
        have hne : id ≠ other := by
          rintro rfl
          rw [hheld] at hother
          cases hother.2
        have hlt : id < other := UInt32.lt_of_le_of_ne (h.least.le other hother.1) hne
        exact hleast.le other ⟨⟨hother.1, hlt⟩, hother.2⟩
    · rw [hmemory]
      simp [RecentIds.record, expire_expire]
  error := by
    intro e he
    obtain ⟨hinventory, hkept, hexhausted⟩ := hrest.error e he
    refine ⟨hinventory, ?_, fun hlength => hexhausted (Nat.succ.inj hlength)⟩
    rw [hkept, expire_expire]
  error_iff := by
    rw [hrest.error_iff, expire_expire, List.forall_mem_cons]
    exact (and_iff_right hheld).symm

theorem allocateFrom_finds (hnext : NamesLeast free nextId)
    (h : (free.from floor).Leading attempts first)
    (hbound : ∀ id ∈ first, id.toNat + 1 < UInt32.size) :
    let out := playAt nextId now m (allocateFrom region attempts floor).run
    Finds (free.from floor) first attempts now region m out.1 out.2 := by
  induction attempts generalizing floor first m with
  | zero =>
    obtain rfl := List.length_eq_zero_iff.1 (Nat.le_zero.1 h.length_le)
    have hfailed : (allocateFrom region 0 floor).run = .done (.error (exhausted region)) := rfl
    rw [hfailed, playAt_done]
    exact ⟨nofun, fun e he => ⟨rfl, rfl, fun _ => (Except.error.inj he).symm⟩, by simp⟩
  | succ attempts ih =>
    cases first with
    | nil =>
      obtain ⟨e, he⟩ := hnext.error floor fun _ => h.not_mem_of_nil
      rw [playAt_of_error he]
      exact ⟨nofun, fun _ _ => ⟨rfl, rfl, nofun⟩, by simp⟩
    | cons id first =>
      have hnamed := hnext.ok floor id h.least
      obtain ⟨hid, hrest⟩ := List.forall_mem_cons.1 hbound
      cases hheld : (m.recentIds.expire now).isHeld region id with
      | false =>
        rw [playAt_of_free hnamed hheld]
        exact finds_of_free h hheld
      | true =>
        rw [playAt_of_held hnamed hheld]
        refine .cons h hid hheld (ih ?_ hrest)
        rw [← Ids.from_succ h.least.mem.2 hid]
        exact h.tail

/-- Up to 64 of the least free ids are looked at. -/
theorem allocate_finds : ∀ (free : Ids) (nextId : MachineId → Except Fault MachineId),
    NamesLeast free nextId → ∀ (floor : MachineId) (first : List MachineId),
    (free.from floor).Leading 64 first → (∀ id ∈ first, id.toNat + 1 < UInt32.size) →
    ∀ (now : Nat) (region : String) (m : Memory),
      let out := playAt nextId now m (allocate region floor).run
      Finds (free.from floor) first 64 now region m out.1 out.2 :=
  fun _ _ hnext _ _ hfirst hbound _ _ _ => allocateFrom_finds hnext hfirst hbound

theorem namesLeast_all : NamesLeast (fun _ => True) .ok where
  ok floor id h := by
    have hle : id ≤ floor := h.le floor ⟨trivial, UInt32.le_refl floor⟩
    exact congrArg Except.ok (UInt32.le_antisymm h.mem.2 hle)
  error floor h := absurd ⟨trivial, UInt32.le_refl floor⟩ (h floor)

def thousands (count : Nat) : List MachineId := (List.range' 1000 count).map UInt32.ofNat

theorem mem_thousands {count : Nat} (hcount : count ≤ 64) {id : MachineId} :
    id ∈ thousands count ↔ 1000 ≤ id.toNat ∧ id.toNat < 1000 + count := by
  simp only [thousands, List.mem_map, List.mem_range'_1]
  constructor
  · rintro ⟨n, hn, rfl⟩
    have hsize : n < UInt32.size :=
      Nat.lt_of_lt_of_le hn.2 (Nat.le_trans (Nat.add_le_add_left hcount 1000) (by decide))
    rwa [UInt32.toNat_ofNat_of_lt' hsize]
  · exact fun h => ⟨id.toNat, h, UInt32.ofNat_toNat⟩

theorem leading_thousands : Ids.Leading (Ids.from (fun _ => True) 1000) 64 (thousands 64) where
  ascending := by decide
  mem id hid := ⟨trivial, UInt32.le_iff_toNat_le.2 ((mem_thousands (Nat.le_refl 64)).1 hid).1⟩
  length_le := by decide
  above id hid hnot := by
    refine ⟨by decide, fun i hi => UInt32.lt_iff_toNat_lt.2 ?_⟩
    rw [mem_thousands (Nat.le_refl 64)] at hnot hi
    have hfloor : 1000 ≤ id.toNat := UInt32.le_iff_toNat_le.1 hid.2
    omega

def holding (count : Nat) : Memory :=
  { recentIds := { span := 30, holds := (thousands count).map fun id => ⟨"r1", id, 0⟩ } }

@[simp] theorem isHeld_holding (count : Nat) (id : MachineId) :
    ((holding count).recentIds.expire 7).isHeld "r1" id = decide (id ∈ thousands count) := by
  rw [Bool.eq_iff_iff]
  simp [holding, RecentIds.isHeld, RecentIds.expire, RecentIds.isOf]

/-- With 63 ids held the last one is found, with 64 held none is. -/
theorem allocate_finds_last :
    let out (count : Nat) := playAt .ok 7 (holding count) (allocate "r1" 1000).run
    (out 63).1 = .ok 1063 ∧
      (out 63).2 = { holding 63 with
        recentIds := (holding 63).recentIds.record 7 "r1" 1063 } ∧
      (out 64).1 = .error (exhausted "r1") := by
  intro out
  have hbound : ∀ id ∈ thousands 64, id.toNat + 1 < UInt32.size := by
    intro id hid
    have hlt := ((mem_thousands (Nat.le_refl 64)).1 hid).2
    exact Nat.lt_of_le_of_lt hlt (by decide)
  have hfinds (count : Nat) : Finds (Ids.from (fun _ => True) 1000) (thousands 64) 64 7 "r1"
      (holding count) (out count).1 (out count).2 :=
    allocate_finds _ .ok namesLeast_all 1000 _ leading_thousands hbound 7 "r1" (holding count)
  have hfound : (out 63).1 = .ok 1063 := by
    cases hout : (out 63).1 with
    | error e =>
      have hall := (hfinds 63).error_iff.1 ⟨e, hout⟩ 1063 (by decide)
      rw [isHeld_holding] at hall
      exact absurd hall (by decide)
    | ok id =>
      obtain ⟨hleast, -⟩ := (hfinds 63).ok id hout
      apply congrArg Except.ok
      refine hleast.unique ⟨⟨⟨trivial, by decide⟩, ?_⟩, fun other hother => ?_⟩
      · rw [isHeld_holding]
        decide
      · have hfloor : 1000 ≤ other.toNat := UInt32.le_iff_toNat_le.1 hother.1.2
        rw [isHeld_holding, decide_eq_false_iff_not, mem_thousands (by decide)] at hother
        exact UInt32.le_iff_toNat_le.2 (by change 1063 ≤ _; omega)
  refine ⟨hfound, ((hfinds 63).ok 1063 hfound).2, ?_⟩
  obtain ⟨e, he⟩ := (hfinds 64).error_iff.2 fun id hid => by simpa using hid
  rw [he, ((hfinds 64).error e he).2.2 (by decide)]

end finds

end NodeProvisioner.MachineIds
