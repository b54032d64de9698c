import Mathlib.Logic.Function.Basic
import NodeProvisioner.Proofs.Trace
import NodeProvisioner.World.MachineIds

/-! Allocations and releases that run at the same time. Their turns come in any order and at any
later time, and the hypervisors may name any id as free, also one that they named before. What
keeps the ids apart is the memory alone. -/
namespace NodeProvisioner

theorem MachineIds.allocateFrom_run (region : String) (attempts : Nat) (floor : MachineId) :
    (allocateFrom region (attempts + 1) floor).run =
      .call (.hypervisor region (.nextId floor)) fun
        | .ok candidate => .call (.memory (.claimId region candidate)) fun taken =>
          if taken then .done (.ok candidate)
          else (allocateFrom region attempts (candidate + 1)).run
        | .error e => .done (.error e) := by
  simp only [allocateFrom, Job.run_bind, Hypervisor.send, Plan.perform, Plan.call_bind]
  congr 1
  funext answer
  cases answer with
  | error e => rfl
  | ok candidate =>
    change Plan.call _ _ = _
    congr 1
    funext taken
    cases taken <;> rfl

namespace RecentIds
variable {r : RecentIds} {region other : String} {machine : MachineId} {now later : Nat}

def live (r : RecentIds) (region : String) (now : Nat) : List Hold :=
  r.holds.filter fun h => h.region = region ∧ now - h.since < r.span

def record (r : RecentIds) (now : Nat) (region : String) (machine : MachineId) : RecentIds :=
  { r.expire now with holds := ⟨region, machine, now⟩ :: (r.expire now).holds }

theorem claim_of_held (h : (r.expire now).isHeld region machine = true) :
    r.claim now region machine = (false, r.expire now) := if_pos h

theorem claim_of_free (h : (r.expire now).isHeld region machine = false) :
    r.claim now region machine = (true, r.record now region machine) :=
  if_neg (by simp [h])

theorem mem_expire {h : Hold} :
    h ∈ (r.expire now).holds ↔ h ∈ r.holds ∧ now - h.since < r.span := by
  simp [expire]

/-- An id that is free although it is remembered has been held for long enough. -/
theorem span_le_of_isHeld_eq_false {h : Hold} (hmem : h ∈ r.holds)
    (hfree : (r.expire now).isHeld h.region h.machine = false) : r.span ≤ now - h.since := by
  by_contra hshort
  have hstill : h ∈ (r.expire now).holds := mem_expire.2 ⟨hmem, by omega⟩
  simp only [isHeld, List.any_eq_false] at hfree
  exact hfree h hstill (by simp [isOf])

theorem live_expire (hlater : now ≤ later) :
    (r.expire now).live region later = r.live region later := by
  unfold live expire
  rw [List.filter_filter]
  apply List.filter_congr
  intro h _
  have hstill : later - h.since < r.span → now - h.since < r.span := by omega
  simpa using fun _ => hstill

theorem live_record (hlater : now ≤ later) : (r.record now other machine).live region later =
    if other = region ∧ later - now < r.span then
      ⟨other, machine, now⟩ :: r.live region later
    else r.live region later := by
  rw [← live_expire (r := r) hlater]
  by_cases h : other = region ∧ later - now < r.span
  · rw [if_pos h]
    exact List.filter_cons_of_pos (decide_eq_true h)
  · rw [if_neg h]
    exact List.filter_cons_of_neg (mt of_decide_eq_true h)

theorem isHeld_expire :
    (r.expire now).isHeld region machine = (r.live region now).any (isOf region machine) := by
  simp only [isHeld, expire, live, List.any_filter]
  congr 1
  funext h
  by_cases hregion : h.region = region <;> simp [isOf, hregion]

theorem live_forget : (r.forget region machine).live region now =
    (r.live region now).filter (!isOf region machine ·) := by
  simp only [live, forget, List.filter_filter]
  congr 1
  funext h
  exact Bool.and_comm _ _

theorem live_forget_of_ne (hne : other ≠ region) :
    (r.forget other machine).live region now = r.live region now := by
  simp only [live, forget, List.filter_filter]
  apply List.filter_congr
  intro h _
  by_cases hregion : h.region = region
  · simp [isOf, hregion, Ne.symm hne]
  · simp [hregion]

end RecentIds

namespace MachineIds
variable {α : Type}

/-- One call of a plan, made now. The memory answers for itself, and in one step; whatever else is
asked may be answered in any way. -/
inductive Turn (now : Nat) : Memory → Plan α → Event → Memory → Plan α → Prop where
  | remembers (m : Memory) (a : Memory.Access) (next : a.Answer → Plan α) :
      Turn now m (.call (.memory a) next) ⟨.memory a, (m.perform now a).1⟩ (m.perform now a).2
        (next (m.perform now a).1)
  | asks (m : Memory) {c : Call} (next : c.Reply → Plan α) (reply : c.Reply)
      (hc : ∀ a, c ≠ .memory a) : Turn now m (.call c next) ⟨c, reply⟩ m (next reply)

def result? : Plan α → Option α
  | .done a => some a
  | .call _ _ => none

/-- The time, what is remembered, and how far each allocation has come in its region. -/
structure Desk where
  time : Nat
  memory : Memory
  calls : Nat → Option (String × Plan (Except Fault MachineId))

namespace Desk

def ids (s : Desk) : RecentIds := s.memory.recentIds

end Desk

inductive Act where
  | begin (caller : Nat) (region : String) (floor : MachineId)
  /-- One call of an allocation, with the result of the allocation if that was its last call. -/
  | turn (caller : Nat) (region : String) (event : Event)
      (result : Option (Except Fault MachineId))
  | release (region : String) (machine : MachineId)

def Act.region : Act → String
  | .begin _ region _ => region
  | .turn _ region _ _ => region
  | .release region _ => region

structure Occurrence where
  time : Nat
  act : Act

namespace Occurrence

def HandsOut (o : Occurrence) (region : String) (machine : MachineId) : Prop :=
  ∃ caller event, o.act = .turn caller region event (some (.ok machine))

def Fails (o : Occurrence) (caller : Nat) : Prop :=
  ∃ region event e, o.act = .turn caller region event (some (.error e))

end Occurrence

/-- What can happen next. The clock may stand still but never goes back. -/
inductive Step : Desk → Occurrence → Desk → Prop where
  | begin {s : Desk} {time caller : Nat} {region : String} {floor : MachineId}
      (htime : s.time ≤ time) (hfree : s.calls caller = none) :
      Step s ⟨time, .begin caller region floor⟩
        { s with
          time
          calls := Function.update s.calls caller (some (region, (allocate region floor).run)) }
  | turn {s : Desk} {time caller : Nat} {region : String} {event : Event} {memory : Memory}
      {plan next : Plan (Except Fault MachineId)} (htime : s.time ≤ time)
      (hplan : s.calls caller = some (region, plan))
      (hturn : Turn time s.memory plan event memory next) :
      Step s ⟨time, .turn caller region event (result? next)⟩
        { time, memory, calls := Function.update s.calls caller (some (region, next)) }
  | release {s : Desk} {time : Nat} {region : String} {machine : MachineId} {event : Event}
      {memory : Memory} (htime : s.time ≤ time)
      (hturn : Turn time s.memory (MachineIds.release region machine) event memory (.done ())) :
      Step s ⟨time, .release region machine⟩ { s with time, memory }

theorem Step.turn_of {s : Desk} {time caller : Nat} {region : String} {event : Event}
    {memory : Memory} {plan next : Plan (Except Fault MachineId)}
    {result : Option (Except Fault MachineId)} (htime : s.time ≤ time)
    (hplan : s.calls caller = some (region, plan))
    (hturn : Turn time s.memory plan event memory next) (hresult : result? next = result) :
    Step s ⟨time, .turn caller region event result⟩
      { time, memory, calls := Function.update s.calls caller (some (region, next)) } :=
  hresult ▸ .turn htime hplan hturn

inductive Runs : Desk → List Occurrence → Desk → Prop where
  | nil (s : Desk) : Runs s [] s
  | cons {s s' s'' : Desk} {o : Occurrence} {os : List Occurrence} (h : Step s o s')
      (rest : Runs s' os s'') : Runs s (o :: os) s''

theorem runs_append {s s' : Desk} {xs ys : List Occurrence} :
    Runs s (xs ++ ys) s' ↔ ∃ mid, Runs s xs mid ∧ Runs mid ys s' := by
  constructor
  · intro h
    induction xs generalizing s with
    | nil => exact ⟨s, .nil s, h⟩
    | cons o os ih =>
      cases h with
      | cons hstep rest =>
        obtain ⟨mid, hos, hys⟩ := ih rest
        exact ⟨mid, .cons hstep hos, hys⟩
  · rintro ⟨mid, hxs, hys⟩
    induction hxs with
    | nil => exact hys
    | cons hstep _ ih => exact .cons hstep (ih hys)

/-- What may be left to do of an allocation: all from some attempt on, or all from the claim of an
attempt on, or nothing. -/
inductive Allocating (region : String) : Plan (Except Fault MachineId) → Prop where
  | asking (attempts : Nat) (floor : MachineId) :
      Allocating region (allocateFrom region attempts floor).run
  | claiming (attempts : Nat) (machine : MachineId) :
      Allocating region (.call (.memory (.claimId region machine)) fun taken =>
        if taken then .done (.ok machine)
        else (allocateFrom region attempts (machine + 1)).run)
  | ended (r : Except Fault MachineId) : Allocating region (.done r)

/-- What a turn of an allocation does to the memory. Each case also says that the same turn can be
taken from another memory in which the id is held, or free, as it is here. -/
inductive Effect (now : Nat) (region : String) (m : Memory) (plan : Plan (Except Fault MachineId))
    (e : Event) : Memory → Plan (Except Fault MachineId) → Prop where
  | asked {next : Plan (Except Fault MachineId)} (hopen : ∀ id, result? next ≠ some (.ok id))
      (again : ∀ m', Turn now m' plan e m' next) : Effect now region m plan e m next
  | passed (id : MachineId) {next : Plan (Except Fault MachineId)}
      (hopen : ∀ id, result? next ≠ some (.ok id))
      (hheld : (m.recentIds.expire now).isHeld region id = true)
      (again : ∀ m', (m'.recentIds.expire now).isHeld region id = true →
        Turn now m' plan e { m' with recentIds := m'.recentIds.expire now } next) :
      Effect now region m plan e { m with recentIds := m.recentIds.expire now } next
  | took (id : MachineId) (hfree : (m.recentIds.expire now).isHeld region id = false)
      (again : ∀ m', (m'.recentIds.expire now).isHeld region id = false →
        Turn now m' plan e { m' with recentIds := m'.recentIds.record now region id }
          (.done (.ok id))) :
      Effect now region m plan e { m with recentIds := m.recentIds.record now region id }
        (.done (.ok id))

theorem not_ok_allocateFrom (region : String) (attempts : Nat) (floor id : MachineId) :
    result? (allocateFrom region attempts floor).run ≠ some (.ok id) := by
  cases attempts with
  | zero => simp [allocateFrom, Job.fail, result?]
  | succ attempts => simp [allocateFrom_run, result?]

theorem Allocating.turn {region : String} {plan next : Plan (Except Fault MachineId)} {now : Nat}
    {m m' : Memory} {e : Event} (h : Allocating region plan) (hturn : Turn now m plan e m' next) :
    Allocating region next ∧ Effect now region m plan e m' next := by
  cases h with
  | ended r => cases hturn
  | asking attempts floor =>
    cases attempts with
    | zero => cases hturn
    | succ attempts =>
      rw [allocateFrom_run] at hturn ⊢
      cases hturn with
      | asks _ reply hc =>
        refine ⟨?_, .asked ?_ fun m' => .asks m' _ reply hc⟩
        · cases reply with
          | error e => exact .ended _
          | ok id => exact .claiming _ _
        · cases reply <;> simp [result?]
  | claiming attempts machine =>
    cases hturn with
    | asks _ _ hc => exact absurd rfl (hc _)
    | remembers =>
      have again (m' : Memory) : Turn now m' _ _ _ _ :=
        .remembers m' (.claimId region machine) fun taken =>
          if taken then .done (.ok machine)
          else (allocateFrom region attempts (machine + 1)).run
      cases hheld : (m.recentIds.expire now).isHeld region machine with
      | true =>
        simp only [Memory.perform, RecentIds.claim_of_held hheld]
        refine ⟨.asking _ _, .passed machine (not_ok_allocateFrom _ _ _) hheld ?_⟩
        intro m' hheld'
        simpa [Memory.perform, RecentIds.claim_of_held hheld'] using again m'
      | false =>
        simp only [Memory.perform, RecentIds.claim_of_free hheld]
        refine ⟨.ended _, .took machine hheld ?_⟩
        intro m' hfree
        simpa [Memory.perform, RecentIds.claim_of_free hfree] using again m'

namespace Desk

/-- Every call in progress is what is left of an allocation in its region. -/
def Sound (s : Desk) : Prop :=
  ∀ caller region plan, s.calls caller = some (region, plan) → Allocating region plan

theorem Sound.update {s : Desk} (h : s.Sound) {caller : Nat} {region : String}
    {plan : Plan (Except Fault MachineId)} (hplan : Allocating region plan) (time : Nat)
    (memory : Memory) : Sound
      { time, memory, calls := Function.update s.calls caller (some (region, plan)) } := by
  intro caller' region' plan' h'
  change Function.update s.calls caller _ caller' = _ at h'
  by_cases hcaller : caller' = caller
  · rw [hcaller, Function.update_self] at h'
    cases h'
    exact hplan
  · rw [Function.update_of_ne hcaller] at h'
    exact h _ _ _ h'

end Desk

section step
variable {s s' : Desk} {o : Occurrence} {os : List Occurrence}

theorem Turn.of_release {now : Nat} {region : String} {machine : MachineId} {m m' : Memory}
    {e : Event} (h : Turn now m (MachineIds.release region machine) e m' (.done ())) :
    m' = { m with recentIds := m.recentIds.forget region machine } := by
  unfold MachineIds.release Memory.access Plan.perform at h
  cases h with
  | asks _ _ hc => exact absurd rfl (hc _)
  | remembers => rfl

theorem Step.time_le (h : Step s o s') : s.time ≤ o.time ∧ s'.time = o.time := by
  cases h <;> exact ⟨‹_›, rfl⟩

theorem Step.sound (h : Step s o s') (hs : s.Sound) : s'.Sound := by
  cases h with
  | begin => exact hs.update (.asking _ _) _ _
  | turn _ hplan hturn => exact hs.update ((hs _ _ _ hplan).turn hturn).1 _ _
  | release => exact hs

theorem Runs.sound (h : Runs s os s') (hs : s.Sound) : s'.Sound := by
  induction h with
  | nil => exact hs
  | cons hstep _ ih => exact ih (hstep.sound hs)

inductive Does (o : Occurrence) (r : RecentIds) : RecentIds → Prop where
  | nothing (hopen : ∀ region id, ¬ o.HandsOut region id) : Does o r r
  | expires (hopen : ∀ region id, ¬ o.HandsOut region id) : Does o r (r.expire o.time)
  | records {region : String} {id : MachineId} (hout : o.HandsOut region id)
      (hfree : (r.expire o.time).isHeld region id = false) : Does o r (r.record o.time region id)
  | forgets {region : String} {id : MachineId} (hact : o.act = .release region id) :
      Does o r (r.forget region id)

theorem not_handsOut_of_result {time caller : Nat} {region : String} {event : Event}
    {r : Option (Except Fault MachineId)} (h : ∀ id, r ≠ some (.ok id)) (region' : String)
    (id : MachineId) : ¬ Occurrence.HandsOut ⟨time, .turn caller region event r⟩ region' id := by
  rintro ⟨_, _, ⟨⟩⟩
  exact h id rfl

theorem Step.does (h : Step s o s') (hs : s.Sound) : Does o s.ids s'.ids := by
  cases h with
  | begin => exact .nothing (by simp [Occurrence.HandsOut])
  | release _ hturn =>
    rw [hturn.of_release]
    exact .forgets rfl
  | turn _ hplan hturn =>
    obtain ⟨_, heffect⟩ := (hs _ _ _ hplan).turn hturn
    cases heffect with
    | asked hopen => exact .nothing (not_handsOut_of_result hopen)
    | passed _ hopen => exact .expires (not_handsOut_of_result hopen)
    | took _ hfree => exact .records ⟨_, _, rfl⟩ hfree

theorem Does.span {r r' : RecentIds} (h : Does o r r') : r'.span = r.span := by
  cases h <;> rfl

theorem Runs.time_le (h : Runs s os s') : s.time ≤ s'.time := by
  induction h with
  | nil => exact Nat.le_refl _
  | cons hstep _ ih =>
    have := hstep.time_le
    omega

theorem Runs.span (h : Runs s os s') (hs : s.Sound) : s'.ids.span = s.ids.span := by
  induction h with
  | nil => rfl
  | cons hstep _ ih => rw [ih (hstep.sound hs), (hstep.does hs).span]

/-- Either it is remembered that the id was handed out, or that was long enough ago. -/
def Desk.Spaced (s : Desk) (h : Hold) : Prop :=
  h.since ≤ s.time ∧ (h ∈ s.ids.holds ∨ h.since + s.ids.span ≤ s.time)

theorem Does.mem_holds {r r' : RecentIds} {h : Hold} (hdoes : Does o r r') (hmem : h ∈ r.holds)
    (hact : o.act ≠ .release h.region h.machine) :
    h ∈ r'.holds ∨ r.span ≤ o.time - h.since := by
  by_cases hspan : r.span ≤ o.time - h.since
  · exact .inr hspan
  have hexpire : h ∈ (r.expire o.time).holds := RecentIds.mem_expire.2 ⟨hmem, by omega⟩
  apply Or.inl
  cases hdoes with
  | nothing => exact hmem
  | expires => exact hexpire
  | records => exact List.mem_cons_of_mem _ hexpire
  | @forgets region id hact' =>
    have hother : h.region ≠ region ∨ h.machine ≠ id := by
      apply Decidable.not_and_iff_not_or_not.1
      rintro ⟨rfl, rfl⟩
      exact hact hact'
    simpa [RecentIds.forget, RecentIds.isOf, hmem] using hother

theorem Step.spaced {h : Hold} (hstep : Step s o s') (hs : s.Sound) (hspaced : s.Spaced h)
    (hact : o.act ≠ .release h.region h.machine) : s'.Spaced h := by
  obtain ⟨hsince, hspaced⟩ := hspaced
  obtain ⟨hle, htime⟩ := hstep.time_le
  have hspan := (hstep.does hs).span
  refine ⟨by omega, ?_⟩
  rcases hspaced with hmem | hlong
  · apply ((hstep.does hs).mem_holds hmem hact).imp_right
    omega
  · exact .inr (by omega)

theorem Runs.spaced {h : Hold} (hruns : Runs s os s') (hs : s.Sound) (hspaced : s.Spaced h)
    (hacts : ∀ o ∈ os, o.act ≠ .release h.region h.machine) : s'.Spaced h := by
  induction hruns with
  | nil => exact hspaced
  | cons hstep _ ih =>
    obtain ⟨hact, hacts⟩ := List.forall_mem_cons.1 hacts
    exact ih (hstep.sound hs) (hstep.spaced hs hspaced hact) hacts

theorem Occurrence.HandsOut.unique {region region' : String} {id id' : MachineId}
    (h : o.HandsOut region id) (h' : o.HandsOut region' id') : region = region' ∧ id = id' := by
  obtain ⟨_, _, hact⟩ := h
  obtain ⟨_, _, hact'⟩ := h'
  rw [hact] at hact'
  cases hact'
  exact ⟨rfl, rfl⟩

theorem Step.of_handsOut {region : String} {id : MachineId} (hstep : Step s o s') (hs : s.Sound)
    (hout : o.HandsOut region id) : (s.ids.expire o.time).isHeld region id = false ∧
      s'.ids = s.ids.record o.time region id := by
  have hdoes := hstep.does hs
  generalize s'.ids = r' at hdoes
  cases hdoes with
  | nothing hopen => exact absurd hout (hopen _ _)
  | expires hopen => exact absurd hout (hopen _ _)
  | records hout' hfree =>
    obtain ⟨rfl, rfl⟩ := hout.unique hout'
    exact ⟨hfree, rfl⟩
  | forgets hact =>
    obtain ⟨_, _, hact'⟩ := hout
    rw [hact] at hact'
    cases hact'

theorem Runs.handsOut_apart {before between after : List Occurrence} {first second : Occurrence}
    {region : String} {id : MachineId} (hs : s.Sound)
    (hruns : Runs s (before ++ first :: (between ++ second :: after)) s')
    (hfirst : first.HandsOut region id) (hsecond : second.HandsOut region id) :
    (∃ o ∈ between, o.act = .release region id) ∨
      first.time + s.ids.span ≤ second.time := by
  obtain ⟨u, hbefore, hruns⟩ := runs_append.1 hruns
  cases hruns with
  | @cons _ v _ _ _ hstep hruns =>
  obtain ⟨w, hbetween, hruns⟩ := runs_append.1 hruns
  cases hruns with
  | cons hstep' _ =>
  by_cases hrelease : ∃ o ∈ between, o.act = .release region id
  · exact .inl hrelease
  · have hu := hbefore.sound hs
    have hv := hstep.sound hu
    have hw := hbetween.sound hv
    have hspan : w.ids.span = s.ids.span := by
      rw [hbetween.span hv, (hstep.does hu).span, hbefore.span hs]
    have hheld : v.Spaced ⟨region, id, first.time⟩ := by
      obtain ⟨_, hids⟩ := hstep.of_handsOut hu hfirst
      exact ⟨Nat.le_of_eq hstep.time_le.2.symm, .inl (by simp [hids, RecentIds.record])⟩
    obtain ⟨_, hspaced⟩ := hbetween.spaced hv hheld fun o ho hact => hrelease ⟨o, ho, hact⟩
    obtain ⟨hfree, _⟩ := hstep'.of_handsOut hw hsecond
    have htimes : first.time ≤ second.time := by
      have hstart := hstep.time_le
      have hmiddle := hbetween.time_le
      have hend := hstep'.time_le
      omega
    have hlater : w.time ≤ second.time := hstep'.time_le.1
    apply Or.inr
    rcases hspaced with hmem | hlong
    · have hlong : w.ids.span ≤ second.time - first.time :=
        RecentIds.span_le_of_isHeld_eq_false hmem hfree
      omega
    · have hlong : first.time + w.ids.span ≤ w.time := hlong
      omega

/-- Two desks that are the same as far as a region can tell. -/
structure Alike (region : String) (s t : Desk) : Prop where
  time : t.time ≤ s.time
  span : t.ids.span = s.ids.span
  live : ∀ now, s.time ≤ now → t.ids.live region now = s.ids.live region now
  free : ∀ caller, s.calls caller = none → t.calls caller = none
  calls : ∀ caller plan, t.calls caller = some (region, plan) ↔ s.calls caller = some (region, plan)

theorem Alike.refl (region : String) (s : Desk) : Alike region s s :=
  ⟨Nat.le_refl _, rfl, fun _ _ => rfl, fun _ h => h, fun _ _ => Iff.rfl⟩

section alike
variable {t : Desk} {region : String}

theorem Alike.isHeld (h : Alike region s t) {now : Nat} (hnow : s.time ≤ now) (id : MachineId) :
    (t.ids.expire now).isHeld region id = (s.ids.expire now).isHeld region id := by
  rw [RecentIds.isHeld_expire, RecentIds.isHeld_expire, h.live now hnow]

theorem Alike.update (h : Alike region s t) {time caller : Nat} {m m' : Memory}
    {plan : Plan (Except Fault MachineId)} (hspan : m'.recentIds.span = m.recentIds.span)
    (hlive : ∀ now, time ≤ now → m'.recentIds.live region now = m.recentIds.live region now) :
    Alike region ⟨time, m, Function.update s.calls caller (some (region, plan))⟩
      ⟨time, m', Function.update t.calls caller (some (region, plan))⟩ where
  time := Nat.le_refl _
  span := hspan
  live := hlive
  free caller' := by
    by_cases hcaller : caller' = caller
    · simp [hcaller]
    · simpa [Function.update_of_ne hcaller] using h.free caller'
  calls caller' plan' := by
    by_cases hcaller : caller' = caller
    · simp [hcaller]
    · simpa [Function.update_of_ne hcaller] using h.calls caller' plan'

/-- A call of another region takes a turn, which this region does not notice. -/
theorem Alike.skip (h : Alike region s t) {time caller : Nat} {m : Memory} {other : String}
    {plan : Plan (Except Fault MachineId)} (hother : other ≠ region)
    (hcaller : ∀ plan, s.calls caller ≠ some (region, plan)) (htime : s.time ≤ time)
    (hspan : m.recentIds.span = s.ids.span)
    (hlive : ∀ now, time ≤ now → m.recentIds.live region now = s.ids.live region now) :
    Alike region ⟨time, m, Function.update s.calls caller (some (other, plan))⟩ t where
  time := Nat.le_trans h.time htime
  span := h.span.trans hspan.symm
  live now hnow := (h.live now (Nat.le_trans htime hnow)).trans (hlive now hnow).symm
  free caller' := by
    by_cases hne : caller' = caller
    · simp [hne]
    · simpa [Function.update_of_ne hne] using h.free caller'
  calls caller' plan' := by
    by_cases hne : caller' = caller
    · simpa [hne, hother] using (h.calls caller plan').not.2 (hcaller plan')
    · simpa [Function.update_of_ne hne] using h.calls caller' plan'

theorem Effect.live_of_ne {now later : Nat} {other : String} {m m' : Memory} {e : Event}
    {plan next : Plan (Except Fault MachineId)} (h : Effect now other m plan e m' next)
    (hother : other ≠ region) (hlater : now ≤ later) :
    m'.recentIds.live region later = m.recentIds.live region later := by
  cases h with
  | asked => rfl
  | passed => exact RecentIds.live_expire hlater
  | took => simp [RecentIds.live_record hlater, hother]

theorem Effect.span {now : Nat} {other : String} {m m' : Memory} {e : Event}
    {plan next : Plan (Except Fault MachineId)} (h : Effect now other m plan e m' next) :
    m'.recentIds.span = m.recentIds.span := by
  cases h <;> rfl

theorem Step.alike_of_ne (hstep : Step s o s') (hs : s.Sound) (h : Alike region s t)
    (hother : o.act.region ≠ region) : Alike region s' t := by
  cases hstep with
  | begin htime hfree => exact h.skip hother (by simp [hfree]) htime rfl fun _ _ => rfl
  | turn htime hplan hturn =>
    obtain ⟨_, heffect⟩ := (hs _ _ _ hplan).turn hturn
    refine h.skip hother ?_ htime heffect.span fun _ => heffect.live_of_ne hother
    intro plan hplan'
    rw [hplan] at hplan'
    cases hplan'
    exact hother rfl
  | release htime hturn =>
    rw [hturn.of_release]
    refine ⟨Nat.le_trans h.time htime, h.span, ?_, h.free, h.calls⟩
    intro now hnow
    exact (h.live now (Nat.le_trans htime hnow)).trans (RecentIds.live_forget_of_ne hother).symm

theorem Step.alike_of_eq (hstep : Step s o s') (hs : s.Sound) (h : Alike region s t)
    (hregion : o.act.region = region) : ∃ t', Step t o t' ∧ Alike region s' t' := by
  cases hstep with
  | begin htime hfree =>
    dsimp only [Act.region] at hregion
    subst hregion
    refine ⟨_, .begin (Nat.le_trans h.time htime) (h.free _ hfree), h.update h.span ?_⟩
    exact fun now hnow => h.live now (Nat.le_trans htime hnow)
  | @turn time caller _ event m plan next htime hplan hturn =>
    dsimp only [Act.region] at hregion
    subst hregion
    obtain ⟨_, heffect⟩ := (hs _ _ _ hplan).turn hturn
    have take {m' : Memory} (hturn' : Turn time t.memory plan event m' next) :=
      Step.turn (Nat.le_trans h.time htime) ((h.calls _ _).2 hplan) hturn'
    have hlive (now : Nat) (hnow : time ≤ now) := h.live now (Nat.le_trans htime hnow)
    cases heffect with
    | asked _ again => exact ⟨_, take (again _), h.update h.span hlive⟩
    | passed id _ hheld again =>
      refine ⟨_, take (again _ ((h.isHeld htime id).trans hheld)), h.update h.span ?_⟩
      intro now hnow
      rw [RecentIds.live_expire hnow, RecentIds.live_expire hnow]
      exact hlive now hnow
    | took id hfree again =>
      refine ⟨_, take (again _ ((h.isHeld htime id).trans hfree)), h.update h.span ?_⟩
      intro now hnow
      have hspan : t.memory.recentIds.span = s.memory.recentIds.span := h.span
      have hlive : t.memory.recentIds.live _ now = s.memory.recentIds.live _ now := hlive now hnow
      rw [RecentIds.live_record hnow, RecentIds.live_record hnow, hspan, hlive]
  | @release time _ machine _ _ htime hturn =>
    dsimp only [Act.region] at hregion
    subst hregion
    rw [hturn.of_release]
    refine ⟨_, .release (Nat.le_trans h.time htime) (.remembers _ _ _), Nat.le_refl _, h.span, ?_,
      h.free, h.calls⟩
    intro now hnow
    change (t.ids.forget _ machine).live _ now = (s.ids.forget _ machine).live _ now
    rw [RecentIds.live_forget, RecentIds.live_forget, h.live now (Nat.le_trans htime hnow)]

theorem Runs.alike (hruns : Runs s os s') (hs : s.Sound) (h : Alike region s t) :
    ∃ t', Runs t (os.filter (·.act.region = region)) t' ∧ Alike region s' t' := by
  induction hruns generalizing t with
  | nil => exact ⟨t, .nil t, h⟩
  | @cons _ _ _ o _ hstep _ ih =>
    by_cases hregion : o.act.region = region
    · obtain ⟨u, hu, halike⟩ := hstep.alike_of_eq hs h hregion
      obtain ⟨t', ht', halike'⟩ := ih (hstep.sound hs) halike
      rw [List.filter_cons_of_pos (by simpa using hregion)]
      exact ⟨t', .cons hu ht', halike'⟩
    · rw [List.filter_cons_of_neg (by simpa using hregion)]
      exact ih (hstep.sound hs) (hstep.alike_of_ne hs h hregion)

end alike

theorem Step.ended (hstep : Step s o s') {caller : Nat} {region : String}
    {r : Except Fault MachineId} (h : s.calls caller = some (region, .done r)) :
    s'.calls caller = some (region, .done r) ∧ ¬ o.Fails caller := by
  cases hstep with
  | @begin _ caller' _ _ _ hfree =>
    have hne : caller ≠ caller' := by
      rintro rfl
      rw [h] at hfree
      cases hfree
    exact ⟨(Function.update_of_ne hne _ _).trans h, by simp [Occurrence.Fails]⟩
  | @turn _ caller' _ _ _ _ _ _ hplan hturn =>
    have hne : caller ≠ caller' := by
      rintro rfl
      rw [h] at hplan
      cases hplan
      cases hturn
    refine ⟨(Function.update_of_ne hne _ _).trans h, ?_⟩
    rintro ⟨_, _, _, hact⟩
    exact hne (Act.turn.inj hact).1.symm
  | release => exact ⟨h, by simp [Occurrence.Fails]⟩

theorem Runs.ended (hruns : Runs s os s') {caller : Nat} {region : String}
    {r : Except Fault MachineId} (h : s.calls caller = some (region, .done r)) :
    ∀ o ∈ os, ¬ o.Fails caller := by
  induction hruns with
  | nil => exact List.forall_mem_nil _
  | cons hstep _ ih =>
    obtain ⟨hkept, hopen⟩ := hstep.ended h
    exact List.forall_mem_cons.2 ⟨hopen, ih hkept⟩

/-- A turn that records an id is the last one of its call, and the call does not fail. -/
theorem Step.holds_subset {caller : Nat} (hstep : Step s o s') (hs : s.Sound)
    (hcaller : ∃ region event r, o.act = .turn caller region event r) (hruns : Runs s' os t)
    (hfails : ∃ o' ∈ o :: os, o'.Fails caller) : s'.ids.holds ⊆ s.ids.holds := by
  cases hstep with
  | begin => simp at hcaller
  | release => simp at hcaller
  | turn _ hplan hturn =>
    obtain ⟨_, _, _, ⟨⟩⟩ := hcaller
    obtain ⟨_, heffect⟩ := (hs _ _ _ hplan).turn hturn
    cases heffect with
    | asked => exact List.Subset.refl _
    | passed => exact fun h hmem => (RecentIds.mem_expire.1 hmem).1
    | took id =>
      obtain ⟨o', ho', hfail⟩ := hfails
      rcases List.mem_cons.1 ho' with rfl | ho'
      · obtain ⟨_, _, _, ⟨⟩⟩ := hfail
      · exact absurd hfail (hruns.ended (Function.update_self _ _ _) o' ho')

end step

/-- Allocations keep the ids apart, and the regions, and leave nothing behind when they fail. -/
structure Orderly (s s' : Desk) (os : List Occurrence) : Prop where
  /-- Between two times that an id of a region is handed out, it is released or the span passes. -/
  apart (before between after : List Occurrence) (first second : Occurrence) (region : String)
    (id : MachineId) (hos : os = before ++ first :: (between ++ second :: after))
    (hfirst : first.HandsOut region id) (hsecond : second.HandsOut region id) :
    (∃ o ∈ between, o.act = .release region id) ∨ first.time + s.ids.span ≤ second.time
  /-- Had nothing happened in the other regions, a region would not tell the difference. -/
  regional (region : String) :
    ∃ t, Runs s (os.filter (·.act.region = region)) t ∧ Alike region s' t
  /-- No turn of an allocation that fails, now or later, records an id. -/
  clean (before after : List Occurrence) (o : Occurrence) (u u' : Desk)
    (hos : os = before ++ o :: after) (hbefore : Runs s before u) (hstep : Step u o u')
    (hafter : Runs u' after s') (caller : Nat)
    (hcaller : ∃ region event r, o.act = .turn caller region event r)
    (hfails : ∃ o' ∈ o :: after, o'.Fails caller) : u'.ids.holds ⊆ u.ids.holds

theorem runs_orderly {s s' : Desk} {os : List Occurrence} (hidle : ∀ caller, s.calls caller = none)
    (hruns : Runs s os s') : Orderly s s' os := by
  have hs : s.Sound := by
    intro caller region plan h
    rw [hidle caller] at h
    cases h
  constructor
  case apart =>
    intro before between after first second region id hos hfirst hsecond
    subst hos
    exact hruns.handsOut_apart hs hfirst hsecond
  case regional =>
    intro region
    exact hruns.alike hs (.refl region s)
  case clean =>
    intro before after o u u' hos hbefore hstep hafter caller hcaller hfails
    exact hstep.holds_subset (hbefore.sound hs) hcaller hafter hfails

/-- Two allocations are told the same id. The second one gets it when it has been released; a
third one fails. -/
theorem runs_orderly_released : ∃ s' : Desk,
    Orderly ⟨0, { recentIds := { span := 30 } }, fun _ => none⟩ s'
      [⟨0, .begin 0 "r1" 1000⟩, ⟨0, .begin 1 "r1" 1000⟩,
        ⟨1, .turn 0 "r1" ⟨.hypervisor "r1" (.nextId 1000), .ok 1000⟩ none⟩,
        ⟨2, .turn 1 "r1" ⟨.hypervisor "r1" (.nextId 1000), .ok 1000⟩ none⟩,
        ⟨3, .turn 0 "r1" ⟨.memory (.claimId "r1" 1000), true⟩ (some (.ok 1000))⟩,
        ⟨3, .turn 1 "r1" ⟨.memory (.claimId "r1" 1000), false⟩ none⟩,
        ⟨4, .release "r1" 1000⟩,
        ⟨5, .turn 1 "r1" ⟨.hypervisor "r1" (.nextId 1001), .ok 1000⟩ none⟩,
        ⟨5, .turn 1 "r1" ⟨.memory (.claimId "r1" 1000), true⟩ (some (.ok 1000))⟩,
        ⟨6, .begin 2 "r1" 1000⟩,
        ⟨7, .turn 2 "r1" ⟨.hypervisor "r1" (.nextId 1000), .error (.apiServer none)⟩
          (some (.error (.apiServer none)))⟩] := by
  apply Exists.imp fun _ => runs_orderly fun _ => rfl
  apply Exists.intro
  apply Runs.cons (.begin (by decide) rfl)
  apply Runs.cons (.begin (by decide) rfl)
  apply Runs.cons (.turn_of (by decide) rfl (.asks _ _ _ (by simp)) (by rfl))
  apply Runs.cons (.turn_of (by decide) rfl (.asks _ _ _ (by simp)) (by rfl))
  apply Runs.cons (.turn_of (by decide) rfl (.remembers _ _ _) (by rfl))
  apply Runs.cons (.turn_of (by decide) rfl (.remembers _ _ _) (by rfl))
  apply Runs.cons (.release (by decide) (.remembers _ _ _))
  apply Runs.cons (.turn_of (by decide) rfl (.asks _ _ _ (by simp)) (by rfl))
  apply Runs.cons (.turn_of (by decide) rfl (.remembers _ _ _) (by rfl))
  apply Runs.cons (.begin (by decide) rfl)
  apply Runs.cons (.turn_of (by decide) rfl (.asks _ _ _ (by simp)) (by rfl))
  exact .nil _

end MachineIds
end NodeProvisioner
