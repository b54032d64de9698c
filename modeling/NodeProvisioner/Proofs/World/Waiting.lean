import Mathlib.Logic.Function.Iterate
import NodeProvisioner.Proofs.Calls

/-! How a wait goes, and how it ends. It is a row of looks with a pause behind each but the last.
It ends with what the last look found, with the fault of the last look, or because it is given up.
Only the last of these makes a fault of its own. -/
namespace NodeProvisioner

namespace Waiting
variable {α : Type}

structure Round where
  calls : Trace
  jitter : Jitter
  span : Nat

def Round.trace (heeds : Bool) (round : Round) : Trace :=
  round.calls ++ [⟨.circumstance .jitter, round.jitter⟩,
    ⟨.circumstance (.pause round.span heeds), false⟩]

def elapsed : List Round → Nat
  | [] => 0
  | round :: rest => round.span + elapsed rest

/-- The rounds of a wait, its last look with what that found, and the calls behind it. -/
structure Course (α : Type) where
  rounds : List Round
  last : Trace
  found : Except Fault (Option α)
  after : Trace

def Course.trace (heeds : Bool) (c : Course α) : Trace :=
  c.rounds.flatMap (Round.trace heeds) ++ (c.last ++ c.after)

structure Pause (p : Patience) (elapsed delay : Nat) (jitter : Jitter) (span : Nat) : Prop where
  early : elapsed < p.timeout
  span_eq : span = nap jitter delay (p.timeout - elapsed)

/-- What comes of a wait whose last look has found this so long after the start, and what is called
behind that look. -/
inductive Ending (p : Patience) (operation : String) (heeds : Bool) (elapsed delay : Nat) :
    Except Fault (Option α) → Trace → Except Fault α → Prop where
  | finished (a : α) : Ending p operation heeds elapsed delay (.ok (some a)) [] (.ok a)
  | refused (e : Fault) : Ending p operation heeds elapsed delay (.error e) [] (.error e)
  | timedOut (h : p.timeout ≤ elapsed) :
      Ending p operation heeds elapsed delay (.ok none) [] (.error (timedOut operation p))
  | cancelled {jitter : Jitter} {span : Nat} (h : Pause p elapsed delay jitter span) :
      Ending p operation heeds elapsed delay (.ok none)
        [⟨.circumstance .jitter, jitter⟩, ⟨.circumstance (.pause span heeds), true⟩]
        (.error (cancelled operation))

/-- Each of the looks finds nothing, and there is time left behind it. -/
def Paced (p : Patience) (look : Job (Option α)) : Nat → Nat → List Round → Prop
  | _, _, [] => True
  | elapsed, delay, round :: rest => look.run.Yields round.calls (.ok none) ∧
      Pause p elapsed delay round.jitter round.span ∧
      Paced p look (elapsed + round.span) (p.grow delay) rest

structure Course.Goes (p : Patience) (operation : String) (heeds : Bool) (look : Job (Option α))
    (start delay : Nat) (c : Course α) (r : Except Fault α) : Prop where
  paced : Paced p look start delay c.rounds
  looked : look.run.Yields c.last c.found
  ended : Ending p operation heeds (start + elapsed c.rounds) (p.grow^[c.rounds.length] delay)
    c.found c.after r

theorem lookFrom_goes (p : Patience) (operation : String) (heeds : Bool)
    (look : Job (Option α)) (start delay : Nat) :
    (lookFrom p operation heeds look start delay).Ensures fun t r =>
      ∃ c : Course α, t = c.trace heeds ∧ c.Goes p operation heeds look start delay r := by
  -- A look that finds nothing, with the pause behind it, is one more round of what follows.
  fun_induction lookFrom p operation heeds look start delay with
  | case1 start delay ih =>
    rw [Job.ensures_bind]
    intro t found hlook
    rcases found with e | _ | a
    · exact ⟨⟨[], t, .error e, []⟩, by simp [Course.trace], trivial, hlook, .refused e⟩
    · dsimp only
      split
      · next h =>
        refine (Job.ensures_fail _ _).2 ⟨⟨[], t, .ok none, []⟩, by simp [Course.trace], trivial,
          hlook, .timedOut h⟩
      · next h =>
        refine (Job.ensures_perform_bind (.circumstance _) _ _).2 fun jitter => ?_
        refine (Job.ensures_perform_bind (.circumstance _) _ _).2 fun cut => ?_
        have hpause : Pause p start delay jitter (nap jitter delay (p.timeout - start)) :=
          ⟨Nat.lt_of_not_le h, rfl⟩
        cases cut with
        | true =>
          refine (Job.ensures_fail _ _).2 ⟨⟨[], t, .ok none, _⟩, ?_, trivial, hlook,
            .cancelled hpause⟩
          simp [Course.trace]
        | false =>
          refine (ih h jitter).mono ?_
          rintro _ r ⟨c, rfl, hgoes⟩
          let round : Round := ⟨t, jitter, nap jitter delay (p.timeout - start)⟩
          refine ⟨{ c with rounds := round :: c.rounds }, ?_, ⟨hlook, hpause, hgoes.paced⟩,
            hgoes.looked, ?_⟩
          · simp [Course.trace, Round.trace, round]
          · have hended := hgoes.ended
            rwa [Nat.add_assoc] at hended
    · exact (Job.ensures_pure _ _).2 ⟨⟨[], t, .ok (some a), []⟩, by simp [Course.trace], trivial,
        hlook, .finished a⟩

inductive Ended (p : Patience) (operation : String) (look : Job (Option α)) :
    Trace → Except Fault α → Prop where
  | finished (before : Trace) {last : Trace} {a : α} (h : look.run.Yields last (.ok (some a))) :
      Ended p operation look (before ++ last) (.ok a)
  | refused (before : Trace) {last : Trace} {e : Fault} (h : look.run.Yields last (.error e)) :
      Ended p operation look (before ++ last) (.error e)
  | timedOut (t : Trace) : Ended p operation look t (.error (timedOut operation p))
  | cancelled (t : Trace) : Ended p operation look t (.error (cancelled operation))

theorem lookFrom_ended (p : Patience) (operation : String) (heeds : Bool) (look : Job (Option α))
    (start delay : Nat) :
    (lookFrom p operation heeds look start delay).Ensures (Ended p operation look) := by
  refine (lookFrom_goes p operation heeds look start delay).mono ?_
  rintro _ r ⟨⟨rounds, last, found, after⟩, rfl, -, hlooked, hended⟩
  unfold Course.trace
  dsimp only at hlooked hended ⊢
  cases hended with
  | finished a =>
    rw [List.append_nil]
    exact .finished _ hlooked
  | refused e =>
    rw [List.append_nil]
    exact .refused _ hlooked
  | timedOut h => exact .timedOut _
  | cancelled h => exact .cancelled _

theorem lookFrom_yields {p : Patience} {operation : String} {heeds : Bool} {look : Job (Option α)}
    {elapsed delay : Nat} {t : Trace} {a : α} (h : look.run.Yields t (.ok (some a))) :
    (lookFrom p operation heeds look elapsed delay).run.Yields t (.ok a) := by
  rw [lookFrom, Job.run_bind, ← List.append_nil t]
  exact h.bind (.done _)

end Waiting

def Call.Waits (region zone : String) (task : TaskId) (c : Call) : Prop :=
  c = .hypervisor region (.taskStatus zone task) ∨ c = .circumstance .jitter ∨
    ∃ span heeds, c = .circumstance (.pause span heeds)

namespace Task
variable {p : Patience} {heeds : Bool} {region zone : String} {task : TaskId}

theorem look_ensures : (look region zone task).Ensures fun t r =>
    ∃ answer : Except Fault TaskStatus, t = [⟨.hypervisor region (.taskStatus zone task), answer⟩] ∧
      r = answer.map fun status => if status.isFinished then some status else none := by
  unfold look
  rw [Job.ensures_bind, Hypervisor.ensures_send]
  intro answer
  cases answer with
  | error e => exact ⟨.error e, rfl, rfl⟩
  | ok status => exact (Job.ensures_pure _ _).2 ⟨.ok status, rfl, rfl⟩

theorem finish_looked : (finish p heeds region zone task).Ensures fun t r =>
    ∀ status, r = .ok status →
      t.getLast? = some ⟨.hypervisor region (.taskStatus zone task), .ok status⟩ := by
  refine (Waiting.lookFrom_ended _ _ _ _ _ _).mono fun t r hended => ?_
  cases hended with
  | @finished before _ found hlook =>
    obtain ⟨answer, rfl, hanswer⟩ := look_ensures _ _ hlook
    rintro status ⟨⟩
    cases answer with
    | error e => simp [Except.map] at hanswer
    | ok seen =>
      have hseen : seen = found := by
        simp only [Except.map, Except.ok.injEq] at hanswer
        split at hanswer <;> simp_all
      simp [hseen]
  | _ => simp

/-- The calls of a wait for a task that succeeded. -/
structure Awaited (region zone : String) (task : TaskId) (t : Trace) : Prop where
  /-- The last look finds the task stopped with the exit status `OK`. -/
  succeeded : t.getLast? =
    some ⟨.hypervisor region (.taskStatus zone task), .ok { running := false, exit := some "OK" }⟩
  waits : ∀ e ∈ t, e.call.Waits region zone task

theorem eq_of_isSuccess {status : TaskStatus} (h : status.isSuccess = true) :
    status = { running := false, exit := some "OK" } := by
  obtain ⟨running, exit⟩ := status
  simp_all [TaskStatus.isSuccess]

theorem finish_waits : (finish p heeds region zone task).Only (Call.Waits region zone task) :=
  finish_only (.inl rfl) (.inr (.inl rfl)) fun span => .inr (.inr ⟨span, heeds, rfl⟩)

theorem succeed_waits : (succeed p heeds region zone task).Only (Call.Waits region zone task) :=
  succeed_only (.inl rfl) (.inr (.inl rfl)) fun span => .inr (.inr ⟨span, heeds, rfl⟩)

theorem awaited_of_isSuccess {t : Trace} {status : TaskStatus}
    (h : (finish p heeds region zone task).run.Yields t (.ok status))
    (hsuccess : status.isSuccess = true) : Awaited region zone task t where
  succeeded := by
    rw [finish_looked _ _ h status rfl, eq_of_isSuccess hsuccess]
  waits := finish_waits _ _ h

theorem succeed_yields : (succeed p heeds region zone task).run.Yields
    [⟨.hypervisor region (.taskStatus zone task), .ok { running := false, exit := some "OK" }⟩]
    (.ok ()) := by
  have hlook : (look region zone task).run.Yields
      [⟨.hypervisor region (.taskStatus zone task), .ok { running := false, exit := some "OK" }⟩]
      (.ok (some { running := false, exit := some "OK" })) := .call _ (.done _)
  exact (Waiting.lookFrom_yields hlook).bind (.done _)

theorem succeed_awaited : (succeed p heeds region zone task).Ensures fun t r =>
    r = .ok () → Awaited region zone task t := by
  have hlast : (succeed p heeds region zone task).Ensures fun t r => r = .ok () →
      t.getLast? = some ⟨.hypervisor region (.taskStatus zone task),
        .ok { running := false, exit := some "OK" }⟩ := by
    refine (Job.ensures_bind _ _ _).2 (finish_looked.mono fun t r hlooked => ?_)
    cases r with
    | error e => exact nofun
    | ok status =>
      dsimp only
      split
      · next hsuccess =>
        rw [Job.ensures_pure, List.append_nil, hlooked status rfl, eq_of_isSuccess hsuccess]
        exact fun _ => rfl
      · simp
  exact (Plan.Ensures.and succeed_waits hlast).mono fun t r h hr => ⟨h.2 hr, h.1⟩

end Task
end NodeProvisioner
