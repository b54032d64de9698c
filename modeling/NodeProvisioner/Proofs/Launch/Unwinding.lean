import NodeProvisioner.Proofs.Launch.Undoing
import NodeProvisioner.Proofs.World.Pacing

/-! How taking back is counted. The calls of an unwinding fall apart into those of its steps, from
the one that was recorded last to the first, and which steps have failed can be told from the
replies to their own calls. -/
namespace NodeProvisioner

/-- A reply that names a task is followed by a wait for it, which the caller cannot cut short, and
another one by nothing. -/
inductive Task.Follows (p : Patience) (region zone : String) : Except Fault TaskId → Trace → Prop
    where
  | waited {task : TaskId} {wait : Trace} {found : Except Fault TaskStatus}
      (h : Watched p false region zone task wait found) : Follows p region zone (.ok task) wait
  | refused (e : Fault) : Follows p region zone (.error e) []

namespace UndoStep

/-- A deletion goes wrong where the request is refused, unless because there is no such machine, and
where the wait for its task does not end with the exit status `OK`. -/
def DeletionFails (region zone : String) : Except Fault TaskId → Trace → Prop
  | .ok task, wait => ¬ Task.Awaited region zone task wait
  | .error e, _ => e.isNotFound = false

/-- The calls of one step, and what comes of it. Only a machine that is not there is not deleted
after the request to stop it, and nothing but its deletion makes its removal fail. -/
inductive Attempted (p : Patience) (region : String) :
    UndoStep → Trace → Except Fault Unit → Prop where
  | released {place zone : String} {granted : Reservation} (r : Except Fault Unit) :
      Attempted p region (.releaseCapacity place zone granted)
        [⟨.capacity (.release place zone granted), r⟩] r
  | absent {zone : String} {machine : MachineId} {e : Fault} (h : e.isNotFound = true) :
      Attempted p region (.deleteMachine zone machine)
        [⟨.hypervisor region (.stop zone machine), .error e⟩] (.ok ())
  | removed {zone : String} {machine : MachineId} {stopped deleted : Except Fault TaskId}
      {stopping deleting : Trace} {r : Except Fault Unit}
      (hstopped : ∀ e, stopped = .error e → e.isNotFound = false)
      (hstopping : Task.Follows p region zone stopped stopping)
      (hdeleting : Task.Follows p region zone deleted deleting)
      (hfailed : r ≠ .ok () ↔ DeletionFails region zone deleted deleting) :
      Attempted p region (.deleteMachine zone machine)
        (⟨.hypervisor region (.stop zone machine), stopped⟩ ::
          (stopping ++ ⟨.hypervisor region (.delete zone machine), deleted⟩ :: deleting)) r
  | revoked {token : String} (r : Except Fault Unit) :
      Attempted p region (.revokeToken token) [⟨.bootstrap (.revokeToken token), r⟩] r

structure Attempt where
  trace : Trace
  result : Except Fault Unit

def Attempt.failed (a : Attempt) : Bool := !a.result.isOk

variable {p : Patience} {region : String}

theorem deleteNow_attempts (zone : String) (machine : MachineId) :
    (deleteNow p region zone machine).Ensures fun t r => ∃ deleted deleting,
      t = ⟨.hypervisor region (.delete zone machine), deleted⟩ :: deleting ∧
        Task.Follows p region zone deleted deleting ∧
        (r ≠ .ok () ↔ DeletionFails region zone deleted deleting) := by
  unfold deleteNow
  refine (Job.ensures_bind _ _ _).2 ((Job.ensures_attempt _ _).2
    ((Hypervisor.ensures_send _ _ _).2 fun deleted => ?_))
  cases deleted with
  | ok task =>
    refine Task.succeed_watched.mono ?_
    rintro wait r ⟨found, hwatched, hok⟩
    have hfailed := not_congr (hok.trans hwatched.awaited_iff.symm)
    exact ⟨.ok task, wait, rfl, .waited hwatched, hfailed⟩
  | error e =>
    dsimp only
    split
    · next h =>
      refine (Job.ensures_pure _ _).2 ⟨.error e, [], rfl, .refused e, ?_⟩
      simp [DeletionFails, h]
    · next h =>
      refine (Job.ensures_fail _ _).2 ⟨.error e, [], rfl, .refused e, ?_⟩
      simpa [DeletionFails] using h

theorem removeMachine_attempts (zone : String) (machine : MachineId) :
    (removeMachine p region zone machine).Ensures
      (Attempted p region (.deleteMachine zone machine)) := by
  unfold removeMachine
  refine (Job.ensures_bind _ _ _).2 ((Job.ensures_attempt _ _).2
    ((Hypervisor.ensures_send _ _ _).2 fun stopped => ?_))
  cases stopped with
  | ok task =>
    refine (Job.ensures_bind _ _ _).2 ((Job.ensures_lift _ _).2 ?_)
    refine (Plan.ensures_bind _ _ _).2 (Plan.Ensures.mono Task.succeed_watched ?_)
    rintro stopping _ ⟨found, hwatched, -⟩
    refine (Plan.ensures_pure _ _).2 ((deleteNow_attempts zone machine).mono ?_)
    rintro _ r ⟨deleted, deleting, rfl, hdeleting, hfailed⟩
    rw [List.append_nil]
    exact .removed nofun (.waited hwatched) hdeleting hfailed
  | error e =>
    dsimp only
    split
    · next h => exact (Job.ensures_pure _ _).2 (.absent h)
    · next h =>
      refine (deleteNow_attempts zone machine).mono ?_
      rintro _ r ⟨deleted, deleting, rfl, hdeleting, hfailed⟩
      refine .removed ?_ (.refused e) hdeleting hfailed
      rintro _ ⟨⟩
      simpa using h

theorem run_attempts (step : UndoStep) : (step.run p region).Ensures (Attempted p region step) := by
  cases step with
  | releaseCapacity place zone granted => exact (Capacity.ensures_send _ _).2 fun r => .released r
  | deleteMachine zone machine => exact removeMachine_attempts zone machine
  | revokeToken token => exact (Bootstrap.ensures_send _ _).2 fun r => .revoked r

theorem runAll_attempts (steps : List UndoStep) : (runAll p region steps).Ensures fun t failed =>
    ∃ attempts : List Attempt,
      List.Forall₂ (fun step a => Attempted p region step a.trace a.result) steps attempts ∧
        t = attempts.flatMap (·.trace) ∧ failed = attempts.countP Attempt.failed := by
  induction steps with
  | nil => exact (Plan.ensures_pure _ _).2 ⟨[], .nil, rfl, rfl⟩
  | cons step rest ih =>
    unfold runAll
    refine (Plan.ensures_bind _ _ _).2 (Plan.Ensures.mono (run_attempts step) fun t r hstep => ?_)
    refine (Plan.ensures_bind _ _ _).2 (ih.mono ?_)
    rintro _ _ ⟨attempts, hattempts, rfl, rfl⟩
    refine (Plan.ensures_pure _ _).2 ⟨⟨t, r⟩ :: attempts, .cons hstep hattempts, by simp, ?_⟩
    cases r <;> simp [Attempt.failed, Except.isOk, Except.toBool, Nat.add_comm]

/-! ### Removals of machines -/

section removal
variable {zone : String} {machine : MachineId} {t : Trace} {r : Except Fault Unit}

section follows
variable {answer : Except Fault TaskId} {wait : Trace} (h : Task.Follows p region zone answer wait)
include h

theorem not_mem_of_follows (q : Hypervisor.Request) (hq : ∀ task, q ≠ .taskStatus zone task)
    (reply : Except Fault q.Answer) : (⟨.hypervisor region q, reply⟩ : Event) ∉ wait := by
  cases h with
  | @waited task _ _ hwait =>
    intro hmem
    have hwaits := hwait.waits _ hmem
    exact hq task (by simpa [Call.Waits] using hwaits)
  | refused => exact List.not_mem_nil

theorem stop_not_mem_of_follows (machine : MachineId) (reply : Except Fault TaskId) :
    (⟨.hypervisor region (.stop zone machine), reply⟩ : Event) ∉ wait :=
  not_mem_of_follows h (.stop zone machine) (fun _ => nofun) reply

theorem delete_not_mem_of_follows (machine : MachineId) (reply : Except Fault TaskId) :
    (⟨.hypervisor region (.delete zone machine), reply⟩ : Event) ∉ wait :=
  not_mem_of_follows h (.delete zone machine) (fun _ => nofun) reply

end follows

/-- The deletion is asked for unless the request to stop the machine was answered that there is
none. -/
theorem Attempted.deletes_iff (h : Attempted p region (.deleteMachine zone machine) t r) :
    (∃ answer, ⟨.hypervisor region (.delete zone machine), answer⟩ ∈ t) ↔
      ∀ e, ⟨.hypervisor region (.stop zone machine), .error e⟩ ∈ t → e.isNotFound = false := by
  cases h with
  | absent h => simp [h]
  | @removed _ _ stopped deleted stopping deleting _ hstopped hstopping hdeleting =>
    refine iff_of_true ⟨deleted, by simp⟩ fun e he => ?_
    have hfirst : Except.error e = stopped := by
      simpa [stop_not_mem_of_follows hstopping, stop_not_mem_of_follows hdeleting] using he
    exact hstopped e hfirst.symm

theorem Attempted.fails_iff (h : Attempted p region (.deleteMachine zone machine) t r) :
    r ≠ .ok () ↔ ∃ before answer wait,
      t = before ++ ⟨.hypervisor region (.delete zone machine), answer⟩ :: wait ∧
        DeletionFails region zone answer wait := by
  cases h with
  | absent h => simp [List.singleton_eq_append_iff]
  | @removed _ _ stopped deleted stopping deleting _ hstopped hstopping hdeleting hfailed =>
    rw [hfailed]
    constructor
    · intro hfails
      exact ⟨⟨.hypervisor region (.stop zone machine), stopped⟩ :: stopping, deleted, deleting,
        by simp, hfails⟩
    · rintro ⟨before, answer, wait, heq, hfails⟩
      -- The deletion is asked for once, so that this is where the trace falls apart.
      have hbefore : (⟨.hypervisor region (.delete zone machine), answer⟩ : Event) ∉
          ⟨.hypervisor region (.stop zone machine), stopped⟩ :: stopping := by
        simp [delete_not_mem_of_follows hstopping]
      have hwait := delete_not_mem_of_follows hdeleting machine answer
      obtain ⟨-, hdelete, rfl⟩ := (List.append_cons_inj_of_notMem hbefore hwait).1 heq
      cases hdelete
      exact hfails

end removal
end UndoStep

/-- Whatever is answered, every recorded step is attempted once, the last one first, and the steps
that have failed are counted. The removal of a machine asks for its deletion unless there is no such
machine to stop, and fails only by a deletion that goes wrong. -/
theorem UndoStack.unwind_attempts (p : Patience) (region : String) :
    (∀ (stack : UndoStack) (answer : Trace → (c : Call) → c.Reply),
      let run := (stack.unwind p region).play answer []
      ∃ attempts : List UndoStep.Attempt,
        List.Forall₂ (fun step a => UndoStep.Attempted p region step a.trace a.result)
          stack.steps.reverse attempts ∧
        run.1 = attempts.flatMap (·.trace) ∧ run.2 = attempts.countP UndoStep.Attempt.failed) ∧
    ∀ (zone : String) (machine : MachineId) (t : Trace) (r : Except Fault Unit),
      UndoStep.Attempted p region (.deleteMachine zone machine) t r →
        ((∃ answer, ⟨.hypervisor region (.delete zone machine), answer⟩ ∈ t) ↔
          ∀ e, ⟨.hypervisor region (.stop zone machine), .error e⟩ ∈ t → e.isNotFound = false) ∧
        (r ≠ .ok () ↔ ∃ before answer wait,
          t = before ++ ⟨.hypervisor region (.delete zone machine), answer⟩ :: wait ∧
            UndoStep.DeletionFails region zone answer wait) := by
  refine ⟨fun stack answer => ?_, fun zone machine t r h => ⟨h.deletes_iff, h.fails_iff⟩⟩
  exact UndoStep.runAll_attempts _ _ _ (Plan.yields_play answer [] _)

def leftMachine : UndoStack := ⟨[.deleteMachine "z1" 1000]⟩

/-- The machine refuses to stop, and its deletion takes until after the first pause. -/
def deletedLater (past : Trace) : (c : Call) → c.Reply
  | .hypervisor _ (.stop _ _) => .error (.transient "stop" "refused")
  | .hypervisor _ (.taskStatus _ _) =>
    .ok (if past.clock = 0 then { running := true } else { exit := some "OK" })
  | c => c.grant

/-- A deletion whose task ends with the exit status `OK` is not counted as failed. -/
theorem UndoStack.unwind_attempts_deletedLater :
    let run := (leftMachine.unwind {} "r1").play deletedLater []
    run.1.calls = [.hypervisor "r1" (.stop "z1" 1000), .hypervisor "r1" (.delete "z1" 1000),
      .hypervisor "r1" (.taskStatus "z1" "delete"), .circumstance .jitter,
      .circumstance (.pause 1000000000 false), .hypervisor "r1" (.taskStatus "z1" "delete")] ∧
    run.1.getLast?.bind Event.stopped? = some { exit := some "OK" } ∧ run.2 = 0 ∧
    ∃ a : UndoStep.Attempt, run.1 = a.trace ∧ a.failed = false ∧
      UndoStep.Attempted {} "r1" (.deleteMachine "z1" 1000) a.trace a.result ∧
      ∀ before answer wait, a.trace = before ++
        ⟨.hypervisor "r1" (.delete "z1" 1000), answer⟩ :: wait →
          ¬ UndoStep.DeletionFails "r1" "z1" answer wait := by
  intro run
  obtain ⟨hattempts, hremoval⟩ := unwind_attempts {} "r1"
  obtain ⟨attempts, hsteps, htrace, hcount⟩ := hattempts leftMachine deletedLater
  have hnone : run.2 = 0 := by decide +kernel
  obtain ⟨a, hattempted, rfl⟩ : ∃ a : UndoStep.Attempt,
      UndoStep.Attempted {} "r1" (.deleteMachine "z1" 1000) a.trace a.result ∧ attempts = [a] := by
    cases hsteps with
    | cons hattempted hrest =>
      cases hrest
      exact ⟨_, hattempted, rfl⟩
  have hfailed : a.failed = false := by
    have hzero : [a].countP UndoStep.Attempt.failed = 0 := hcount.symm.trans hnone
    simpa using hzero
  have hok : a.result = .ok () := by
    cases hresult : a.result with
    | ok => rfl
    | error e => simp [UndoStep.Attempt.failed, hresult, Except.isOk, Except.toBool] at hfailed
  refine ⟨by decide +kernel, by decide +kernel, hnone, a, by simpa using htrace, hfailed,
    hattempted, fun before answer wait heq hfails => ?_⟩
  exact (hremoval _ _ _ _ hattempted).2.2 ⟨before, answer, wait, heq, hfails⟩ hok

end NodeProvisioner
