import Mathlib.Data.List.Basic
import NodeProvisioner.Proofs.Launch.Recording

/-! Taking steps back against the trace of it: every step makes its calls, in turn, whatever the
replies to earlier ones were, and nothing that is taken back is taken anew. -/
namespace NodeProvisioner

namespace Event

def grant? : Event → Option (String × String × Reservation)
  | ⟨.capacity (.allocate region zone _), .ok granted⟩ => some (region, zone, granted)
  | _ => none

def release? : Event → Option (String × String × Reservation)
  | ⟨.capacity (.release region zone granted), _⟩ => some (region, zone, granted)
  | _ => none

def clone? : Event → Option (String × String × MachineId)
  | ⟨.hypervisor region (.clone q), .ok _⟩ => some (region, q.targetZone, q.machine)
  | _ => none

def stop? : Event → Option (String × String × MachineId)
  | ⟨.hypervisor region (.stop zone machine), _⟩ => some (region, zone, machine)
  | _ => none

def standing? : Event → Option (String × String × MachineId)
  | ⟨.hypervisor region (.stop zone machine), .ok _⟩ => some (region, zone, machine)
  | ⟨.hypervisor region (.stop zone machine), .error e⟩ =>
    if e.isNotFound then none else some (region, zone, machine)
  | _ => none

def deletion? : Event → Option (String × String × MachineId)
  | ⟨.hypervisor region (.delete zone machine), _⟩ => some (region, zone, machine)
  | _ => none

def issue? : Event → Option String
  | ⟨.bootstrap (.issueToken _ _), .ok token⟩ => some token.id
  | _ => none

def revocation? : Event → Option String
  | ⟨.bootstrap (.revokeToken token), _⟩ => some token
  | _ => none

def newId? : Event → Option (String × MachineId)
  | ⟨.memory (.claimId region id), true⟩ => some (region, id)
  | _ => none

end Event

namespace UndoStep

def reservation? : UndoStep → Option (String × String × Reservation)
  | releaseCapacity region zone granted => some (region, zone, granted)
  | _ => none

def machine? (region : String) : UndoStep → Option (String × String × MachineId)
  | deleteMachine zone machine => some (region, zone, machine)
  | _ => none

def token? : UndoStep → Option String
  | revokeToken token => some token
  | _ => none

/-- The calls of one step. Only a machine that is not there is not deleted after the request to
stop it. -/
inductive Tried (region : String) : UndoStep → Trace → Prop where
  | released {place zone : String} {granted : Reservation} (r : Except Fault Unit) :
      Tried region (.releaseCapacity place zone granted)
        [⟨.capacity (.release place zone granted), r⟩]
  | absent {zone : String} {machine : MachineId} {e : Fault} (h : e.isNotFound = true) :
      Tried region (.deleteMachine zone machine)
        [⟨.hypervisor region (.stop zone machine), .error e⟩]
  | deleted {zone : String} {machine : MachineId} {stopped : Except Fault TaskId}
      (h : ∀ e, stopped = .error e → e.isNotFound = false) (r : Except Fault TaskId) :
      Tried region (.deleteMachine zone machine)
        [⟨.hypervisor region (.stop zone machine), stopped⟩,
          ⟨.hypervisor region (.delete zone machine), r⟩]
  | revoked {token : String} (r : Except Fault Unit) :
      Tried region (.revokeToken token) [⟨.bootstrap (.revokeToken token), r⟩]

inductive TriedAll (region : String) : List UndoStep → Trace → Prop where
  | nil : TriedAll region [] []
  | cons {step : UndoStep} {rest : List UndoStep} {t t' : Trace} (h : step.Tried region t)
      (hrest : TriedAll region rest t') : TriedAll region (step :: rest) (t ++ t')

end UndoStep

namespace Call

def heedsCaller : Call → Bool
  | .circumstance (.pause _ heeds) => heeds
  | .circumstance .cancelled => true
  | _ => false

structure Backward (c : Call) : Prop where
  notTaking : c.isTaking = false
  notClaiming : c.isClaiming = false
  notHeeding : c.heedsCaller = false

structure Idle (c : Call) : Prop extends Backward c where
  notUndoing : c.isUndoing = false

end Call

namespace Trace

def undoing (t : Trace) : Trace := t.filter (·.call.isUndoing)

def grants (t : Trace) : List (String × String × Reservation) := t.filterMap Event.grant?

def releases (t : Trace) : List (String × String × Reservation) := t.filterMap Event.release?

def clones (t : Trace) : List (String × String × MachineId) := t.filterMap Event.clone?

def stops (t : Trace) : List (String × String × MachineId) := t.filterMap Event.stop?

def standing (t : Trace) : List (String × String × MachineId) := t.filterMap Event.standing?

def deletions (t : Trace) : List (String × String × MachineId) := t.filterMap Event.deletion?

def issues (t : Trace) : List String := t.filterMap Event.issue?

def revocations (t : Trace) : List String := t.filterMap Event.revocation?

def newIds (t : Trace) : List (String × MachineId) := t.filterMap Event.newId?

@[simp] theorem undoing_append (t t' : Trace) : undoing (t ++ t') = undoing t ++ undoing t' :=
  List.filter_append _ _

theorem undoing_eq_nil {t : Trace} (h : ∀ e ∈ t, e.call.isUndoing = false) : undoing t = [] :=
  List.filter_eq_nil_iff.2 fun e he => by simp [h e he]

theorem filterMap_undoing {β : Type} {f : Event → Option β}
    (h : ∀ e, e.call.isUndoing = false → f e = none) (t : Trace) :
    t.undoing.filterMap f = t.filterMap f := by
  unfold undoing
  rw [List.filterMap_filter]
  apply List.filterMap_congr
  intro e _
  cases hcall : e.call.isUndoing with
  | true => rfl
  | false => exact (h e hcall).symm

end Trace

/-- Whatever the replies are, the undoing calls of the job are as told, and none of its calls takes
anything or heeds the caller. -/
def Job.Undoes {α : Type} (told : Trace → Prop) (j : Job α) : Prop :=
  j.Ensures fun t _ => told t.undoing ∧ ∀ e ∈ t, e.call.Backward

namespace Job
variable {α β : Type} {told : Trace → Prop}

theorem undoes_nothing {j : Job α} (h : j.Only Call.Idle) : j.Undoes (· = []) :=
  Plan.Ensures.mono h fun _ _ ht => ⟨Trace.undoing_eq_nil fun e he => (ht e he).notUndoing,
    fun e he => (ht e he).toBackward⟩

theorem Undoes.mono {told' : Trace → Prop} {j : Job α} (h : j.Undoes told)
    (himp : ∀ t, told t → told' t) : j.Undoes told' :=
  Ensures.mono h fun _ _ ht => ht.imp_left (himp _)

theorem Undoes.after_lift {p : Plan α} {f : α → Job β} (h : p.Only Call.Idle)
    (h' : ∀ a, (f a).Undoes told) : (liftM p >>= f).Undoes told := by
  refine (ensures_bind _ _ _).2 ((ensures_lift _ _).2 (Plan.Ensures.mono h fun t a ht => ?_))
  refine Ensures.mono (h' a) fun t' _ ⟨htold, hcalls⟩ => ⟨?_, ?_⟩
  · rwa [Trace.undoing_append, Trace.undoing_eq_nil fun e he => (ht e he).notUndoing]
  · exact List.forall_mem_append.2 ⟨fun e he => (ht e he).toBackward, hcalls⟩

theorem Undoes.attempt {region : String} {q : Hypervisor.Request}
    {f : Except Fault q.Answer → Job β} (hundoing : (Call.hypervisor region q).isUndoing = true)
    (hcall : (Call.hypervisor region q).Backward)
    (h : ∀ r, (f r).Undoes fun t => told (⟨.hypervisor region q, r⟩ :: t)) :
    ((Hypervisor.send region q).attempt >>= f).Undoes told := by
  refine (ensures_bind _ _ _).2 ((ensures_attempt _ _).2
    ((Hypervisor.ensures_send _ _ _).2 fun r => ?_))
  refine Ensures.mono (h r) fun t _ ⟨htold, hcalls⟩ => ⟨?_, ?_⟩
  · simpa only [Trace.undoing, List.singleton_append, List.filter_cons_of_pos, hundoing] using htold
  · exact List.forall_mem_cons.2 ⟨hcall, hcalls⟩

end Job

namespace UndoStep
variable {p : Patience} {region : String}

theorem succeed_idle {zone : String} {task : TaskId} :
    (Task.succeed p false region zone task).Only Call.Idle :=
  Task.succeed_only ⟨⟨rfl, rfl, rfl⟩, rfl⟩ ⟨⟨rfl, rfl, rfl⟩, rfl⟩ fun _ => ⟨⟨rfl, rfl, rfl⟩, rfl⟩

theorem deleteNow_undoes (zone : String) (machine : MachineId) :
    (deleteNow p region zone machine).Undoes fun t =>
      ∃ r, t = [⟨.hypervisor region (.delete zone machine), r⟩] := by
  apply Job.Undoes.attempt rfl ⟨rfl, rfl, rfl⟩
  intro r
  have last {j : Job Unit} (h : j.Only Call.Idle) : j.Undoes fun t =>
      ∃ r', (⟨.hypervisor region (.delete zone machine), r⟩ : Event) :: t =
        [⟨.hypervisor region (.delete zone machine), r'⟩] := by
    refine (Job.undoes_nothing h).mono ?_
    rintro _ rfl
    exact ⟨r, rfl⟩
  cases r with
  | ok task => exact last succeed_idle
  | error e =>
    dsimp only
    split
    · exact last (Job.only_pure ())
    · exact last (Job.only_fail e)

theorem removeMachine_undoes (zone : String) (machine : MachineId) :
    (removeMachine p region zone machine).Undoes (Tried region (.deleteMachine zone machine)) := by
  apply Job.Undoes.attempt rfl ⟨rfl, rfl, rfl⟩
  intro stopped
  cases stopped with
  | ok task =>
    apply Job.Undoes.after_lift (Job.Only.tolerate succeed_idle)
    intro _
    refine (deleteNow_undoes zone machine).mono ?_
    rintro _ ⟨r, rfl⟩
    exact .deleted (by simp) r
  | error e =>
    dsimp only
    split
    · next h =>
      refine (Job.undoes_nothing (Job.only_pure ())).mono ?_
      rintro _ rfl
      exact .absent h
    · next h =>
      refine (deleteNow_undoes zone machine).mono ?_
      rintro _ ⟨r, rfl⟩
      -- Any other failure to stop the machine does not keep it from being deleted.
      exact .deleted (by simpa using h) r

theorem run_undoes (step : UndoStep) : (step.run p region).Undoes (step.Tried region) := by
  cases step with
  | releaseCapacity place zone granted =>
    exact (Capacity.ensures_send _ _).2 fun r =>
      ⟨.released r, List.forall_mem_singleton.2 ⟨rfl, rfl, rfl⟩⟩
  | deleteMachine zone machine => exact removeMachine_undoes zone machine
  | revokeToken token =>
    exact (Bootstrap.ensures_send _ _).2 fun r =>
      ⟨.revoked r, List.forall_mem_singleton.2 ⟨rfl, rfl, rfl⟩⟩

theorem runAll_undoes (steps : List UndoStep) :
    (runAll p region steps).Ensures fun t _ =>
      TriedAll region steps t.undoing ∧ ∀ e ∈ t, e.call.Backward := by
  induction steps with
  | nil =>
    refine (Plan.ensures_pure _ _).2 ⟨.nil, ?_⟩
    simp
  | cons step rest ih =>
    unfold runAll
    refine (Plan.ensures_bind _ _ _).2 (Plan.Ensures.mono (run_undoes step)
      fun t r ⟨htried, hcalls⟩ => ?_)
    refine (Plan.ensures_bind _ _ _).2 (ih.mono fun t' failed ⟨htried', hcalls'⟩ => ?_)
    refine (Plan.ensures_pure _ _).2 ?_
    rw [List.append_nil, Trace.undoing_append]
    exact ⟨.cons htried htried', List.forall_mem_append.2 ⟨hcalls, hcalls'⟩⟩

theorem Tried.releases {step : UndoStep} {t : Trace} (h : step.Tried region t) :
    t.releases = [step].filterMap reservation? := by
  cases h <;> rfl

theorem Tried.stops {step : UndoStep} {t : Trace} (h : step.Tried region t) :
    t.stops = [step].filterMap (machine? region) := by
  cases h <;> rfl

theorem Tried.deletions {step : UndoStep} {t : Trace} (h : step.Tried region t) :
    t.deletions = t.standing := by
  cases h with
  | released r => rfl
  | absent h => simp [Trace.deletions, Trace.standing, Event.deletion?, Event.standing?, h]
  | @deleted zone machine stopped h r =>
    cases stopped with
    | ok task => rfl
    | error e =>
      have hstanding : Event.standing? ⟨.hypervisor region (.stop zone machine), .error e⟩ =
          some (region, zone, machine) := if_neg (by simp [h e rfl])
      simp only [Trace.deletions, Trace.standing, List.filterMap_cons, hstanding]
      rfl
  | revoked r => rfl

theorem Tried.revocations {step : UndoStep} {t : Trace} (h : step.Tried region t) :
    t.revocations = [step].filterMap token? := by
  cases h <;> rfl

theorem TriedAll.filterMap {β : Type} {f : Event → Option β} {g : UndoStep → Option β}
    (hstep : ∀ {step : UndoStep} {t : Trace}, step.Tried region t →
      t.filterMap f = [step].filterMap g) {steps : List UndoStep} {t : Trace}
    (h : TriedAll region steps t) : t.filterMap f = steps.filterMap g := by
  induction h with
  | nil => rfl
  | cons h _ ih =>
    rw [List.filterMap_append, hstep h, ih, ← List.filterMap_append, List.singleton_append]

theorem TriedAll.deletions {steps : List UndoStep} {t : Trace} (h : TriedAll region steps t) :
    t.deletions = t.standing := by
  induction h with
  | nil => rfl
  | cons h _ ih =>
    unfold Trace.deletions Trace.standing at ih ⊢
    rw [List.filterMap_append, List.filterMap_append, ih]
    exact congrArg (· ++ _) h.deletions

end UndoStep
end NodeProvisioner
