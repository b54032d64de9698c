import NodeProvisioner.Launch.Provision
import NodeProvisioner.Proofs.Calls

/-! The undo steps of a launch against its trace. Whatever is taken along the way is recorded at
once and in order, so the stack is a function of the trace at every moment. -/
namespace NodeProvisioner

def Event.undo? : Event → Option UndoStep
  | ⟨.capacity (.allocate region zone _), .ok granted⟩ =>
    some (.releaseCapacity region zone granted)
  | ⟨.hypervisor _ (.clone q), .ok _⟩ => some (.deleteMachine q.targetZone q.machine)
  | ⟨.bootstrap (.issueToken _ _), .ok token⟩ => some (.revokeToken token.id)
  | _ => none

namespace Call

/-- May bring about something that has to be undone. -/
def isTaking : Call → Bool
  | .capacity (.allocate _ _ _) => true
  | .hypervisor _ (.clone _) => true
  | .bootstrap (.issueToken _ _) => true
  | _ => false

/-- Undoes something, or prepares for it. -/
def isUndoing : Call → Bool
  | .capacity (.release _ _ _) => true
  | .hypervisor _ (.stop _ _) => true
  | .hypervisor _ (.delete _ _) => true
  | .bootstrap (.revokeToken _) => true
  | _ => false

def isClaiming : Call → Bool
  | .memory (.claimId _ _) => true
  | _ => false

def StaysIn (region : String) : Call → Prop
  | .hypervisor r _ => r = region
  | _ => True

/-- Undoes nothing, and sets no machine id apart. -/
structure Forward (region : String) (c : Call) : Prop where
  notUndoing : c.isUndoing = false
  notClaiming : c.isClaiming = false
  staysIn : c.StaysIn region

structure Quiet (region : String) (c : Call) : Prop extends Forward region c where
  notTaking : c.isTaking = false

end Call

namespace Trace

/-- What has to be undone after the trace, in the order in which it came about. -/
def taken (t : Trace) : List UndoStep := t.filterMap Event.undo?

@[simp] theorem taken_append (t t' : Trace) : taken (t ++ t') = taken t ++ taken t' :=
  List.filterMap_append

theorem undo?_eq_none {e : Event} (h : e.call.isTaking = false) : e.undo? = none := by
  unfold Event.undo?
  split <;> simp_all [Call.isTaking]

theorem taken_eq_nil {t : Trace} (h : ∀ e ∈ t, e.call.isTaking = false) : taken t = [] :=
  List.filterMap_eq_nil_iff.2 fun e he => undo?_eq_none (h e he)

end Trace

/-- The job takes what `step` undoes if it succeeds, and nothing if it fails. -/
def Job.Takes {α : Type} (region : String) (j : Job α) (step : α → UndoStep) : Prop :=
  j.Ensures fun t r =>
    (t.taken = match r with | .ok a => [step a] | .error _ => []) ∧
      ∀ e ∈ t, e.call.Forward region

namespace Undoable
variable {α β : Type}

/-- Whatever the replies are, the stack grows by what is to be undone, which is within the bound,
and nothing is undone. -/
def Records (region : String) (bound : List UndoStep → Prop) (u : Undoable α) : Prop :=
  ∀ stack, (u.run stack).Ensures fun t r =>
    r.2.steps = stack.steps ++ t.taken ∧ bound t.taken ∧ ∀ e ∈ t, e.call.Forward region

theorem run_bind (u : Undoable α) (f : α → Undoable β) (stack : UndoStack) :
    (u >>= f).run stack = u.run stack >>= fun r =>
      match r with
      | (.ok a, stack) => (f a).run stack
      | (.error e, stack) => .done (.error e, stack) := rfl

theorem run_lift (j : Job α) (stack : UndoStack) :
    (liftM j : Undoable α).run stack = (·, stack) <$> j.run := rfl

section records
variable {region : String} {bound : List UndoStep → Prop}

theorem records_pure (hnil : bound []) (a : α) : (pure a : Undoable α).Records region bound := by
  intro stack
  refine (Plan.ensures_done _ _).2 ?_
  simpa [Trace.taken] using hnil

theorem Records.bind {first next : List UndoStep → Prop} {u : Undoable α} {f : α → Undoable β}
    (h : u.Records region first) (h' : ∀ a, (f a).Records region next)
    (hleft : ∀ xs, first xs → bound xs)
    (happend : ∀ xs ys, first xs → next ys → bound (xs ++ ys)) :
    (u >>= f).Records region bound := by
  intro stack
  rw [run_bind, Plan.ensures_bind]
  refine (h stack).mono fun t r ⟨hsteps, hbound, hcalls⟩ => ?_
  obtain ⟨r | a, between⟩ := r
  · simpa only [Plan.ensures_done, List.append_nil] using ⟨hsteps, hleft _ hbound, hcalls⟩
  · refine (h' a between).mono fun t' r' ⟨hsteps', hbound', hcalls'⟩ => ⟨?_, ?_, ?_⟩
    · rw [hsteps', hsteps, Trace.taken_append, List.append_assoc]
    · rw [Trace.taken_append]
      exact happend _ _ hbound hbound'
    · exact List.forall_mem_append.2 ⟨hcalls, hcalls'⟩

theorem records_lift {j : Job α} (h : j.Only (Call.Quiet region)) :
    (liftM j : Undoable α).Records region (· = []) := by
  intro stack
  rw [run_lift, Plan.ensures_map]
  refine Plan.Ensures.mono h fun t r ht => ?_
  have htaken : t.taken = [] := Trace.taken_eq_nil fun e he => (ht e he).notTaking
  exact ⟨by rw [htaken, List.append_nil], htaken, fun e he => (ht e he).toForward⟩

theorem Records.after_lift {j : Job α} {f : α → Undoable β} (h : j.Only (Call.Quiet region))
    (hnil : bound []) (h' : ∀ a, (f a).Records region bound) :
    (liftM j >>= f).Records region bound := by
  refine (records_lift h).bind h' ?_ ?_
  · rintro _ rfl
    exact hnil
  · rintro _ ys rfl hys
    exact hys

theorem Records.take {j : Job α} {step : α → UndoStep} {f : α → Undoable β}
    {rest : List UndoStep → Prop} (h : j.Takes region step) (hnil : bound [])
    (h' : ∀ a, (f a).Records region rest) (hcons : ∀ a xs, rest xs → bound (step a :: xs)) :
    (liftM j >>= fun a => Undoable.record (step a) >>= fun _ => f a).Records region bound := by
  intro stack
  rw [run_bind, run_lift, Plan.ensures_bind, Plan.ensures_map]
  refine Plan.Ensures.mono h fun t r ⟨htaken, hcalls⟩ => ?_
  cases r with
  | error e =>
    refine (Plan.ensures_done _ _).2 ?_
    simpa [htaken] using ⟨hnil, hcalls⟩
  | ok a =>
    -- The step is on the stack before the next call that may fail.
    refine (h' a (stack.push (step a))).mono fun t' r' ⟨hsteps', hrest, hcalls'⟩ => ⟨?_, ?_, ?_⟩
    · rw [hsteps', Trace.taken_append, htaken, ← List.append_assoc]
      rfl
    · rw [Trace.taken_append, htaken]
      exact hcons a _ hrest
    · exact List.forall_mem_append.2 ⟨hcalls, hcalls'⟩

end records
end Undoable

variable {region : String}

theorem Capacity.allocate_takes (place zone : String) (wanted : Reservation) :
    (Capacity.send (.allocate place zone wanted)).Takes region (.releaseCapacity place zone) := by
  refine (Capacity.ensures_send _ _).2 fun r => ⟨by cases r <;> rfl, fun e he => ?_⟩
  obtain rfl := List.mem_singleton.1 he
  exact ⟨rfl, rfl, trivial⟩

theorem Hypervisor.clone_takes (q : CloneRequest) :
    (Hypervisor.send region (.clone q)).Takes region
      fun _ => .deleteMachine q.targetZone q.machine := by
  refine (Hypervisor.ensures_send _ _ _).2 fun r => ⟨by cases r <;> rfl, fun e he => ?_⟩
  obtain rfl := List.mem_singleton.1 he
  exact ⟨rfl, rfl, rfl⟩

theorem Bootstrap.issueToken_takes (claim : String) (secs : UInt64) :
    (Bootstrap.send (.issueToken claim secs)).Takes region fun token => .revokeToken token.id := by
  refine (Bootstrap.ensures_send _ _).2 fun r => ⟨by cases r <;> rfl, fun e he => ?_⟩
  obtain rfl := List.mem_singleton.1 he
  exact ⟨rfl, rfl, trivial⟩

namespace Candidate

open Undoable (Records records_pure)

variable (settings : Settings) (c : Candidate) (t : TemplateEntry) (machine : MachineId)

theorem succeed_quiet {p : Patience} {heeds : Bool} {zone : String} {task : TaskId} :
    (Task.succeed p heeds region zone task).Only (Call.Quiet region) :=
  Task.succeed_only ⟨⟨rfl, rfl, rfl⟩, rfl⟩ ⟨⟨rfl, rfl, trivial⟩, rfl⟩
    fun _ => ⟨⟨rfl, rfl, trivial⟩, rfl⟩

theorem shapeClone_quiet (granted : Reservation) (clone : Machine) :
    (shapeClone settings c t machine granted clone).Only (Call.Quiet c.region) :=
  shapeClone_only ⟨⟨rfl, rfl, rfl⟩, rfl⟩ (fun _ _ _ _ => ⟨⟨rfl, rfl, rfl⟩, rfl⟩)
    (Networking.configure_only ⟨⟨rfl, rfl, trivial⟩, rfl⟩
      (fun _ _ => ⟨⟨rfl, rfl, trivial⟩, rfl⟩) (fun _ _ => ⟨⟨rfl, rfl, rfl⟩, rfl⟩)
      ⟨⟨rfl, rfl, rfl⟩, rfl⟩)
    fun _ => ⟨⟨rfl, rfl, rfl⟩, rfl⟩

theorem succeed_records {α : Type} {p : Patience} {heeds : Bool} {zone : String} {task : TaskId}
    (a : α) : (do
      Task.succeed p heeds region zone task
      return a : Undoable α).Records region (· = []) := by
  refine Records.after_lift succeed_quiet rfl fun _ => ?_
  exact records_pure (by rfl) a

theorem cloneTemplate_records :
    (cloneTemplate settings c t machine).Records c.region fun xs =>
      ∃ granted, xs.Sublist [.releaseCapacity c.region c.zone granted,
        .deleteMachine c.zone machine] := by
  have clone (granted : Reservation) : (do
      let task ← Hypervisor.send c.region (.clone (c.cloneRequest t machine))
      Undoable.record (.deleteMachine c.zone machine)
      Task.succeed settings.taskPatience true c.region t.zone task
      return granted : Undoable Reservation).Records c.region
        fun xs => xs.Sublist [.deleteMachine c.zone machine] := by
    refine Records.take (Hypervisor.clone_takes _) (List.nil_sublist _)
      (fun task => succeed_records granted) ?_
    rintro _ _ rfl
    exact List.Sublist.refl _
  exact Records.take (Capacity.allocate_takes _ _ _) ⟨default, List.nil_sublist _⟩ clone
    fun granted xs hxs => ⟨granted, hxs.cons_cons _⟩

theorem deliverDocuments_records (clone : Machine) (views : List GuestInterface) :
    (deliverDocuments settings c t machine clone views).Records c.region fun xs =>
      ∃ token, xs.Sublist [.revokeToken token] := by
  have deliver (token : JoinToken) : (do
      let node := c.claim.launched (c.facts t machine clone (some token.id))
      let ca ← Bootstrap.send .clusterCa
      let values := CloudInit.values node c.cls c.shape settings.clusterName ca token views
      let documents ← Bootstrap.send (.render values)
      Hypervisor.send c.region (.attachDocuments c.zone machine settings.isoStorage documents)
      return node : Undoable NodeClaim).Records c.region (· = []) := by
    refine Records.after_lift (Bootstrap.only_send ⟨⟨rfl, rfl, trivial⟩, rfl⟩) rfl fun ca => ?_
    refine Records.after_lift (Bootstrap.only_send ⟨⟨rfl, rfl, trivial⟩, rfl⟩) rfl
      fun documents => ?_
    refine Records.after_lift (Hypervisor.only_send ⟨⟨rfl, rfl, rfl⟩, rfl⟩) rfl fun _ => ?_
    exact records_pure (by rfl) _
  refine Records.take (Bootstrap.issueToken_takes _ _) ⟨"", List.nil_sublist _⟩ deliver ?_
  rintro token _ rfl
  exact ⟨token.id, List.Sublist.refl _⟩

theorem describe_records (clone : Machine) (views : List GuestInterface) :
    (describe settings c t machine clone views).Records c.region fun xs =>
      ∃ token, xs.Sublist [.revokeToken token] := by
  unfold describe
  split
  · exact records_pure ⟨"", List.nil_sublist _⟩ _
  · exact deliverDocuments_records settings c t machine clone views

/-- What a launch may have to undo, in the order in which it comes about. -/
def Undoes (xs : List UndoStep) : Prop :=
  ∃ granted token, xs.Sublist [.releaseCapacity c.region c.zone granted,
    .deleteMachine c.zone machine, .revokeToken token]

/-- At every moment of a launch the stack holds exactly what has to be undone. -/
theorem provision_records :
    (provision settings c t machine).Records c.region (c.Undoes machine) := by
  have start (node : NodeClaim) : (do
      let task ← Hypervisor.send c.region (.start c.zone machine)
      Task.succeed settings.taskPatience true c.region c.zone task
      return node : Undoable NodeClaim).Records c.region (· = []) :=
    Records.after_lift (Hypervisor.only_send ⟨⟨rfl, rfl, rfl⟩, rfl⟩) rfl
      fun task => succeed_records node
  have finish (granted : Reservation) : (do
      let clone ← Hypervisor.send c.region (.readMachine c.zone machine)
      let views ← shapeClone settings c t machine granted clone
      let node ← describe settings c t machine clone views
      let task ← Hypervisor.send c.region (.start c.zone machine)
      Task.succeed settings.taskPatience true c.region c.zone task
      return node : Undoable NodeClaim).Records c.region fun xs =>
        ∃ token, xs.Sublist [.revokeToken token] := by
    refine Records.after_lift (Hypervisor.only_send ⟨⟨rfl, rfl, rfl⟩, rfl⟩)
      ⟨"", List.nil_sublist _⟩ fun clone => ?_
    refine Records.after_lift (shapeClone_quiet settings c t machine granted clone)
      ⟨"", List.nil_sublist _⟩ fun views => ?_
    refine (describe_records settings c t machine clone views).bind start (fun _ h => h) ?_
    rintro xs _ h rfl
    rwa [List.append_nil]
  refine (cloneTemplate_records settings c t machine).bind finish ?_ ?_
  · rintro xs ⟨granted, h⟩
    exact ⟨granted, "", h.trans (List.sublist_append_left _ [_])⟩
  · rintro xs ys ⟨granted, hxs⟩ ⟨token, hys⟩
    exact ⟨granted, token, hxs.append hys⟩

end Candidate
end NodeProvisioner
