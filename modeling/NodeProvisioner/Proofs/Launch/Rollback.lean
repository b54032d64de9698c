import NodeProvisioner.Proofs.Launch.Undoing

/-! What a failed launch leaves behind: nothing. Every reservation, clone and token of its trace is
met by the call that undoes it, the last one first. -/
namespace NodeProvisioner

namespace Event

theorem grant?_eq (e : Event) : e.grant? = e.undo?.bind UndoStep.reservation? := by
  obtain ⟨c, r⟩ := e
  cases c with
  | hypervisor region q => cases q <;> cases r <;> rfl
  | capacity q => cases q <;> cases r <;> rfl
  | bootstrap q => cases q <;> cases r <;> rfl
  | _ => rfl

theorem clone?_eq {region : String} {e : Event}
    (h : e.call.isTaking = true → e.call.StaysIn region) :
    e.clone? = e.undo?.bind (UndoStep.machine? region) := by
  obtain ⟨c, r⟩ := e
  cases c with
  | hypervisor place q =>
    cases q with
    | clone q =>
      obtain rfl : place = region := h rfl
      cases r <;> rfl
    | _ => rfl
  | capacity q => cases q <;> cases r <;> rfl
  | bootstrap q => cases q <;> cases r <;> rfl
  | _ => rfl

theorem issue?_eq (e : Event) : e.issue? = e.undo?.bind UndoStep.token? := by
  obtain ⟨c, r⟩ := e
  cases c with
  | hypervisor region q => cases q <;> cases r <;> rfl
  | capacity q => cases q <;> cases r <;> rfl
  | bootstrap q => cases q <;> cases r <;> rfl
  | _ => rfl

theorem readings_of_not_undoing {e : Event} (h : e.call.isUndoing = false) :
    e.release? = none ∧ e.stop? = none ∧ e.standing? = none ∧ e.deletion? = none ∧
      e.revocation? = none := by
  obtain ⟨c, r⟩ := e
  cases c with
  | hypervisor region q =>
    cases q with
    | stop zone machine => cases h
    | delete zone machine => cases h
    | _ => exact ⟨rfl, rfl, rfl, rfl, rfl⟩
  | capacity q =>
    cases q with
    | release region zone granted => cases h
    | _ => exact ⟨rfl, rfl, rfl, rfl, rfl⟩
  | bootstrap q =>
    cases q with
    | revokeToken token => cases h
    | _ => exact ⟨rfl, rfl, rfl, rfl, rfl⟩
  | _ => exact ⟨rfl, rfl, rfl, rfl, rfl⟩

end Event

namespace Trace
variable {region : String}

@[simp] theorem newIds_append (t t' : Trace) : newIds (t ++ t') = newIds t ++ newIds t' :=
  List.filterMap_append

theorem newIds_eq_nil {t : Trace} (h : ∀ e ∈ t, e.call.isClaiming = false) : t.newIds = [] := by
  apply List.filterMap_eq_nil_iff.2
  intro e he
  have hcall := h e he
  unfold Event.newId?
  split <;> simp_all [Call.isClaiming]

/-- What was taken, as read off the events and as read off the steps that undo it. -/
theorem filterMap_taken {β : Type} {f : Event → Option β} {g : UndoStep → Option β} {t : Trace}
    (h : ∀ e ∈ t, f e = e.undo?.bind g) : t.filterMap f = t.taken.filterMap g := by
  unfold taken
  rw [List.filterMap_filterMap]
  exact List.filterMap_congr h

end Trace

theorem UndoStep.filterMap_reverse {β : Type} {g : UndoStep → Option β} {xs ys : List UndoStep}
    {b : β} (h : xs.Sublist ys) (hys : ys.filterMap g = [b]) :
    xs.reverse.filterMap g = xs.filterMap g ∧ (xs.filterMap g = [] ∨ xs.filterMap g = [b]) := by
  have hread : xs.filterMap g = [] ∨ xs.filterMap g = [b] := by
    simpa [List.sublist_cons_iff, hys] using h.filterMap g
  refine ⟨?_, hread⟩
  rw [List.filterMap_reverse]
  rcases hread with hnil | hone
  · rw [hnil, List.reverse_nil]
  · rw [hone, List.reverse_singleton]

namespace MachineIds

theorem allocateFrom_newIds (region : String) (attempts : Nat) (floor : MachineId) :
    (allocateFrom region attempts floor).Ensures fun t r =>
      t.newIds = match r with | .ok id => [(region, id)] | .error _ => [] := by
  induction attempts generalizing floor with
  | zero => exact (Job.ensures_fail _ _).2 rfl
  | succ attempts ih =>
    refine (Job.ensures_bind _ _ _).2 ((Hypervisor.ensures_send _ _ _).2 fun r => ?_)
    cases r with
    | error e => rfl
    | ok candidate =>
      refine (Job.ensures_bind _ _ _).2 ((Job.ensures_lift _ _).2
        ((Plan.ensures_perform (.memory _) _).2 fun taken => ?_))
      cases taken with
      | true => exact (Job.ensures_pure _ _).2 rfl
      | false => exact ih _

end MachineIds

namespace Candidate
variable {settings : Settings} {c : Candidate}

def Neutral (c : Candidate) (call : Call) : Prop :=
  call.isTaking = false ∧ call.isUndoing = false ∧ call.StaysIn c.region

structure Undone (c : Candidate) (machine : MachineId) (before after : Trace) : Prop where
  undoes : c.Undoes machine before.taken
  newId : before.taken = [] ∨ before.newIds = [(c.region, machine)]
  forward : ∀ e ∈ before, e.call.isUndoing = false ∧ e.call.StaysIn c.region
  tried : UndoStep.TriedAll c.region before.taken.reverse after.undoing
  backward : ∀ e ∈ after, e.call.Backward

theorem undone_of_nothing {machine : MachineId} {t : Trace}
    (h : ∀ e ∈ t, c.Neutral e.call) : c.Undone machine t [] := by
  have htaken : t.taken = [] := Trace.taken_eq_nil fun e he => (h e he).1
  refine ⟨⟨default, "", htaken ▸ List.nil_sublist _⟩, .inl htaken, fun e he => (h e he).2, ?_, ?_⟩
  · rw [htaken]
    exact .nil
  · simp

theorem allocate_calls (floor : MachineId) :
    (MachineIds.allocate c.region floor).Only c.Neutral :=
  MachineIds.allocateFrom_only (fun _ => ⟨rfl, rfl, rfl⟩) (fun _ => ⟨rfl, rfl, trivial⟩) _ _

theorem conclude_ensures (machine : MachineId) (result : Except Fault NodeClaim)
    (stack : UndoStack) :
    (conclude settings c machine result stack).Ensures fun t r =>
      ∀ e, r = .error e → UndoStep.TriedAll c.region stack.steps.reverse t.undoing ∧
        ∀ e ∈ t, e.call.Backward := by
  unfold conclude
  cases result with
  | ok node =>
    refine (Job.ensures_bind _ _ _).2 ((Job.ensures_lift _ _).2 fun t _ _ => ?_)
    refine (Job.ensures_pure _ _).2 ?_
    simp
  | error e =>
    refine (Job.ensures_bind _ _ _).2 ((Job.ensures_lift _ _).2 ?_)
    refine Plan.Ensures.mono (UndoStep.runAll_undoes _) fun t failed ⟨htried, hcalls⟩ => ?_
    dsimp only
    split
    · refine (Job.ensures_bind _ _ _).2 ((Job.ensures_lift _ _).2 ?_)
      refine (Plan.ensures_perform (.memory _) _).2 fun _ => (Job.ensures_fail _ _).2 fun e he => ?_
      refine ⟨?_, List.forall_mem_append.2 ⟨hcalls, List.forall_mem_singleton.2 ⟨rfl, rfl, rfl⟩⟩⟩
      simpa [Trace.undoing, Call.isUndoing] using htried
    · exact (Job.ensures_fail _ _).2 fun e he => by simpa using ⟨htried, hcalls⟩

theorem provision_undone {t : TemplateEntry} {machine : MachineId} {prelude : Trace}
    (hneutral : ∀ e ∈ prelude, c.Neutral e.call)
    (hids : prelude.newIds = [(c.region, machine)]) :
    (do
      let (result, stack) ← (provision settings c t machine).run {}
      conclude settings c machine result stack : Job NodeClaim).Ensures fun t' r =>
        ∀ e, r = .error e → ∃ before after, prelude ++ t' = before ++ after ∧
          c.Undone machine before after := by
  refine (Job.ensures_bind _ _ _).2 ((Job.ensures_lift _ _).2 ?_)
  refine Plan.Ensures.mono (provision_records settings c t machine {}) ?_
  rintro t₁ ⟨result, stack⟩ ⟨hsteps, hbound, hforward⟩
  refine Job.Ensures.mono (conclude_ensures machine result stack) fun t₂ r h e he => ?_
  obtain ⟨htried, hbackward⟩ := h e he
  -- The prelude takes nothing, so the stack holds all that was taken before the end.
  have htaken : Trace.taken (prelude ++ t₁) = t₁.taken := by
    rw [Trace.taken_append, Trace.taken_eq_nil fun e he => (hneutral e he).1, List.nil_append]
  have hstack : stack.steps = t₁.taken := hsteps
  refine ⟨prelude ++ t₁, t₂, (List.append_assoc _ _ _).symm, ?_, .inr ?_, ?_, ?_, hbackward⟩
  · rwa [htaken]
  · rw [Trace.newIds_append, hids, Trace.newIds_eq_nil fun e he => (hforward e he).notClaiming,
      List.append_nil]
  · exact List.forall_mem_append.2 ⟨fun e he => (hneutral e he).2,
      fun e he => ⟨(hforward e he).notUndoing, (hforward e he).staysIn⟩⟩
  · rwa [htaken, ← hstack]

theorem launch_undone :
    (c.launch settings).Ensures fun t r =>
      ∀ e, r = .error e → ∃ machine before after, t = before ++ after ∧
        c.Undone machine before after := by
  have nothing {t : Trace} (h : ∀ e ∈ t, c.Neutral e.call) :
      ∃ machine before after, t = before ++ after ∧ c.Undone machine before after :=
    ⟨default, t, [], (List.append_nil t).symm, undone_of_nothing h⟩
  have hfirst (a : Inventory) (r : Except Fault Unit) :
      ∀ e ∈ [(⟨.memory .inventory, a⟩ : Event), ⟨.connect c.region, r⟩], c.Neutral e.call := by
    simp [Neutral, Call.isTaking, Call.isUndoing, Call.StaysIn]
  unfold launch
  refine (Job.ensures_bind _ _ _).2 ((Job.ensures_lift _ _).2
    ((Plan.ensures_perform (.memory _) _).2 fun inventory => ?_))
  dsimp only
  split
  · exact (Job.ensures_fail _ _).2 fun _ _ => nothing fun e he =>
      hfirst inventory (.ok ()) e (List.mem_cons.2 (.inl (by simpa using he)))
  refine (Job.ensures_bind _ _ _).2 ((Plan.ensures_perform (.connect _) _).2 fun r => ?_)
  cases r with
  | error e => exact fun _ _ => nothing (hfirst inventory _)
  | ok u =>
    refine (Job.ensures_bind _ _ _).2 (Plan.Ensures.mono
      (Plan.Ensures.and (allocate_calls _) (MachineIds.allocateFrom_newIds _ _ _)) ?_)
    rintro t r ⟨hcalls, hids⟩
    -- Up to here only an id may have been set apart, which needs no undoing.
    have hprelude := List.forall_mem_append.2 ⟨hfirst inventory (.ok u), hcalls⟩
    cases r with
    | error e => exact fun _ _ => nothing hprelude
    | ok machine =>
      refine Job.Ensures.mono (provision_undone hprelude hids) fun t' r h e he => ?_
      obtain ⟨before, after, htrace, hundone⟩ := h e he
      refine ⟨machine, before, after, ?_, hundone⟩
      rw [← htrace]
      simp only [List.cons_append, List.nil_append]

/-- All that a trace took is given back, and only that. -/
structure RolledBack (c : Candidate) (t : Trace) : Prop where
  /-- Capacity is released as it was granted, where it was granted. -/
  released : t.releases = t.grants
  grantedOnce : t.grants = [] ∨ ∃ granted, t.grants = [(c.region, c.zone, granted)]
  /-- Machines that were cloned are stopped, and no others. -/
  stopped : t.stops = t.clones
  clonedOnce : t.clones = [] ∨
    ∃ machine, t.newIds = [(c.region, machine)] ∧ t.clones = [(c.region, c.zone, machine)]
  /-- They are deleted too, unless there was nothing to stop. -/
  deleted : t.deletions = t.standing
  revoked : t.revocations = t.issues
  issuedOnce : t.issues = [] ∨ ∃ token, t.issues = [token]
  /-- The last step taken is the first one to be undone, and none is left out. -/
  inReverse : UndoStep.TriedAll c.region t.taken.reverse t.undoing
  /-- Nothing is undone before the launch has failed. From then on nothing is taken, and the caller
  cannot cut the undoing short. -/
  inTwoParts : ∃ before after, t = before ++ after ∧
    (∀ e ∈ before, e.call.isUndoing = false) ∧ ∀ e ∈ after, e.call.Backward

theorem Undone.rolledBack {machine : MachineId} {before after : Trace}
    (h : c.Undone machine before after) : c.RolledBack (before ++ after) := by
  obtain ⟨granted, token, hsublist⟩ := h.undoes
  have htaken : Trace.taken (before ++ after) = before.taken := by
    rw [Trace.taken_append, Trace.taken_eq_nil fun e he => (h.backward e he).notTaking,
      List.append_nil]
  have hundoing : Trace.undoing (before ++ after) = after.undoing := by
    rw [Trace.undoing_append, Trace.undoing_eq_nil fun e he => (h.forward e he).1,
      List.nil_append]
  -- What is given back can be read off the steps that were tried.
  have hback {β : Type} {f : Event → Option β} {g : UndoStep → Option β}
      (hf : ∀ e : Event, e.call.isUndoing = false → f e = none)
      (hstep : ∀ {step : UndoStep} {t : Trace}, step.Tried c.region t →
        t.filterMap f = [step].filterMap g) :
      (before ++ after).filterMap f = before.taken.reverse.filterMap g := by
    rw [← Trace.filterMap_undoing hf, hundoing]
    exact h.tried.filterMap hstep
  have hgrants : Trace.grants (before ++ after) = before.taken.filterMap UndoStep.reservation? := by
    rw [← htaken]
    exact Trace.filterMap_taken fun e _ => e.grant?_eq
  have hclones : Trace.clones (before ++ after) =
      before.taken.filterMap (UndoStep.machine? c.region) := by
    rw [← htaken]
    refine Trace.filterMap_taken fun e he => Event.clone?_eq fun htaking => ?_
    rcases List.mem_append.1 he with he | he
    · exact (h.forward e he).2
    · simp [(h.backward e he).notTaking] at htaking
  have hissues : Trace.issues (before ++ after) = before.taken.filterMap UndoStep.token? := by
    rw [← htaken]
    exact Trace.filterMap_taken fun e _ => e.issue?_eq
  have hreleases := hback (fun e he => (Event.readings_of_not_undoing he).1) UndoStep.Tried.releases
  have hstops := hback (fun e he => (Event.readings_of_not_undoing he).2.1) UndoStep.Tried.stops
  have hrevocations := hback (fun e he => (Event.readings_of_not_undoing he).2.2.2.2)
    UndoStep.Tried.revocations
  obtain ⟨hreservation, hgranted⟩ := UndoStep.filterMap_reverse (g := UndoStep.reservation?)
    hsublist rfl
  obtain ⟨hmachine, hcloned⟩ := UndoStep.filterMap_reverse (g := UndoStep.machine? c.region)
    hsublist rfl
  obtain ⟨htoken, hissued⟩ := UndoStep.filterMap_reverse (g := UndoStep.token?) hsublist rfl
  refine {
    released := by rw [hgrants, ← hreservation]; exact hreleases
    grantedOnce := by rw [hgrants]; exact hgranted.imp_right fun h => ⟨granted, h⟩
    stopped := by rw [hclones, ← hmachine]; exact hstops
    clonedOnce := ?_
    deleted := ?_
    revoked := by rw [hissues, ← htoken]; exact hrevocations
    issuedOnce := by rw [hissues]; exact hissued.imp_right fun h => ⟨token, h⟩
    inReverse := by rw [htaken, hundoing]; exact h.tried
    inTwoParts := ⟨before, after, rfl, fun e he => (h.forward e he).1, h.backward⟩ }
  · have hids : Trace.newIds (before ++ after) = before.newIds := by
      rw [Trace.newIds_append, Trace.newIds_eq_nil fun e he => (h.backward e he).notClaiming,
        List.append_nil]
    rw [hclones, hids]
    rcases h.newId with hnone | hid
    · exact .inl (by rw [hnone]; rfl)
    · exact hcloned.imp_right fun h => ⟨machine, hid, h⟩
  · unfold Trace.deletions Trace.standing
    rw [← Trace.filterMap_undoing fun e he => (Event.readings_of_not_undoing he).2.2.2.1,
      ← Trace.filterMap_undoing fun e he => (Event.readings_of_not_undoing he).2.2.1, hundoing]
    exact h.tried.deletions

/-- Whatever the others answer and whenever the caller cancels, a launch that fails gives back all
that it took. -/
theorem launch_rolledBack {t : Trace} {e : Fault}
    (h : (c.launch settings).run.Yields t (.error e)) : c.RolledBack t := by
  obtain ⟨machine, before, after, rfl, hundone⟩ := launch_undone t _ h e rfl
  exact hundone.rolledBack

def inZone1 : Candidate where
  claim := { name := some "a", spec := { nodeClass := { name := "default" } } }
  cls := { name := some "default", spec := { template := "noble", metadataDelivery := .cdrom } }
  shape := { name := "m.large", capacity := {} }
  region := "r1"
  zone := "z1"

def certificateRefused : (c : Call) → c.Reply
  | .bootstrap .clusterCa => .error (.transient "cluster" "unreachable")
  | .bootstrap (.revokeToken _) => .error (.transient "cluster" "unreachable")
  | c => c.grant

theorem launch_rolledBack_after_token :
    let t := ((inZone1.launch {}).run.play (fun _ => certificateRefused) []).1
    t.grants.length = 1 ∧ t.clones = [("r1", "z1", 1000)] ∧ t.issues = ["abcdef"] ∧
      inZone1.RolledBack t := by
  have hrun := Plan.yields_play (fun _ => certificateRefused) [] (inZone1.launch {}).run
  have hfails : ((inZone1.launch {}).run.play (fun _ => certificateRefused) []).2.isOk = false := by
    decide +kernel
  refine ⟨by decide +kernel, by decide +kernel, by decide +kernel, ?_⟩
  cases hend : ((inZone1.launch {}).run.play (fun _ => certificateRefused) []).2 with
  | ok node =>
    rw [hend] at hfails
    cases hfails
  | error e =>
    rw [hend] at hrun
    exact launch_rolledBack hrun

end Candidate
end NodeProvisioner
