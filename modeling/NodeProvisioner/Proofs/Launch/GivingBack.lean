import NodeProvisioner.Proofs.Launch.Lookup
import NodeProvisioner.Proofs.Launch.Rollback

/-! What a removal gives back, and when. Nothing is given back before the machine is gone, and once
it is gone everything is, whatever comes of that. -/
namespace NodeProvisioner

def Call.tidiesUp : Call → Bool
  | .capacity (.release _ _ _) => true
  | .capacity (.refresh _ _) => true
  | .bootstrap (.revokeToken _) => true
  | .memory (.forgetId _ _) => true
  | _ => false

theorem Event.readings_of_tidiesUp {e : Event} (h : e.call.tidiesUp = true) :
    e.stop? = none ∧ e.deletion? = none := by
  obtain ⟨c, r⟩ := e
  cases c with
  | hypervisor region q => cases h
  | _ => exact ⟨rfl, rfl⟩

namespace Trace

def tidyingUp (t : Trace) : List Call := t.calls.filter Call.tidiesUp

@[simp] theorem tidyingUp_append (t t' : Trace) :
    tidyingUp (t ++ t') = tidyingUp t ++ tidyingUp t' := by
  simp [tidyingUp, calls]

@[simp] theorem stops_append (t t' : Trace) : stops (t ++ t') = stops t ++ stops t' :=
  List.filterMap_append

@[simp] theorem deletions_append (t t' : Trace) :
    deletions (t ++ t') = deletions t ++ deletions t' := List.filterMap_append

theorem tidyingUp_eq_nil {t : Trace} (h : ∀ e ∈ t, e.call.tidiesUp = false) : t.tidyingUp = [] := by
  simpa [tidyingUp, calls] using h

theorem stops_eq_nil {t : Trace} (h : ∀ e ∈ t, e.call.isUndoing = false) : t.stops = [] :=
  List.filterMap_eq_nil_iff.2 fun e he => (Event.readings_of_not_undoing (h e he)).2.1

theorem deletions_eq_nil {t : Trace} (h : ∀ e ∈ t, e.call.isUndoing = false) : t.deletions = [] :=
  List.filterMap_eq_nil_iff.2 fun e he => (Event.readings_of_not_undoing (h e he)).2.2.2.1

end Trace

theorem Call.Waits.idle {region zone : String} {task : TaskId} {c : Call}
    (h : c.Waits region zone task) : c.isUndoing = false ∧ c.tidiesUp = false := by
  rcases h with rfl | rfl | ⟨span, heeds, rfl⟩ <;> exact ⟨rfl, rfl⟩

/-- A machine that is not seen stopped is stopped, which is waited for. -/
inductive Stopping (region : String) (seen : Location) : Trace → Prop where
  | idle (h : seen.power = .stopped) : Stopping region seen []
  | stopped (h : seen.power ≠ .stopped) {task : TaskId} {wait : Trace}
      (hwait : Task.Awaited region seen.zone task wait) :
      Stopping region seen (⟨.hypervisor region (.stop seen.zone seen.machine), .ok task⟩ :: wait)

/-- The machine is deleted, which is waited for. -/
inductive Deleting (region : String) (seen : Location) : Trace → Prop where
  | deleted {task : TaskId} {wait : Trace} (hwait : Task.Awaited region seen.zone task wait) :
      Deleting region seen (⟨.hypervisor region (.delete seen.zone seen.machine), .ok task⟩ :: wait)

namespace Task.Awaited
variable {region zone : String} {task : TaskId} {t : Trace}

theorem notUndoing (h : Awaited region zone task t) : ∀ e ∈ t, e.call.isUndoing = false :=
  fun e he => (h.waits e he).idle.1

theorem tidyingUp (h : Awaited region zone task t) : t.tidyingUp = [] :=
  Trace.tidyingUp_eq_nil fun e he => (h.waits e he).idle.2

end Task.Awaited

namespace Stopping
variable {region : String} {seen : Location} {t : Trace}

theorem stops (h : Stopping region seen t) :
    t.stops = if seen.power = .stopped then [] else [(region, seen.zone, seen.machine)] := by
  cases h with
  | idle h => simp [h, Trace.stops]
  | stopped h hwait =>
    rw [if_neg h]
    exact congrArg (_ :: ·) (Trace.stops_eq_nil hwait.notUndoing)

theorem deletions (h : Stopping region seen t) : t.deletions = [] := by
  cases h with
  | idle h => rfl
  | @stopped _ task wait hwait => exact Trace.deletions_eq_nil (t := wait) hwait.notUndoing

theorem tidyingUp (h : Stopping region seen t) : t.tidyingUp = [] := by
  cases h with
  | idle h => rfl
  | stopped h hwait => exact hwait.tidyingUp

end Stopping

namespace Deleting
variable {region : String} {seen : Location} {t : Trace}

theorem stops (h : Deleting region seen t) : t.stops = [] := by
  cases h with
  | @deleted task wait hwait => exact Trace.stops_eq_nil (t := wait) hwait.notUndoing

theorem deletions (h : Deleting region seen t) :
    t.deletions = [(region, seen.zone, seen.machine)] := by
  cases h with
  | deleted hwait => exact congrArg (_ :: ·) (Trace.deletions_eq_nil hwait.notUndoing)

theorem tidyingUp (h : Deleting region seen t) : t.tidyingUp = [] := by
  cases h with
  | deleted hwait => exact hwait.tidyingUp

end Deleting

namespace NodeClaim
variable {settings : Settings} {claim : NodeClaim} {region : String} {seen : Location}

/-- What is called once the machine is gone: its capacity, as told by the configuration that was
read, the token that the claim names, and its id are given back. -/
def tidyingUp (claim : NodeClaim) (region : String) (seen : Location) (m : Machine) : List Call :=
  .capacity (.release region seen.zone (.ofMachine seen.machine m)) ::
    ((claim.annotations.get? Annotation.bootstrapToken).toList.map fun token =>
      .bootstrap (.revokeToken token)) ++
    [.memory (.forgetId region seen.machine), .capacity (.refresh region seen.zone)]

theorem tidyingUp_tidiesUp (m : Machine) :
    ∀ c ∈ claim.tidyingUp region seen m, c.tidiesUp = true := by
  unfold tidyingUp
  cases claim.annotations.get? Annotation.bootstrapToken <;> simp [Call.tidiesUp]

def found (machine : MachineId) (region : String) (seen : Location) (m : Machine) : Trace :=
  [⟨.connect region, .ok ()⟩, ⟨.hypervisor region (.findMachine machine), .ok (some seen)⟩,
    ⟨.hypervisor region (.readMachine seen.zone seen.machine), .ok m⟩]

structure Removed (claim : NodeClaim) (region : String) (seen : Location) (m : Machine)
    (t : Trace) : Prop where
  /-- The machine that the claim names is found and its configuration is read; then it is stopped
  where needed, deleted, and tidied up after. -/
  inOrder : ∃ id p stopping deleting tidying, claim.Names id p region ∧
    Stopping region seen stopping ∧ Deleting region seen deleting ∧
    Trace.calls tidying = claim.tidyingUp region seen m ∧
    t = found p.machine region seen m ++ (stopping ++ deleting) ++ tidying
  stopped : t.stops =
    if seen.power = .stopped then [] else [(region, seen.zone, seen.machine)]
  deleted : t.deletions = [(region, seen.zone, seen.machine)]
  /-- Each of these calls is made once, and nothing else is given back. -/
  tidied : t.tidyingUp = claim.tidyingUp region seen m

theorem removeMachine_only {allowed : Call → Prop}
    (hstop : allowed (.hypervisor region (.stop seen.zone seen.machine)))
    (hdelete : allowed (.hypervisor region (.delete seen.zone seen.machine)))
    (hwait : ∀ task c, c.Waits region seen.zone task → allowed c) :
    (removeMachine settings region seen).Only allowed := by
  have hsucceed (task : TaskId) :
      (Task.succeed settings.taskPatience true region seen.zone task).Only allowed :=
    Task.succeed_only (hwait task _ (.inl rfl)) (hwait task _ (.inr (.inl rfl)))
      fun span => hwait task _ (.inr (.inr ⟨span, true, rfl⟩))
  have hfirst : (stopMachine settings region seen).Only allowed := by
    unfold stopMachine
    split
    · exact Job.only_pure ()
    · exact (Hypervisor.only_send hstop).bind hsucceed
  rw [removeMachine_eq]
  exact hfirst.bind fun _ => (Hypervisor.only_send hdelete).bind hsucceed

theorem stopMachine_stops (seen : Location) : (stopMachine settings region seen).Ensures
    fun t r => r = .ok () → Stopping region seen t := by
  unfold stopMachine
  split
  · next hpower => exact (Job.ensures_pure _ _).2 fun _ => .idle hpower
  · next hpower =>
    refine (Job.ensures_bind _ _ _).2 ((Hypervisor.ensures_send _ _ _).2 fun r => ?_)
    cases r with
    | error e => nofun
    | ok task => exact Task.succeed_awaited.mono fun t r h hr => .stopped hpower (h hr)

theorem deleteMachine_deletes (seen : Location) : (deleteMachine settings region seen).Ensures
    fun t r => r = .ok () → Deleting region seen t := by
  refine (Job.ensures_bind _ _ _).2 ((Hypervisor.ensures_send _ _ _).2 fun r => ?_)
  cases r with
  | error e => nofun
  | ok task => exact Task.succeed_awaited.mono fun t r h hr => .deleted (h hr)

theorem removeMachine_removes (seen : Location) :
    (removeMachine settings region seen).Ensures fun t r => r = .ok () →
      ∃ stopping deleting, t = stopping ++ deleting ∧
        Stopping region seen stopping ∧ Deleting region seen deleting := by
  rw [removeMachine_eq]
  refine (stopMachine_stops seen).bind (fun stopping _ hstopping => ?_) fun _ _ _ => nofun
  refine (deleteMachine_deletes seen).mono fun deleting r hdeleting hr => ?_
  exact ⟨stopping, deleting, rfl, hstopping rfl, hdeleting hr⟩

theorem giveBack_calls (m : Machine) :
    (giveBack claim region seen m).Ensures fun t _ => t.calls = claim.tidyingUp region seen m := by
  have hrevoke : claim.revokeToken.Ensures fun t _ => t.calls =
      (claim.annotations.get? Annotation.bootstrapToken).toList.map fun token =>
        .bootstrap (.revokeToken token) := by
    unfold revokeToken
    split
    · next token h =>
      refine (Plan.ensures_bind _ _ _).2 ((Plan.ensures_perform (.bootstrap _) _).2 fun r => ?_)
      simp [h, Trace.calls]
    · next h => simp [h, Trace.calls]
  unfold giveBack
  refine (Plan.ensures_bind _ _ _).2 ((Plan.ensures_bind _ _ _).2
    ((Plan.ensures_perform (.capacity _) _).2 fun released => (Plan.ensures_pure _ _).2 ?_))
  refine (Plan.ensures_bind _ _ _).2 (hrevoke.mono fun t _ ht => ?_)
  refine (Plan.ensures_bind _ _ _).2 ((Plan.ensures_perform (.memory _) _).2 fun _ => ?_)
  refine (Plan.ensures_bind _ _ _).2
    ((Plan.ensures_perform (.capacity _) _).2 fun refreshed => (Plan.ensures_pure _ _).2 ?_)
  simp only [Trace.calls] at ht
  simp [Trace.calls, tidyingUp, ht]

theorem Removed.of_parts {id : String} {p : ProviderId} {m : Machine}
    {stopping deleting tidying : Trace} (hnames : claim.Names id p region)
    (hstopping : Stopping region seen stopping) (hdeleting : Deleting region seen deleting)
    (htidying : tidying.calls = claim.tidyingUp region seen m) :
    claim.Removed region seen m
      (found p.machine region seen m ++ (stopping ++ deleting) ++ tidying) := by
  have htidies : ∀ c ∈ tidying.calls, c.tidiesUp = true := by
    rw [htidying]
    exact tidyingUp_tidiesUp m
  have hall : tidying.tidyingUp = tidying.calls := List.filter_eq_self.2 htidies
  have hidle : ∀ e ∈ tidying, e.stop? = none ∧ e.deletion? = none := fun e he =>
    Event.readings_of_tidiesUp (htidies e.call (List.mem_map_of_mem he))
  have hstops : tidying.stops = [] := List.filterMap_eq_nil_iff.2 fun e he => (hidle e he).1
  have hdeletions : tidying.deletions = [] :=
    List.filterMap_eq_nil_iff.2 fun e he => (hidle e he).2
  have hfound : (found p.machine region seen m).stops = [] ∧
      (found p.machine region seen m).deletions = [] ∧
      (found p.machine region seen m).tidyingUp = [] := ⟨rfl, rfl, rfl⟩
  constructor
  case inOrder =>
    exact ⟨id, p, stopping, deleting, tidying, hnames, hstopping, hdeleting, htidying, rfl⟩
  case stopped => simp [hfound, hstopping.stops, hdeleting.stops, hstops]
  case deleted => simp [hfound, hstopping.deletions, hdeleting.deletions, hdeletions]
  case tidied => simp [hfound, hstopping.tidyingUp, hdeleting.tidyingUp, hall, htidying]

theorem delete_ensures :
    (claim.delete settings).Ensures fun t r =>
      (∀ e, r = .error e → t.tidyingUp = []) ∧
        (r = .ok () → ∃ region seen m, claim.Removed region seen m t) := by
  have early {t : Trace} {r : Except Fault Unit} {e : Fault} (hr : r = .error e)
      (h : t.tidyingUp = []) : (∀ e, r = .error e → t.tidyingUp = []) ∧
        (r = .ok () → ∃ region seen m, claim.Removed region seen m t) :=
    ⟨fun _ _ => h, fun hok => by cases hr.symm.trans hok⟩
  unfold delete
  rcases claim.identify_cases with ⟨e, hid, -⟩ | ⟨id, p, region, hid, hnames⟩
  · rw [hid]
    exact (Job.ensures_bind _ _ _).2 ((Job.ensures_ofExcept _ _).2 (early rfl rfl))
  rw [hid]
  refine (Job.ensures_bind _ _ _).2 ((Job.ensures_ofExcept _ _).2 ?_)
  refine (Job.ensures_bind _ _ _).2 ((Plan.ensures_perform (.connect _) _).2 fun r => ?_)
  rcases r with e | u
  · exact early rfl rfl
  refine (Job.ensures_bind _ _ _).2 ((Hypervisor.ensures_send _ _ _).2 fun r => ?_)
  rcases r with e | _ | seen
  · exact early rfl rfl
  · exact (Job.ensures_fail _ _).2 (early rfl rfl)
  refine (Job.ensures_bind _ _ _).2 ((Hypervisor.ensures_send _ _ _).2 fun r => ?_)
  rcases r with e | m
  · exact early rfl rfl
  have honly : (removeMachine settings region seen).Only fun c => c.tidiesUp = false :=
    removeMachine_only rfl rfl fun _ _ hwaits => hwaits.idle.2
  refine Job.Ensures.bind (Plan.Ensures.and honly (removeMachine_removes seen)) ?_ ?_
  · rintro removing _ ⟨-, hremoved⟩
    obtain ⟨stopping, deleting, rfl, hstopping, hdeleting⟩ := hremoved rfl
    refine (Job.ensures_lift _ _).2 ((giveBack_calls m).mono fun tidying _ htidying => ?_)
    exact ⟨nofun, fun _ => ⟨region, seen, m, .of_parts hnames hstopping hdeleting htidying⟩⟩
  -- However far it got, a removal that breaks off has only stopped, deleted and waited.
  · rintro removing e ⟨hcalls, -⟩
    exact early rfl (Trace.tidyingUp_eq_nil (t := removing) hcalls)

/-- A removal that fails has tidied up nothing, so nothing of the tidying up makes it fail. One that
succeeds has removed the machine that the claim names, and tidied up after it once. -/
theorem delete_givesBack {t : Trace} {r : Except Fault Unit}
    (h : (claim.delete settings).run.Yields t r) :
    (∀ e, r = .error e → t.tidyingUp = []) ∧
      (r = .ok () → ∃ region seen m, claim.Removed region seen m t) :=
  delete_ensures t r h

def joined : NodeClaim :=
  { launchedAs "proxmox://r1/1000" with
    annotations := KeyMap.empty.insert Annotation.bootstrapToken "abcdef" }

def nothingTaken : (c : Call) → c.Reply
  | .hypervisor _ (.findMachine id) => .ok (some { machine := id, zone := "z1", power := .running })
  | .capacity (.release _ _ _) => .error (.transient "capacity" "unreachable")
  | .bootstrap (.revokeToken _) => .error (.transient "cluster" "unreachable")
  | .capacity (.refresh _ _) => .error (.transient "capacity" "unreachable")
  | c => c.grant

theorem delete_givesBack_anyway :
    (∃ t, (joined.delete {}).run.Yields t (.ok ()) ∧
      ∃ region seen m, joined.Removed region seen m t) ∧
    ∃ t e, ((launchedAs "proxmox://r1/1000").delete {}).run.Yields t (.error e) ∧
      t.tidyingUp = [] := by
  obtain ⟨t, _, hdelete, -⟩ := Job.yields_of_play (fun _ => nothingTaken) (f := id) (b := ())
    (j := joined.delete {}) (by decide +kernel)
  obtain ⟨t', e, hfails, -⟩ := Job.fails_of_play (fun _ => stopUnknown)
    ((launchedAs "proxmox://r1/1000").delete {}) (fun _ _ => true) (by decide +kernel)
  exact ⟨⟨t, hdelete, (delete_givesBack hdelete).2 rfl⟩,
    t', e, hfails, (delete_givesBack hfails).1 e rfl⟩

end NodeClaim
end NodeProvisioner
