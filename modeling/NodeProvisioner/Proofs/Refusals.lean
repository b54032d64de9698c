import NodeProvisioner.Proofs.World.Waiting

/-! Faults that are passed on. A job that says that something does not exist was told so by the
answer to its last call, unless it comes to that itself; a wait never does. -/
namespace NodeProvisioner

def Event.refusal? : Event → Option Fault
  | ⟨.connect _, .error e⟩ => some e
  | ⟨.hypervisor _ _, .error e⟩ => some e
  | _ => none

def Trace.lastRefusal? (t : Trace) : Option Fault := t.getLast?.bind Event.refusal?

theorem Trace.lastRefusal?_append {t t' : Trace} {e : Fault} (h : t'.lastRefusal? = some e) :
    Trace.lastRefusal? (t ++ t') = some e := by
  unfold lastRefusal? at h ⊢
  obtain ⟨last, hlast, hrefusal⟩ := Option.bind_eq_some_iff.1 h
  simp [List.getLast?_append, hlast, hrefusal]

namespace Job
variable {α β : Type}

/-- Whatever the replies are, the job says that something does not exist only if the answer to its
last call is this very fault. -/
def PassesOn (j : Job α) : Prop :=
  j.Ensures fun t r => ∀ e, r = .error e → e.isNotFound = true → t.lastRefusal? = some e

theorem passesOn_pure (a : α) : (pure a : Job α).PassesOn := by simp [PassesOn]

theorem passesOn_lift (p : Plan α) : (liftM p : Job α).PassesOn := by
  refine (ensures_lift _ _).2 fun t a _ => ?_
  simp

theorem passesOn_fail {e : Fault} (h : e.isNotFound = false) : (Job.fail e : Job α).PassesOn := by
  refine (ensures_fail _ _).2 ?_
  rintro _ ⟨⟩ hfound
  simp [h] at hfound

theorem PassesOn.bind {j : Job α} {f : α → Job β} (h : j.PassesOn) (h' : ∀ a, (f a).PassesOn) :
    (j >>= f).PassesOn := by
  refine Ensures.bind h (fun t a _ => (h' a).mono fun t' r hr e he hfound => ?_) fun t e ht => ?_
  · exact Trace.lastRefusal?_append (hr e he hfound)
  · rintro _ ⟨⟩
    exact ht e rfl

end Job

theorem Hypervisor.send_passesOn (region : String) (q : Hypervisor.Request) :
    (Hypervisor.send region q).PassesOn := by
  refine (Hypervisor.ensures_send _ _ _).2 ?_
  rintro _ e rfl -
  rfl

namespace Task
variable {p : Patience} {heeds : Bool} {region zone : String} {task : TaskId}

theorem look_passesOn : (look region zone task).PassesOn :=
  (Hypervisor.send_passesOn _ _).bind fun _ => Job.passesOn_pure _

theorem succeed_passesOn : (succeed p heeds region zone task).PassesOn := by
  have hfinish : (finish p heeds region zone task).PassesOn := by
    refine (Waiting.lookFrom_ended _ _ _ _ _ _).mono fun t r hended => ?_
    cases hended with
    | finished before hlook => simp
    | refused before hlook =>
      rintro e he hfound
      exact Trace.lastRefusal?_append (look_passesOn _ _ hlook e (by simpa using he) hfound)
    | timedOut t =>
      rintro _ ⟨⟩ hfound
      cases hfound
    | cancelled t =>
      rintro _ ⟨⟩ hfound
      cases hfound
  refine hfinish.bind fun status => ?_
  split
  · exact Job.passesOn_pure _
  · exact Job.passesOn_fail rfl

end Task
end NodeProvisioner
