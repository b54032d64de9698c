import NodeProvisioner.Proofs.Template.Removing

/-! Which machines the removal of a template class deletes. An entry records no more than an id, and
an id that was given back may since have been given to another machine. What is found under the id
is deleted as it is found, so only templates are deleted just as far as only templates are found. -/
namespace NodeProvisioner

def Call.targets : Call → Bool
  | .hypervisor _ (.findMachine _) | .hypervisor _ (.delete _ _) => true
  | _ => false

structure Call.Aside (c : Call) : Prop where
  notTargeting : c.targets = false

namespace Trace

/-- Each machine that is deleted has just been found there as a template. -/
def DeletesTemplates (trace : Trace) : Prop :=
  ∀ before region zone machine reply after,
    trace = before ++ ⟨.hypervisor region (.delete zone machine), reply⟩ :: after →
      ∃ seen, before.getLast? = some ⟨.hypervisor region (.findMachine machine), .ok (some seen)⟩ ∧
        seen.zone = zone ∧ seen.template = true

def FindsTemplates (trace : Trace) : Prop :=
  ∀ region machine seen,
    ⟨.hypervisor region (.findMachine machine), .ok (some seen)⟩ ∈ trace → seen.template = true

/-- Machines are deleted just after they are found, where they are found, and no others are. -/
inductive Paired : Trace → Prop where
  | nil : Paired []
  | aside {e : Event} {rest : Trace} (h : e.call.Aside) (hrest : Paired rest) :
      Paired (e :: rest)
  | missed {region : String} {machine : MachineId} {reply : Except Fault (Option Location)}
      {rest : Trace} (h : ∀ seen, reply ≠ .ok (some seen)) (hrest : Paired rest) :
      Paired (⟨.hypervisor region (.findMachine machine), reply⟩ :: rest)
  | found {region : String} {machine : MachineId} {seen : Location} {reply : Except Fault TaskId}
      {rest : Trace} (hrest : Paired rest) :
      Paired (⟨.hypervisor region (.findMachine machine), .ok (some seen)⟩ ::
        ⟨.hypervisor region (.delete seen.zone machine), reply⟩ :: rest)

namespace Paired

theorem of_aside {trace : Trace} (h : ∀ e ∈ trace, e.call.Aside) : Paired trace := by
  induction trace with
  | nil => exact .nil
  | cons e rest ih =>
    obtain ⟨he, hrest⟩ := List.forall_mem_cons.1 h
    exact .aside he (ih hrest)

theorem append {trace trace' : Trace} (h : Paired trace) (h' : Paired trace') :
    Paired (trace ++ trace') := by
  induction h with
  | nil => exact h'
  | aside h _ ih => exact .aside h ih
  | missed h _ ih => exact .missed h ih
  | found _ ih => exact .found ih

theorem preceded {trace before after : Trace} {region zone : String} {machine : MachineId}
    {reply : Except Fault TaskId} (h : Paired trace)
    (hsplit : trace = before ++ ⟨.hypervisor region (.delete zone machine), reply⟩ :: after) :
    ∃ seen, before.getLast? = some ⟨.hypervisor region (.findMachine machine), .ok (some seen)⟩ ∧
      seen.zone = zone := by
  -- The deletion is not the first event, unless it is the one paired with the head of the trace.
  have hlater {e : Event} {before : Trace} {seen : Location}
      (hlast : before.getLast? = some ⟨.hypervisor region (.findMachine machine),
        .ok (some seen)⟩) : (e :: before).getLast? = some ⟨.hypervisor region
          (.findMachine machine), .ok (some seen)⟩ := by
    rw [List.getLast?_cons, hlast]
    rfl
  induction h generalizing before with
  | nil => simp at hsplit
  | aside h _ ih =>
    cases before with
    | nil =>
      cases hsplit
      cases h.notTargeting
    | cons e before =>
      cases hsplit
      obtain ⟨seen, hlast, hzone⟩ := ih rfl
      exact ⟨seen, hlater hlast, hzone⟩
  | missed h _ ih =>
    cases before with
    | nil => cases hsplit
    | cons e before =>
      cases hsplit
      obtain ⟨seen, hlast, hzone⟩ := ih rfl
      exact ⟨seen, hlater hlast, hzone⟩
  | @found _ _ seen _ _ _ ih =>
    match before with
    | [] => cases hsplit
    | [_] =>
      cases hsplit
      exact ⟨seen, rfl, rfl⟩
    | _ :: _ :: before =>
      cases hsplit
      obtain ⟨seen, hlast, hzone⟩ := ih rfl
      exact ⟨seen, hlater (hlater hlast), hzone⟩

theorem followed {trace : Trace} {region : String} {machine : MachineId} {seen : Location}
    (h : Paired trace)
    (hmem : ⟨.hypervisor region (.findMachine machine), .ok (some seen)⟩ ∈ trace) :
    ∃ before reply after, trace = before ++
      ⟨.hypervisor region (.findMachine machine), .ok (some seen)⟩ ::
        ⟨.hypervisor region (.delete seen.zone machine), reply⟩ :: after := by
  induction h with
  | nil => cases hmem
  | @aside e _ h _ ih =>
    rcases List.mem_cons.1 hmem with rfl | hmem
    · cases h.notTargeting
    · obtain ⟨before, reply, after, rfl⟩ := ih hmem
      exact ⟨e :: before, reply, after, rfl⟩
  | @missed region' machine' reply' _ h _ ih =>
    rcases List.mem_cons.1 hmem with heq | hmem
    · cases heq
      exact absurd rfl (h seen)
    · obtain ⟨before, reply, after, rfl⟩ := ih hmem
      exact ⟨⟨.hypervisor region' (.findMachine machine'), reply'⟩ :: before, reply, after, rfl⟩
  | @found region' machine' seen' reply' rest _ ih =>
    rcases List.mem_cons.1 hmem with heq | hmem
    · cases heq
      exact ⟨[], reply', rest, rfl⟩
    · rcases List.mem_cons.1 hmem with heq | hmem
      · cases heq
      · obtain ⟨before, reply, after, rfl⟩ := ih hmem
        exact ⟨⟨.hypervisor region' (.findMachine machine'), .ok (some seen')⟩ ::
          ⟨.hypervisor region' (.delete seen'.zone machine'), reply'⟩ :: before, reply, after, rfl⟩

theorem deletes_iff_finds {trace : Trace} (h : Paired trace) :
    trace.DeletesTemplates ↔ trace.FindsTemplates := by
  constructor
  · intro hdeletes region machine seen hmem
    obtain ⟨before, reply, after, hsplit⟩ := h.followed hmem
    obtain ⟨seen', hlast, -, htemplate⟩ := hdeletes
      (before ++ [⟨.hypervisor region (.findMachine machine), .ok (some seen)⟩]) region seen.zone
      machine reply after (by simpa using hsplit)
    rw [List.getLast?_concat] at hlast
    cases hlast
    exact htemplate
  · intro hfinds before region zone machine reply after hsplit
    obtain ⟨seen, hlast, hzone⟩ := h.preceded hsplit
    have hfound := List.mem_append_left
      (⟨.hypervisor region (.delete zone machine), reply⟩ :: after) (List.mem_of_getLast? hlast)
    exact ⟨seen, hlast, hzone, hfinds region machine seen (hsplit ▸ hfound)⟩

end Paired
end Trace

namespace Plan
variable {α β : Type}

def Pairs (p : Plan α) : Prop := p.Ensures fun trace _ => trace.Paired

theorem Only.pairs {p : Plan α} (h : p.Only Call.Aside) : p.Pairs :=
  Ensures.mono h fun _ _ => Trace.Paired.of_aside

theorem Pairs.bind {p : Plan α} {f : α → Plan β} (h : p.Pairs) (h' : ∀ a, (f a).Pairs) :
    (p >>= f).Pairs :=
  (ensures_bind p f _).2 (h.mono fun _ a ht => (h' a).mono fun _ _ ht' => ht.append ht')

end Plan

namespace Job
variable {α β : Type}

def Pairs (j : Job α) : Prop := j.run.Pairs

theorem Only.pairs {j : Job α} (h : j.Only Call.Aside) : j.Pairs :=
  Plan.Only.pairs h

theorem pairs_lift {p : Plan α} (h : p.Pairs) : (liftM p : Job α).Pairs :=
  Plan.Pairs.bind h fun _ => (Plan.only_pure _).pairs

theorem Pairs.bind {j : Job α} {f : α → Job β} (h : j.Pairs) (h' : ∀ a, (f a).Pairs) :
    (j >>= f).Pairs := by
  unfold Pairs
  rw [run_bind]
  refine Plan.Pairs.bind h fun r => ?_
  cases r with
  | ok a => exact h' a
  | error e => exact (Plan.only_pure _).pairs

end Job

theorem withZone_pairs {α : Type} {region zone : String} {j : Job α} (h : j.Pairs) :
    (withZone region zone j).Pairs :=
  (Plan.only_perform ⟨rfl⟩).pairs.bind fun _ => Plan.Pairs.bind h fun _ =>
    (Plan.only_perform ⟨rfl⟩).pairs.bind fun _ => (Plan.only_pure _).pairs

namespace TemplateClass
variable {settings : Settings} {t : TemplateClass}

theorem succeed_aside {p : Patience} {region zone : String} {task : TaskId} :
    (Task.succeed p true region zone task).Only Call.Aside :=
  Task.succeed_only ⟨rfl⟩ ⟨rfl⟩ fun _ => ⟨rfl⟩

theorem removeMachine_pairs (i : Installation) : (removeMachine settings i).Pairs := by
  refine (Job.ensures_bind _ _ _).2 ((Hypervisor.ensures_send _ _ _).2 fun reply => ?_)
  rcases reply with e | _ | seen
  · exact .missed nofun .nil
  · exact (Job.ensures_pure _ _).2 (.missed nofun .nil)
  · refine (Job.ensures_bind _ _ _).2 ((Hypervisor.ensures_send _ _ _).2 fun reply => ?_)
    cases reply with
    | error e => exact .found .nil
    | ok task => exact Plan.Ensures.mono succeed_aside fun _ _ hwait => .found (.of_aside hwait)

theorem removeEntry_pairs (i : Installation) : (t.removeEntry settings i).Pairs :=
  (only_connect ⟨rfl⟩).pairs.bind fun _ => withZone_pairs ((removeMachine_pairs i).bind fun _ =>
    ((Job.only_lift (storagesOf_only (fun _ => ⟨rfl⟩) _)).bind fun _ =>
      removeImages_only (fun _ => ⟨rfl⟩) (fun _ => ⟨rfl⟩) (fun _ => succeed_aside) _).pairs)

theorem forEach_pairs {job : Installation → Job Unit} (h : ∀ i, (job i).Pairs)
    (entries : List String) : (EntryOutcome.forEach job entries).Pairs := by
  induction entries with
  | nil => exact (Plan.only_pure _).pairs
  | cons entry entries ih =>
    have hone : (EntryOutcome.of job entry).Pairs := by
      unfold EntryOutcome.of
      split
      · exact Plan.Pairs.bind (h _) fun _ => (Plan.only_pure _).pairs
      · exact (Plan.only_pure _).pairs
    exact hone.bind fun _ => ih.bind fun _ => (Plan.only_pure _).pairs

theorem region_aside (region : String) : (Sync.region region).Only Call.Aside :=
  Sync.region_only (fun _ _ => ⟨rfl⟩) (fun _ => ⟨rfl⟩) ⟨rfl⟩ ⟨rfl⟩ fun _ => ⟨rfl⟩

theorem delete_pairs : (t.delete settings).Pairs :=
  (Job.pairs_lift (forEach_pairs removeEntry_pairs _)).bind fun _ =>
    Job.Pairs.bind (Plan.only_perform ⟨rfl⟩).pairs fun _ =>
      (Job.only_lift (renew_only region_aside _)).pairs.bind fun _ => (Plan.only_pure _).pairs

/-- Only templates are deleted if, and only if, every machine that is found under a recorded id is
a template. -/
theorem deletesTemplates_iff {trace : Trace} {r : Except Fault Unit}
    (h : (t.delete settings).run.Yields trace r) :
    trace.DeletesTemplates ↔ trace.FindsTemplates :=
  (delete_pairs trace r h).deletes_iff_finds

def recordedOnce : TemplateClass :=
  { noble with status := some { imageId := some "noble.img", zones := ["r1/z1/1000"] } }

def templatesThere : (c : Call) → c.Reply
  | .hypervisor _ (.findMachine id) => .ok (some { machine := id, zone := "z1", template := true })
  | c => c.grant

theorem deletesTemplates_iff_templatesThere : ∃ trace,
    (recordedOnce.delete {}).run.Yields trace (.ok ()) ∧
      trace.calls.contains (.hypervisor "r1" (.delete "z1" 1000)) = true ∧
      trace.FindsTemplates ∧ trace.DeletesTemplates := by
  obtain ⟨trace, _, hrun, hdeleted, hreplies⟩ := Job.yields_of_replies templatesThere
    (recordedOnce.delete {})
    (fun trace _ => trace.calls.contains (.hypervisor "r1" (.delete "z1" 1000)))
    (by decide +kernel)
  have hfinds : trace.FindsTemplates := by
    intro region machine seen hmem
    cases hreplies _ hmem
    rfl
  exact ⟨trace, hrun, hdeleted, hfinds, (deletesTemplates_iff hrun).2 hfinds⟩

/-- A machine that has been given the recorded id since, and is no template, is deleted. -/
theorem not_deletesTemplates_idGivenAnew : ∃ trace,
    (recordedOnce.delete {}).run.Yields trace (.ok ()) ∧ ¬ trace.DeletesTemplates := by
  obtain ⟨trace, _, hrun, hlooked, hreplies⟩ := Job.yields_of_replies Call.grant
    (recordedOnce.delete {})
    (fun trace _ => trace.calls.contains (.hypervisor "r1" (.findMachine 1000)))
    (by decide +kernel)
  refine ⟨trace, hrun, fun hdeletes => ?_⟩
  have hfinds := (delete_pairs _ _ hrun).deletes_iff_finds.1 hdeletes
  obtain ⟨⟨c, reply⟩, hmem, hcall⟩ := List.mem_map.1 (List.contains_iff_mem.1 hlooked)
  cases hcall
  cases hreplies _ hmem
  cases hfinds _ _ _ hmem

end TemplateClass
end NodeProvisioner
