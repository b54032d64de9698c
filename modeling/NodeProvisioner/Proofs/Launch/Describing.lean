import NodeProvisioner.Launch.Search
import NodeProvisioner.Proofs.Calls
import NodeProvisioner.Proofs.Launch.Placement
import NodeProvisioner.Proofs.Machine.Provenance

/-! What is written into the descriptions of machines. A launch writes one description, and this
names the claim that the launch is for, provided that names stay on their lines. -/
namespace NodeProvisioner

namespace Text

theorem plain_append_numeral {s : String} (h : '\n' ∉ s.toList) (n : Nat) :
    Plain (s ++ numeral n) := by
  have hdigit {c : Char} (hc : c ∈ Nat.toDigits 10 n) : c.isDigit = true :=
    Nat.isDigit_of_mem_toDigits (by decide) (by decide) hc
  have htext : (s ++ numeral n).toList = s.toList ++ Nat.toDigits 10 n := by
    simp [numeral]
  constructor
  · rw [htext, List.mem_append, not_or]
    exact ⟨h, fun hc => absurd (hdigit hc) (by decide)⟩
  · rw [htext]
    rw [List.getLast?_append, List.getLast?_eq_some_getLast Nat.toDigits_ne_nil]
    exact isBlank_of_isDigit (hdigit (List.getLast_mem _))

end Text

theorem Shape.options_description (clusterName : String) (clsTags : List String) (clone : Machine)
    (granted : Reservation) (p : Provenance) :
    (Shape.options clusterName clsTags clone granted p).set.get? "description" =
      some p.render := by
  have hput (c : Change) : ((c.put "description" p.render).set.get? "description") =
      some p.render := KeyMap.get?_insert_self _ _ _
  unfold Shape.options Shape.pinning Change.putAll
  cases granted.cpuSet with
  | none => simpa using hput _
  | some set =>
    simp only [List.cons_append, List.nil_append, List.foldl_cons, List.foldl_nil]
    rw [Change.get?_put_of_ne _ _ (by decide), Change.get?_put_of_ne _ _ (by decide)]
    exact hput _

/-- If the call describes a machine, the description names the claim. Regions are taken to stand
on one line. -/
def Call.Describes (name : String) : Call → Prop
  | .hypervisor region (.configure _ _ change) => '\n' ∉ region.toList →
    ∀ d, change.set.get? "description" = some d → (Provenance.parse d).nodeClaim = some name
  | _ => True

def Event.templates : Event → List TemplateEntry
  | ⟨.memory .inventory, inventory⟩ => KeyMap.values (inventory : Inventory) |>.flatten
  | _ => []

def Event.TemplatesPlain (e : Event) : Prop := ∀ t ∈ e.templates, '\n' ∉ t.zone.toList

namespace Undoable
variable {α β : Type} {allowed : Call → Prop}

def Only (allowed : Call → Prop) (u : Undoable α) : Prop := ∀ stack, (u.run stack).Only allowed

theorem only_pure (a : α) : (pure a : Undoable α).Only allowed := fun _ => Plan.only_pure _

theorem only_record (step : UndoStep) : (record step).Only allowed := fun _ => Plan.only_pure _

theorem only_lift {j : Job α} (h : j.Only allowed) : (liftM j : Undoable α).Only allowed :=
  fun _ => Plan.Only.bind h fun _ => Plan.only_pure _

theorem Only.bind {u : Undoable α} {f : α → Undoable β} (h : u.Only allowed)
    (h' : ∀ a, (f a).Only allowed) : (u >>= f).Only allowed := by
  refine fun stack => (h stack).bind fun r => ?_
  obtain ⟨_ | a, between⟩ := r
  · exact Plan.only_pure _
  · exact h' a between

def OnlyWhen (given : Event → Prop) (allowed : Call → Prop) (u : Undoable α) : Prop :=
  ∀ stack, (u.run stack).OnlyWhen given allowed

section onlyWhen
variable {given : Event → Prop}

theorem Only.when {u : Undoable α} (h : u.Only allowed) : u.OnlyWhen given allowed :=
  fun stack => (h stack).when

theorem OnlyWhen.bind {u : Undoable α} {f : α → Undoable β} (h : u.OnlyWhen given allowed)
    (h' : ∀ a, (f a).OnlyWhen given allowed) : (u >>= f).OnlyWhen given allowed := by
  refine fun stack => (h stack).bind fun r => ?_
  obtain ⟨_ | a, between⟩ := r
  · exact (Plan.only_pure _).when
  · exact h' a between

end onlyWhen
end Undoable

namespace Candidate
open Undoable (only_lift only_record only_pure)
variable (settings : Settings) (c : Candidate) (t : TemplateEntry) (machine : MachineId)

structure Plain (c : Candidate) : Prop where
  claim : Text.Plain c.claim.displayName
  cls : Text.Plain c.cls.displayName
  shape : Text.Plain c.shape.name

theorem provenance_plain (h : c.Plain) (hregion : '\n' ∉ c.region.toList)
    (hzone : '\n' ∉ t.zone.toList) : (c.provenance t).Plain where
  nodeClaim := by rintro _ ⟨⟩; exact h.claim
  nodeClass := by rintro _ ⟨⟩; exact h.cls
  instanceType := by rintro _ ⟨⟩; exact h.shape
  capacityType := by
    rintro _ ⟨⟩
    cases c.capacityType <;> exact ⟨by decide, by decide⟩
  template := by
    rintro _ ⟨⟩
    refine Text.plain_append_numeral ?_ _
    simp only [String.toList_append, List.mem_append, not_or, installation]
    exact ⟨⟨⟨hregion, by decide⟩, hzone⟩, by decide⟩

variable {settings c t machine}

theorem cloneTemplate_only {allowed : Call → Prop}
    (hallocate : allowed (.capacity (.allocate c.region c.zone (c.wanted t machine))))
    (hclone : allowed (.hypervisor c.region (.clone (c.cloneRequest t machine))))
    (hsucceed : ∀ task, (Task.succeed settings.taskPatience true c.region t.zone task).Only
      allowed) : (cloneTemplate settings c t machine).Only allowed := by
  refine (only_lift (Capacity.only_send hallocate)).bind fun granted => ?_
  refine (only_record _).bind fun _ => ?_
  refine (only_lift (Hypervisor.only_send hclone)).bind fun task => ?_
  refine (only_record _).bind fun _ => ?_
  exact (only_lift (hsucceed task)).bind fun _ => only_pure granted

theorem describe_only {allowed : Call → Prop} (clone : Machine) (views : List GuestInterface)
    (hbootstrap : ∀ r, allowed (.bootstrap r))
    (hattach : ∀ documents, allowed (.hypervisor c.region
      (.attachDocuments c.zone machine settings.isoStorage documents))) :
    (describe settings c t machine clone views).Only allowed := by
  unfold describe
  split
  · exact only_pure _
  · refine (only_lift (Bootstrap.only_send (hbootstrap _))).bind fun token => ?_
    refine (only_record _).bind fun _ => ?_
    refine (only_lift (Bootstrap.only_send (hbootstrap _))).bind fun ca => ?_
    refine (only_lift (Bootstrap.only_send (hbootstrap _))).bind fun documents => ?_
    exact (only_lift (Hypervisor.only_send (hattach documents))).bind fun _ => only_pure _

theorem succeed_describes {p : Patience} {heeds : Bool} {region zone : String} {task : TaskId}
    {name : String} : (Task.succeed p heeds region zone task).Only (Call.Describes name) :=
  Task.succeed_only trivial trivial fun _ => trivial

theorem shapeClone_describes (h : c.Plain) (hzone : '\n' ∉ t.zone.toList) (granted : Reservation)
    (clone : Machine) :
    (shapeClone settings c t machine granted clone).Only (Call.Describes c.claim.displayName) := by
  have hname : Call.Describes c.claim.displayName (.hypervisor c.region (.configure c.zone machine
      (Shape.options settings.clusterName c.cls.spec.tags clone granted (c.provenance t)))) := by
    intro hregion d hd
    rw [Shape.options_description] at hd
    cases hd
    rw [Provenance.parse_render (provenance_plain c t h hregion hzone)]
    rfl
  exact shapeClone_only hname (fun _ _ _ _ => trivial)
    (Networking.configure_only trivial (fun _ _ => trivial)
      (fun change hchange _ d hd => by rw [hchange] at hd; cases hd) trivial) fun _ => trivial

theorem provision_describes (h : c.Plain) (hzone : '\n' ∉ t.zone.toList) :
    (provision settings c t machine).Only (Call.Describes c.claim.displayName) := by
  refine (cloneTemplate_only trivial trivial fun _ => succeed_describes).bind fun granted => ?_
  refine (only_lift (Hypervisor.only_send trivial)).bind fun clone => ?_
  refine (only_lift (shapeClone_describes h hzone granted clone)).bind fun views => ?_
  refine (describe_only clone views (fun _ => trivial) fun _ => trivial).bind fun node => ?_
  refine (only_lift (Hypervisor.only_send trivial)).bind fun task => ?_
  exact (only_lift succeed_describes).bind fun _ => only_pure node

end Candidate

namespace UndoStep

theorem removeMachine_describes {p : Patience} {region zone name : String} {machine : MachineId} :
    (removeMachine p region zone machine).Only (Call.Describes name) := by
  have hdelete : (deleteNow p region zone machine).Only (Call.Describes name) := by
    refine (Hypervisor.only_send trivial).attempt.bind fun r => ?_
    cases r with
    | ok task => exact Candidate.succeed_describes
    | error e =>
      dsimp only
      split
      · exact Job.only_pure ()
      · exact Job.only_fail e
  refine (Hypervisor.only_send trivial).attempt.bind fun r => ?_
  cases r with
  | ok task => exact (Job.only_lift Candidate.succeed_describes.tolerate).bind fun _ => hdelete
  | error e =>
    dsimp only
    split
    · exact Job.only_pure ()
    · exact hdelete

theorem runAll_describes {p : Patience} {region name : String} (steps : List UndoStep) :
    (runAll p region steps).Only (Call.Describes name) := by
  induction steps with
  | nil => exact Plan.only_pure 0
  | cons step rest ih =>
    have hstep : (step.run p region).Only (Call.Describes name) := by
      cases step with
      | releaseCapacity place zone granted => exact Capacity.only_send trivial
      | deleteMachine zone machine => exact removeMachine_describes
      | revokeToken token => exact Bootstrap.only_send trivial
    exact Plan.Only.bind hstep fun _ => Plan.Only.bind ih fun _ => Plan.only_pure _

end UndoStep

theorem Inventory.mem_of_findForZone {inventory : Inventory} {region zone name : String}
    {t : TemplateEntry} (h : inventory.findForZone region zone name = some t) :
    t ∈ inventory.values.flatten := by
  have hselect {filters : List TemplateFilter} (hhead : (inventory.select filters).head? = some t) :
      t ∈ inventory.values.flatten := (List.mem_filter.1 (List.mem_of_head? hhead)).1
  unfold findForZone at h
  cases hfirst : (inventory.select [.region region, .name name, .zone zone]).head? with
  | some found =>
    rw [hfirst] at h
    cases h
    exact hselect hfirst
  | none =>
    rw [hfirst] at h
    exact hselect h

namespace Candidate
variable {settings : Settings} {c : Candidate}

theorem conclude_describes {name : String} (machine : MachineId) (result : Except Fault NodeClaim)
    (stack : UndoStack) :
    (conclude settings c machine result stack).Only (Call.Describes name) := by
  unfold conclude
  cases result with
  | ok node =>
    exact (Job.only_lift (Capacity.only_send trivial).tolerate).bind fun _ => Job.only_pure node
  | error e =>
    apply (Job.only_lift (UndoStep.runAll_describes _)).bind
    intro failed
    dsimp only
    split
    · exact (Job.only_lift (Memory.only_access trivial)).bind fun _ => Job.only_fail e
    · exact Job.only_fail e

/-- A launch describes a machine as that of the claim, and no machine in another way. -/
theorem launch_describes (h : c.Plain) :
    (c.launch settings).OnlyWhen Event.TemplatesPlain (Call.Describes c.claim.displayName) := by
  unfold launch
  refine (Job.ensures_bind _ _ _).2 ((Job.ensures_lift _ _).2
    ((Plan.ensures_perform (.memory _) _).2 fun inventory => ?_))
  dsimp only
  split
  · exact (Job.ensures_fail _ _).2 fun _ => by simp [Call.Describes]
  next t hfound =>
  intro t' r hrun hgiven
  obtain ⟨hinventory, -⟩ := List.forall_mem_append.1 hgiven
  -- The template is one of those in the inventory that the trace begins with.
  have hzone : '\n' ∉ t.zone.toList :=
    hinventory _ (List.mem_singleton_self _) t (Inventory.mem_of_findForZone hfound)
  refine List.forall_mem_append.2 ⟨by simp [Call.Describes], ?_⟩
  refine Job.Only.bind (only_connect trivial) (fun _ => ?_) t' r hrun
  refine (MachineIds.allocateFrom_only (fun _ => trivial) (fun _ => trivial) _ _).bind
    fun machine => ?_
  refine (Job.only_lift (provision_describes h hzone {})).bind ?_
  rintro ⟨result, stack⟩
  exact conclude_describes machine result stack

end Candidate

namespace Search
variable {settings : Settings} {claim : NodeClaim} {cls : NodeClass} {given : Event → Prop}
  {allowed : Call → Prop}

theorem tryEach_onlyWhen {α : Type} {step : α → List String → Job Progress} {xs : List α}
    (h : ∀ x ∈ xs, ∀ attempts, (step x attempts).OnlyWhen given allowed) (attempts : List String) :
    (tryEach step xs attempts).OnlyWhen given allowed := by
  induction xs generalizing attempts with
  | nil => exact (Job.only_pure _).when
  | cons x xs ih =>
    apply (h x List.mem_cons_self attempts).bind
    intro p
    cases p with
    | found node => exact (Job.only_pure _).when
    | missed attempts => exact ih (fun y hy => h y (List.mem_cons_of_mem x hy)) attempts

theorem tryZone_onlyWhen {shape : InstanceType} {region zone : String}
    (hlaunch : (Candidate.launch settings { claim, cls, shape, region, zone }).OnlyWhen given
      allowed) (hcircumstance : ∀ c, allowed (.circumstance c)) (attempts : List String) :
    (tryZone settings claim cls shape region zone attempts).OnlyWhen given allowed := by
  unfold tryZone
  apply (Job.only_lift (Circumstance.only_learn (hcircumstance _))).when.bind
  intro cut
  dsimp only
  split
  · refine (Job.only_fail _).when.bind fun _ => hlaunch.attempt.bind fun r => ?_
    cases r <;> exact (Job.only_pure _).when
  · apply hlaunch.attempt.bind
    intro r
    cases r <;> exact (Job.only_pure _).when

theorem tryRegion_onlyWhen {shape : InstanceType} {region : String}
    (hlaunch : ∀ zone, (Candidate.launch settings { claim, cls, shape, region, zone }).OnlyWhen
      given allowed) (hask : ∀ q, allowed (.ask q)) (hcircumstance : ∀ c, allowed (.circumstance c))
    (attempts : List String) :
    (tryRegion settings claim cls shape region attempts).OnlyWhen given allowed := by
  have hzones : (candidateZones claim.requirements region shape).Only allowed := by
    unfold candidateZones
    split
    · exact (Plan.only_perform (hask _)).bind fun _ => Plan.only_pure _
    · exact Plan.only_perform (hask _)
  have hordered (zones : List String) : (orderedZones cls region zones).Only allowed :=
    (Plan.only_perform (hask _)).bind fun _ =>
      (Circumstance.only_learn (hcircumstance _)).bind fun _ => Plan.only_pure _
  unfold tryRegion
  apply (Job.only_lift hzones).when.bind
  intro zones
  cases zones with
  | nil => exact (Job.only_pure _).when
  | cons z zs =>
    apply (Job.only_lift (hordered _)).when.bind
    intro ordered
    exact tryEach_onlyWhen (fun zone _ => tryZone_onlyWhen (hlaunch zone) hcircumstance) attempts

end Search

theorem NodeClaim.create_onlyWhen {settings : Settings} {claim : NodeClaim} {cls : NodeClass}
    {types : List InstanceType} {given : Event → Prop} {allowed : Call → Prop}
    (hlaunch : ∀ shape ∈ types, ∀ region zone,
      (Candidate.launch settings { claim, cls, shape, region, zone }).OnlyWhen given allowed)
    (hask : ∀ q, allowed (.ask q)) (hcircumstance : ∀ c, allowed (.circumstance c)) :
    (claim.create settings cls types).OnlyWhen given allowed := by
  unfold create
  refine Job.OnlyWhen.bind (Search.tryEach_onlyWhen (fun shape hshape attempts => ?_) _) fun p => ?_
  · refine (Job.only_lift (Plan.Only.bind (Plan.only_perform (hask _))
      fun _ => Plan.only_pure _)).when.bind fun regions => ?_
    exact Search.tryEach_onlyWhen (fun region _ => Search.tryRegion_onlyWhen
      (hlaunch shape (Placement.mem_priced.1 hshape).1 region) hask hcircumstance) attempts
  · cases p with
    | found node => exact (Job.only_pure node).when
    | missed attempts => exact (Job.only_fail _).when

theorem NodeClaim.create_describes {settings : Settings} {claim : NodeClaim} {cls : NodeClass}
    {types : List InstanceType} (hclaim : Text.Plain claim.displayName)
    (hcls : Text.Plain cls.displayName) (htypes : ∀ shape ∈ types, Text.Plain shape.name) :
    (claim.create settings cls types).OnlyWhen Event.TemplatesPlain
      (Call.Describes claim.displayName) :=
  create_onlyWhen (fun shape hshape _ _ =>
    Candidate.launch_describes ⟨hclaim, hcls, htypes shape hshape⟩) (fun _ => trivial)
    fun _ => trivial

end NodeProvisioner
