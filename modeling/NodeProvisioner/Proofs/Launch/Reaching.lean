import Mathlib
import NodeProvisioner.Proofs.Launch.Growing
import NodeProvisioner.Proofs.Launch.Satisfaction

/-! That every candidate that can be chosen is also come to. With the right replies the search
passes over all places before it and launches a node there, so that a claim is only sure to be
satisfied if all these candidates satisfy it. -/
namespace NodeProvisioner

/-! ### Some replies -/

/-- Some replies lead to a result that satisfies `good`. -/
def Plan.Reaches {α : Type} (good : α → Prop) (p : Plan α) : Prop := ∃ t a, p.Yields t a ∧ good a

def Job.Reaches {α : Type} (good : α → Prop) (j : Job α) : Prop :=
  j.run.Reaches fun r => ∃ a, r = .ok a ∧ good a

/-- Whatever is recorded already, some replies lead to a success. -/
def Undoable.Succeeds {α : Type} (u : Undoable α) : Prop :=
  ∀ stack, (u.run stack).Reaches fun r => ∃ a, r.1 = .ok a

namespace Plan
variable {α β : Type} {good : α → Prop} {good' : β → Prop}

theorem reaches_done {a : α} (h : good a) : (Plan.done a).Reaches good := ⟨[], a, .done a, h⟩

theorem reaches_perform {c : Call} (r : c.Reply) : (perform c).Reaches (· = r) :=
  ⟨[⟨c, r⟩], r, .call r (.done r), rfl⟩

theorem Reaches.bind {p : Plan α} {f : α → Plan β} (h : p.Reaches good)
    (h' : ∀ a, good a → (f a).Reaches good') : (p >>= f).Reaches good' := by
  obtain ⟨t, a, hrun, ha⟩ := h
  obtain ⟨t', b, hrun', hb⟩ := h' a ha
  exact ⟨t ++ t', b, hrun.bind hrun', hb⟩

end Plan

namespace Job
variable {α β : Type} {good : α → Prop} {good' : β → Prop}

theorem reaches_pure {a : α} (h : good a) : (pure a : Job α).Reaches good :=
  Plan.reaches_done ⟨a, rfl, h⟩

theorem reaches_lift {p : Plan α} (h : p.Reaches good) : (liftM p : Job α).Reaches good := by
  obtain ⟨t, a, hrun, ha⟩ := h
  refine ⟨t, .ok a, ?_, a, rfl, ha⟩
  rw [← List.append_nil t]
  exact hrun.bind (.done _)

theorem Reaches.bind {j : Job α} {f : α → Job β} (h : j.Reaches good)
    (h' : ∀ a, good a → (f a).Reaches good') : (j >>= f).Reaches good' := by
  refine Plan.Reaches.bind h ?_
  rintro _ ⟨a, rfl, ha⟩
  exact h' a ha

theorem Reaches.returning {good' : α → Prop} {j : Job α} (h : j.Reaches good)
    (h' : j.Returns good') : j.Reaches good' := by
  obtain ⟨t, _, hrun, a, rfl, -⟩ := h
  exact ⟨t, .ok a, hrun, a, rfl, h' t _ hrun a rfl⟩

theorem Reaches.attempt {j : Job α} (h : j.Reaches good) :
    j.attempt.Reaches fun r => ∃ a, r = .ok a ∧ good a := by
  obtain ⟨t, _, hrun, a, rfl, ha⟩ := h
  refine ⟨t, .ok (.ok a), ?_, _, rfl, a, rfl, ha⟩
  rw [← List.append_nil t]
  exact hrun.bind (.done _)

theorem Reaches.tolerate {j : Job α} (h : j.Reaches good) : j.tolerate.Reaches fun _ => True :=
  Plan.Reaches.bind h fun _ _ => Plan.reaches_done trivial

end Job

theorem reaches_connect (region : String) : (connect region).Reaches fun _ => True :=
  ⟨[⟨.connect region, .ok ()⟩], _, .call _ (.done _), (), rfl, trivial⟩

theorem Hypervisor.reaches_send (region : String) {q : Request} (a : q.Answer) :
    (send region q).Reaches (· = a) :=
  ⟨[⟨.hypervisor region q, .ok a⟩], _, .call _ (.done _), a, rfl, rfl⟩

theorem Capacity.reaches_send {q : Request} (a : q.Answer) : (send q).Reaches (· = a) :=
  ⟨[⟨.capacity q, .ok a⟩], _, .call _ (.done _), a, rfl, rfl⟩

theorem Bootstrap.reaches_send {q : Request} (a : q.Answer) : (send q).Reaches (· = a) :=
  ⟨[⟨.bootstrap q, .ok a⟩], _, .call _ (.done _), a, rfl, rfl⟩

theorem Task.reaches_succeed (p : Patience) (heeds : Bool) (region zone : String) (task : TaskId) :
    (succeed p heeds region zone task).Reaches fun _ => True :=
  ⟨_, _, succeed_yields, (), rfl, trivial⟩

namespace Undoable
variable {α β : Type} {good : α → Prop}

theorem succeeds_pure (a : α) : (pure a : Undoable α).Succeeds :=
  fun _ => Plan.reaches_done ⟨a, rfl⟩

theorem Succeeds.bind {u : Undoable α} {f : α → Undoable β} (h : u.Succeeds)
    (h' : ∀ a, (f a).Succeeds) : (u >>= f).Succeeds := by
  refine fun stack => Plan.Reaches.bind (h stack) ?_
  rintro ⟨_, between⟩ ⟨a, rfl⟩
  exact h' a between

/-- A job comes first, and what follows need only succeed after the results it is known to give. -/
theorem succeeds_lift_bind {j : Job α} {f : α → Undoable β} (h : j.Reaches good)
    (h' : ∀ a, good a → (f a).Succeeds) : ((liftM j : Undoable α) >>= f).Succeeds := by
  obtain ⟨t, _, hrun, a, rfl, ha⟩ := h
  intro stack
  obtain ⟨t', r, hrun', hr⟩ := h' a ha stack
  exact ⟨t ++ t', r, yields_bind (yields_lift hrun) hrun', hr⟩

end Undoable

/-! ### A launch that succeeds -/

namespace Candidate
open Undoable (succeeds_pure succeeds_lift_bind)
variable (settings : Settings) (c : Candidate) (t : TemplateEntry) (machine : MachineId)

def bootable : Machine where
  disks := .ofList [("scsi0", { volume := "local:1" })]

theorem applyGroups_reaches (groups : List SecurityGroup) :
    (c.applyGroups machine groups).Reaches fun _ => True := by
  induction groups with
  | nil => exact Job.reaches_pure trivial
  | cons g gs ih => exact (Hypervisor.reaches_send c.region ()).bind fun _ _ => ih

theorem shapeClone_reaches (granted : Reservation) :
    (shapeClone settings c t machine granted bootable).Reaches fun _ => True := by
  have hboot : bootable.bootDisk? = some ("scsi0", { volume := "local:1" }) := by decide +kernel
  have hviews : (Networking.configure ⟨c.region, c.zone, machine⟩ bootable).Reaches
      fun _ => True := Job.reaches_pure trivial
  have hrest : (do
      let views ← Networking.configure ⟨c.region, c.zone, machine⟩ bootable
      c.applyGroups machine c.cls.spec.securityGroups
      return views : Job (List GuestInterface)).Reaches fun _ => True :=
    hviews.bind fun views _ => (applyGroups_reaches c machine _).bind fun _ _ =>
      Job.reaches_pure trivial
  refine (Hypervisor.reaches_send c.region ()).bind fun _ _ => ?_
  dsimp only
  rw [hboot]
  dsimp only
  split
  · exact (Hypervisor.reaches_send c.region ()).bind fun _ _ => hrest
  · exact hrest

theorem describe_succeeds (views : List GuestInterface) :
    (describe settings c t machine bootable views).Succeeds := by
  unfold describe
  split
  · exact succeeds_pure _
  · unfold deliverDocuments
    refine succeeds_lift_bind (Bootstrap.reaches_send (q := .issueToken _ _) default)
      fun token _ => ?_
    refine Undoable.Succeeds.bind (fun stack => Plan.reaches_done ⟨(), rfl⟩) fun _ => ?_
    refine succeeds_lift_bind (Bootstrap.reaches_send (q := .clusterCa) "") fun ca _ => ?_
    refine succeeds_lift_bind (Bootstrap.reaches_send (q := .render _) default)
      fun documents _ => ?_
    exact succeeds_lift_bind (Hypervisor.reaches_send c.region (q := .attachDocuments _ _ _ _) ())
      fun _ _ => succeeds_pure _

theorem provision_succeeds : (provision settings c t machine).Succeeds := by
  refine Undoable.Succeeds.bind (fun stack => ?_) fun granted => ?_
  · exact ⟨_, _, cloneTemplate_yields default "" stack, _, rfl⟩
  refine succeeds_lift_bind (Hypervisor.reaches_send c.region bootable) ?_
  rintro clone rfl
  refine succeeds_lift_bind (shapeClone_reaches settings c t machine granted) fun views _ => ?_
  refine (describe_succeeds settings c t machine views).bind fun node => ?_
  refine succeeds_lift_bind (Hypervisor.reaches_send c.region "") fun task _ => ?_
  exact succeeds_lift_bind (Task.reaches_succeed _ _ _ _ _) fun _ _ => succeeds_pure node

def template : TemplateEntry where
  name := c.cls.spec.template
  region := c.region
  zone := c.zone
  usability := .available

theorem findForZone_template :
    (Inventory.publish ∅ c.region [c.template]).findForZone c.region c.zone c.cls.spec.template =
      some c.template := by
  have hvalues : (Inventory.publish ∅ c.region [c.template]).values = [[c.template]] := rfl
  have hselect : (Inventory.publish ∅ c.region [c.template]).select [.region c.region,
      .name c.cls.spec.template, .zone c.zone] = [c.template] := by
    rw [Inventory.select, hvalues]
    simp [template, TemplateFilter.accepts]
  rw [Inventory.findForZone, hselect]
  rfl

theorem launch_reaches : (c.launch settings).Reaches c.Describes := by
  have hgranted : (c.launch settings).Reaches fun _ => True := by
    unfold launch
    refine (Job.reaches_lift
      (Plan.reaches_perform (Inventory.publish ∅ c.region [c.template]))).bind ?_
    rintro _ rfl
    dsimp only
    rw [findForZone_template]
    dsimp only
    refine (reaches_connect c.region).bind fun _ _ => ?_
    have hallocate :
        (MachineIds.allocate c.region settings.machineIdFloor).Reaches fun _ => True := by
      refine (Hypervisor.reaches_send c.region settings.machineIdFloor).bind fun id _ => ?_
      refine (Job.reaches_lift (Plan.reaches_perform true)).bind ?_
      rintro _ rfl
      exact Job.reaches_pure trivial
    refine hallocate.bind fun machine _ => ?_
    refine (Job.reaches_lift (provision_succeeds settings c c.template machine {})).bind ?_
    rintro ⟨_, stack⟩ ⟨node, rfl⟩
    refine Job.Reaches.bind (Job.reaches_lift (Capacity.reaches_send ()).tolerate) fun _ _ => ?_
    exact Job.reaches_pure trivial
  exact hgranted.returning (launch_returns settings c)

end Candidate

/-! ### The search for it -/

namespace Search
variable (settings : Settings) (claim : NodeClaim) (cls : NodeClass)

def Missed (p : Progress) : Prop := ∃ attempts, p = .missed attempts

def Found (good : NodeClaim → Prop) (p : Progress) : Prop := ∃ node, p = .found node ∧ good node

theorem tryEach_reaches {α : Type} {good : NodeClaim → Prop} {step : α → List String → Job Progress}
    {x : α} {xs : List α} (hx : x ∈ xs)
    (hmissed : ∀ y ∈ xs, y ≠ x → ∀ attempts, (step y attempts).Reaches Missed)
    (hfound : ∀ attempts, (step x attempts).Reaches (Found good)) (attempts : List String) :
    (tryEach step xs attempts).Reaches (Found good) := by
  induction xs generalizing attempts with
  | nil => cases hx
  | cons y ys ih =>
    by_cases hy : y = x
    · subst hy
      refine (hfound attempts).bind ?_
      rintro _ ⟨node, rfl, hnode⟩
      exact Job.reaches_pure ⟨node, rfl, hnode⟩
    · refine (hmissed y List.mem_cons_self hy attempts).bind ?_
      rintro _ ⟨attempts, rfl⟩
      have hrest := List.mem_of_ne_of_mem (Ne.symm hy) hx
      exact ih hrest (fun z hz => hmissed z (List.mem_cons_of_mem y hz)) attempts

theorem tryEach_misses {α : Type} {step : α → List String → Job Progress} {xs : List α}
    (h : ∀ x ∈ xs, ∀ attempts, (step x attempts).Reaches Missed) (attempts : List String) :
    (tryEach step xs attempts).Reaches Missed := by
  induction xs generalizing attempts with
  | nil => exact Job.reaches_pure ⟨attempts, rfl⟩
  | cons x xs ih =>
    refine (h x List.mem_cons_self attempts).bind ?_
    rintro _ ⟨attempts, rfl⟩
    exact ih (fun y hy => h y (List.mem_cons_of_mem x hy)) attempts

theorem tryRegion_misses (shape : InstanceType) (region : String) (attempts : List String) :
    (tryRegion settings claim cls shape region attempts).Reaches Missed := by
  have hzones : (candidateZones claim.requirements region shape).Reaches (· = []) := by
    unfold candidateZones
    split
    · refine (Plan.reaches_perform (c := .ask (.zones region)) []).bind ?_
      rintro _ rfl
      exact Plan.reaches_done (by simp)
    · exact Plan.reaches_perform (c := .ask (.zonesWithRoom region shape.capacity)) []
  refine (Job.reaches_lift hzones).bind ?_
  rintro _ rfl
  exact Job.reaches_pure ⟨_, rfl⟩

theorem tryShape_misses (shape : InstanceType) (attempts : List String) :
    (tryShape settings claim cls shape attempts).Reaches Missed := by
  have hregions : (candidateRegions cls claim.requirements).Reaches fun _ => True :=
    (Plan.reaches_perform (c := .ask .capacityRegions) []).bind fun _ _ =>
      Plan.reaches_done trivial
  exact (Job.reaches_lift hregions).bind fun regions _ =>
    tryEach_misses (fun region _ => tryRegion_misses settings claim cls shape region) attempts

section candidate
variable (c : Candidate)

theorem tryZone_reaches (attempts : List String) :
    (tryZone settings c.claim c.cls c.shape c.region c.zone attempts).Reaches
      (Found c.Describes) := by
  refine (Job.reaches_lift (Plan.reaches_perform false)).bind ?_
  rintro _ rfl
  refine (Candidate.launch_reaches settings c).attempt.bind ?_
  rintro _ ⟨node, rfl, hnode⟩
  exact Job.reaches_pure ⟨node, rfl, hnode⟩

theorem candidateZones_reaches (hzone : ∀ named,
    Placement.namedZones? c.claim.requirements = some named → c.zone ∈ named) :
    (candidateZones c.claim.requirements c.region c.shape).Reaches fun zones =>
      c.zone ∈ zones ∧ ∀ zone ∈ zones, zone = c.zone := by
  unfold candidateZones
  split
  · next named hnamed =>
    refine (Plan.reaches_perform [c.zone]).bind ?_
    rintro _ rfl
    exact Plan.reaches_done (by simp [hzone named hnamed])
  · refine ⟨_, _, .call [c.zone] (.done _), ?_⟩
    simp

theorem tryRegion_reaches (hzone : ∀ named,
    Placement.namedZones? c.claim.requirements = some named → c.zone ∈ named)
    (attempts : List String) :
    (tryRegion settings c.claim c.cls c.shape c.region attempts).Reaches (Found c.Describes) := by
  refine (Job.reaches_lift (candidateZones_reaches c hzone)).bind ?_
  rintro zones ⟨hmem, honly⟩
  obtain ⟨z, zs, rfl⟩ := List.exists_cons_of_ne_nil (List.ne_nil_of_mem hmem)
  have hordered : (orderedZones c.cls c.region (z :: zs)).Reaches fun ordered =>
      ordered.Perm (z :: zs) :=
    (Plan.reaches_perform fun _ => .zero).bind fun load _ => (Plan.reaches_perform id).bind
      fun draw _ => Plan.reaches_done (Placement.orderZones_perm _ load draw _)
  refine (Job.reaches_lift hordered).bind fun ordered hperm => ?_
  refine tryEach_reaches (hperm.mem_iff.2 hmem) (fun zone hzone' hne => ?_)
    (tryZone_reaches settings c) attempts
  exact absurd (honly zone (hperm.mem_iff.1 hzone')) hne

end candidate
end Search

theorem Candidate.Chosen.reaches {settings : Settings} {c : Candidate} {types : List InstanceType}
    (h : c.Chosen types) : (c.claim.create settings c.cls types).Reaches c.Describes := by
  have hzone (named : List String)
      (hnamed : Placement.namedZones? c.claim.requirements = some named) : c.zone ∈ named := by
    obtain ⟨r, hr, rfl, hvalues⟩ := Placement.leading?_of_namedZones? hnamed
    exact h.zone r hr hvalues
  have hregions : (Search.candidateRegions c.cls c.claim.requirements).Reaches
      fun regions => c.region ∈ regions :=
    (Plan.reaches_perform [c.region]).bind fun _ hall => Plan.reaches_done
      (hall ▸ Placement.mem_regions_self h.ofClass h.region)
  have hshape (attempts : List String) : (Search.tryShape settings c.claim c.cls c.shape
      attempts).Reaches (Search.Found c.Describes) :=
    (Job.reaches_lift hregions).bind fun regions hregion =>
      Search.tryEach_reaches hregion (fun region _ _ => Search.tryRegion_misses _ _ _ _ region)
        (Search.tryRegion_reaches settings c hzone) attempts
  obtain ⟨o, ho, hopen⟩ := h.offered
  have hpriced : c.shape ∈ Placement.priced types c.claim.requirements :=
    Placement.mem_priced.2 ⟨h.mem, o, ho, Offering.isCompatible_iff.2 hopen⟩
  refine (Search.tryEach_reaches hpriced
    (fun shape _ _ => Search.tryShape_misses _ _ _ shape) hshape _).bind ?_
  rintro _ ⟨node, rfl, hnode⟩
  exact Job.reaches_pure hnode

/-! ### What all of them satisfy -/

/-- Each of the four labels that a launch decides on is there, and no condition forbids it. -/
def NodeClaim.Satisfies (node : NodeClaim) (rs : Requirements) : Prop :=
  ∀ key ∈ ["topology.kubernetes.io/region", "topology.kubernetes.io/zone",
      "node.kubernetes.io/instance-type", "karpenter.sh/capacity-type"],
    ∃ value, node.label key = some value ∧ rs.allows key value = true

/-- What a node of the candidate carries under the key of the condition is allowed by it. -/
structure Candidate.Fits (c : Candidate) (r : Requirement) : Prop where
  region : r.key = Label.region → r.allows (some c.region) = true
  zone : r.key = Label.zone → r.allows (some c.zone) = true
  instanceType : r.key = Label.instanceType → r.allows (some c.shape.name) = true
  capacityType : r.key = Label.capacityType → r.allows (some c.capacityType.word) = true

section satisfies
variable {c : Candidate} {node : NodeClaim} {rs : Requirements}

theorem Candidate.Labels.satisfies_iff (h : c.Labels node) :
    node.Satisfies rs ↔ rs.allows Label.region c.region = true ∧
      rs.allows Label.zone c.zone = true ∧
      rs.allows Label.instanceType c.shape.name = true ∧
      rs.allows Label.capacityType c.capacityType.word = true := by
  have hkeys : node.Satisfies rs ↔
      ∀ key ∈ [Label.region, Label.zone, Label.instanceType, Label.capacityType],
        ∃ value, node.label key = some value ∧ rs.allows key value = true := Iff.rfl
  simp [hkeys, h.region, h.zone, h.instanceType, h.capacityType]

theorem Candidate.Labels.satisfies_iff_fits (h : c.Labels node) :
    node.Satisfies rs ↔ ∀ r ∈ rs, c.Fits r := by
  simp only [h.satisfies_iff, Requirements.allows_iff]
  constructor
  · rintro ⟨hregion, hzone, hshape, hcapacity⟩ r hr
    exact ⟨hregion r hr, hzone r hr, hshape r hr, hcapacity r hr⟩
  · intro hfits
    exact ⟨fun r hr => (hfits r hr).region, fun r hr => (hfits r hr).zone,
      fun r hr => (hfits r hr).instanceType, fun r hr => (hfits r hr).capacityType⟩

theorem Candidate.Chosen.fits {types : List InstanceType} (h : c.Chosen types)
    (hlabels : c.Labels node) {r : Requirement} (hr : c.Heeds r) : c.Fits r where
  region hkey := by
    have hallows := h.allows hlabels hr
    rwa [hkey, hlabels.region] at hallows
  zone hkey := by
    have hallows := h.allows hlabels hr
    rwa [hkey, hlabels.zone] at hallows
  instanceType hkey := by
    have hallows := h.allows hlabels hr
    rwa [hkey, hlabels.instanceType] at hallows
  capacityType hkey := by
    have hallows := h.allows hlabels hr
    rwa [hkey, hlabels.capacityType] at hallows

end satisfies

/-- Whatever is answered, the nodes of a claim satisfy it, exactly if every candidate that can be
chosen does: what the choice goes by it satisfies anyway, and the rest must be allowed there. -/
theorem NodeClaim.create_satisfies_iff (settings : Settings) (claim : NodeClaim) (cls : NodeClass)
    (types : List InstanceType) :
    (∀ t node, (claim.create settings cls types).run.Yields t (.ok node) →
      node.Satisfies claim.requirements) ↔
    ∀ c : Candidate, c.claim = claim → c.cls = cls → c.Chosen types →
      ∀ r ∈ claim.requirements, ¬ c.Heeds r → c.Fits r := by
  constructor
  · rintro hall c rfl rfl hchosen r hr -
    obtain ⟨t, _, hrun, node, rfl, entry, machine, clone, token, rfl⟩ :=
      @Candidate.Chosen.reaches settings c types hchosen
    have hlabels := launched_labels c entry machine clone token
    exact hlabels.satisfies_iff_fits.1 (hall t _ hrun) r hr
  · intro hfits t node hrun
    obtain ⟨c, rfl, rfl, hchosen, entry, machine, clone, token, rfl⟩ :=
      create_chosen settings claim cls types t _ hrun node rfl
    have hlabels := launched_labels c entry machine clone token
    refine hlabels.satisfies_iff_fits.2 fun r hr => ?_
    by_cases hheeds : c.Heeds r
    · exact hchosen.fits hlabels hheeds
    · exact hfits c rfl rfl hchosen r hr hheeds

namespace Search

/-- Every label is asked for, with values among which the only candidate can be found. -/
def met : Requirements :=
  [.isIn Label.region ["r1"], .isIn Label.zone ["z1", "z2"], .isIn Label.instanceType ["m.large"],
    .isIn Label.capacityType ["spot", "on-demand"]]

def namedShape : InstanceType := shapeWith (.ofList [(Label.instanceType, "m.large")])

def avoided : Requirements := [⟨Label.zone, .notIn, ["z1"]⟩]

def ruledOut : Requirements :=
  [⟨Label.region, .notIn, ["r1"]⟩, ⟨Label.zone, .notIn, ["z1"]⟩,
    ⟨Label.instanceType, .notIn, ["m.large"]⟩, ⟨Label.capacityType, .notIn, ["on-demand"]⟩]

/-- The first condition on each label leaves a choice, and the second one makes it. -/
def narrowed : Requirements :=
  [.isIn Label.region ["r1", "r2"], .isIn Label.region ["r2"],
    .isIn Label.zone ["z1", "z2"], .isIn Label.zone ["z2"],
    .isIn Label.instanceType ["m.large", "m.small"], .isIn Label.instanceType ["m.small"],
    .isIn Label.capacityType ["on-demand", "spot"], .isIn Label.capacityType ["spot"]]

def offeringIn (zone : String) : Offering where
  price := default
  available := true
  labels := .ofList
    [(Label.capacityType, "on-demand"), (Label.region, "r1"), (Label.zone, zone)]

def twoOfferings : InstanceType where
  name := "small"
  capacity := {}
  offerings := [offeringIn "z1", offeringIn "z2"]

/-- Both zones have room and a template, and the first one is the idler. -/
def twoRooms : (c : Call) → c.Reply
  | .ask (.zonesWithRoom _ _) => ["z1", "z2"]
  | .ask (.loads _) => fun zone =>
    if zone = "z1" then ⟨0x4034000000000000⟩ else ⟨0x4054000000000000⟩
  | .memory .inventory => .publish ∅ "r1" (["z1", "z2"].map fun zone =>
    { name := "noble", region := "r1", zone, machine := 901, usability := .available })
  | c => c.grant

end Search
open Search

theorem NodeClaim.create_satisfies_iff_met :
    (∃ t node, ((claimOf met).create {} (classIn none) [namedShape]).run.Yields t (.ok node)) ∧
    ∀ t node, ((claimOf met).create {} (classIn none) [namedShape]).run.Yields t (.ok node) →
      node.Satisfies met := by
  constructor
  · have hplay : (((claimOf met).create {} (classIn none) [namedShape]).run.play
        (fun _ => Call.grant) []).2.toOption.map (fun _ => ()) = some () := by decide +kernel
    obtain ⟨t, node, hrun, -⟩ := Job.yields_of_play _ hplay
    exact ⟨t, node, hrun⟩
  refine (create_satisfies_iff {} (claimOf met) (classIn none) [namedShape]).2 ?_
  intro c hclaim hcls hchosen r hr hunheeded
  have hmet : c.claim.requirements = met := by rw [hclaim]; rfl
  have hfree : c.cls.spec.region = none := by rw [hcls]; rfl
  have hnamed : ∀ o ∈ c.shape.offerings,
      o.labels.get? Label.instanceType = some c.shape.name := by
    rw [List.mem_singleton.1 hchosen.mem]
    decide
  simp only [claimOf, NodeClaim.requirements, met, List.mem_cons, List.not_mem_nil, or_false] at hr
  rcases hr with rfl | rfl | rfl | rfl
  · exact absurd (.region hfree (by rw [hmet]; decide) (by decide)) hunheeded
  · exact absurd (.zone (by rw [hmet]; decide) (by decide)) hunheeded
  · exact absurd (.instanceType (by rw [hmet]; decide) rfl hnamed) hunheeded
  · have hnone (asked : CapacityType) (hasked : c.Asks asked) : ¬ c.Offers asked := fun hoffered =>
      hunheeded (.capacityType (by rw [hmet]; decide) hasked hoffered)
    -- What is not offered is had on demand, which is asked for as well.
    have hcapacity := Candidate.capacityType_eq_onDemand hnone
    exact ⟨fun hkey => absurd hkey (by decide), fun hkey => absurd hkey (by decide),
      fun hkey => absurd hkey (by decide), fun _ => by rw [hcapacity]; decide⟩

/-- A creation can give a node that violates the conditions on all four labels. -/
def Search.Violated (rs : Requirements) : Prop :=
  ∃ t node, ((claimOf rs).create {} (classIn none) [shapeWith ∅]).run.Yields t (.ok node) ∧
    ∀ key ∈ [Label.region, Label.zone, Label.instanceType, Label.capacityType],
      ∃ value, node.label key = some value ∧ rs.allows key value = false

theorem Search.violated_of_play {rs : Requirements}
    (hplay : (((claimOf rs).create {} (classIn none) [shapeWith ∅]).run.play
      (fun _ => Call.grant) []).2.toOption.map (fun node => [Label.region, Label.zone,
        Label.instanceType, Label.capacityType].map node.label) =
      some [some "r1", some "z1", some "m.large", some "on-demand"])
    (hregion : rs.allows Label.region "r1" = false) (hzone : rs.allows Label.zone "z1" = false)
    (hshape : rs.allows Label.instanceType "m.large" = false)
    (hcapacity : rs.allows Label.capacityType "on-demand" = false) : Violated rs := by
  obtain ⟨t, node, hrun, hlabels⟩ := Job.yields_of_play _ hplay
  simp only [List.map_cons, List.map_nil, List.cons.injEq] at hlabels
  obtain ⟨hregion', hzone', hshape', hcapacity', -⟩ := hlabels
  refine ⟨t, node, hrun, ?_⟩
  simp only [List.forall_mem_cons, List.not_mem_nil, false_implies, implies_true, and_true]
  exact ⟨⟨_, hregion', hregion⟩, ⟨_, hzone', hzone⟩, ⟨_, hshape', hshape⟩,
    ⟨_, hcapacity', hcapacity⟩⟩

/-- The idler zone is taken although it is ruled out and the other one would do; values that are
only ruled out, and all but the first `In` condition, count on no label. -/
theorem NodeClaim.not_create_satisfies_avoided :
    (∃ t node, ((claimOf avoided).create {} (classIn (some "r1")) [twoOfferings]).run.Yields t
        (.ok node) ∧ node.label Label.zone = some "z1" ∧ ¬ node.Satisfies avoided) ∧
      avoided.allows Label.zone "z2" = true ∧ Violated ruledOut ∧ Violated narrowed := by
  refine ⟨?_, by decide, ?_, ?_⟩
  · have hplay : (((claimOf avoided).create {} (classIn (some "r1")) [twoOfferings]).run.play
        (fun _ => twoRooms) []).2.toOption.map (fun node => node.label Label.zone) =
        some (some "z1") := by cbv
    obtain ⟨t, node, hrun, hzone⟩ := Job.yields_of_play _ hplay
    refine ⟨t, node, hrun, hzone, fun hsatisfies => ?_⟩
    obtain ⟨value, hvalue, hallowed⟩ := hsatisfies Label.zone (by decide)
    rw [hzone] at hvalue
    cases hvalue
    exact absurd hallowed (by decide)
  · exact violated_of_play (by decide +kernel) (by decide) (by decide) (by decide) (by decide)
  · exact violated_of_play (by decide +kernel) (by decide) (by decide) (by decide) (by decide)

end NodeProvisioner
