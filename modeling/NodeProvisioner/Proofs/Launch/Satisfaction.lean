import NodeProvisioner.Launch.Search
import NodeProvisioner.Proofs.Launch.PriceOrder
import NodeProvisioner.Proofs.Trace

/-! What a candidate for a claim is chosen by, and what its node satisfies by that. The search goes
by the first `In` condition on a region, on a zone and on a capacity type, and by all conditions on
the shape; a class that sets a region has the last word on it, and what is not offered is had on
demand. -/
namespace NodeProvisioner

namespace Undoable
variable {α β : Type} {good : α → Prop} {good' : β → Prop}

/-- Whatever the replies are, what the job gives satisfies `good`, unless it fails. -/
def Returns (good : α → Prop) (u : Undoable α) : Prop :=
  ∀ stack, (u.run stack).Ensures fun _ r => ∀ a, r.1 = .ok a → good a

theorem returns_pure {a : α} (h : good a) : (pure a : Undoable α).Returns good := by
  intro stack
  refine (Plan.ensures_done _ _).2 ?_
  rintro _ ⟨⟩
  exact h

theorem Returns.bind {u : Undoable α} {f : α → Undoable β} (h : u.Returns good)
    (h' : ∀ a, good a → (f a).Returns good') : (u >>= f).Returns good' := by
  intro stack
  refine (Plan.ensures_bind _ _ _).2 ((h stack).mono fun _ r hr => ?_)
  obtain ⟨_ | a, between⟩ := r
  · exact (Plan.ensures_done _ _).2 fun _ => nofun
  · exact h' a (hr a rfl) between

theorem Returns.after {u : Undoable α} {f : α → Undoable β} (h : ∀ a, (f a).Returns good') :
    (u >>= f).Returns good' := by
  have hu : u.Returns fun _ => True := fun _ _ _ _ _ _ => trivial
  exact hu.bind fun a _ => h a

end Undoable

namespace Candidate
open Undoable (returns_pure Returns.after)
variable (settings : Settings) (c : Candidate) (t : TemplateEntry) (machine : MachineId)

def Describes (node : NodeClaim) : Prop :=
  ∃ t machine clone token, node = c.claim.launched (c.facts t machine clone token)

theorem describe_returns (clone : Machine) (views : List GuestInterface) :
    (describe settings c t machine clone views).Returns fun node =>
      ∃ token, node = c.claim.launched (c.facts t machine clone token) := by
  unfold describe
  split
  · exact returns_pure ⟨none, rfl⟩
  · unfold deliverDocuments
    refine Returns.after fun token => Returns.after fun _ => ?_
    refine Returns.after fun ca => Returns.after fun documents => Returns.after fun _ => ?_
    exact returns_pure ⟨some token.id, rfl⟩

theorem provision_returns : (provision settings c t machine).Returns c.Describes := by
  unfold provision
  refine Returns.after fun granted => Returns.after fun clone => Returns.after fun views => ?_
  refine (describe_returns settings c t machine clone views).bind fun node ⟨token, hnode⟩ => ?_
  have hdescribes : c.Describes node := ⟨t, machine, clone, token, hnode⟩
  exact Returns.after fun task => Returns.after fun _ => returns_pure hdescribes

theorem conclude_returns (result : Except Fault NodeClaim) (stack : UndoStack) :
    (conclude settings c machine result stack).Returns fun node => result = .ok node := by
  unfold conclude
  cases result with
  | ok node => exact Job.Returns.after fun _ => Job.returns_pure rfl
  | error e =>
    apply Job.Returns.after
    intro failed
    dsimp only
    split
    · exact Job.Returns.after fun _ => Job.returns_fail e
    · exact Job.returns_fail e

theorem launch_returns : (c.launch settings).Returns c.Describes := by
  unfold launch
  apply Job.Returns.after
  intro inventory
  dsimp only
  split
  · exact Job.returns_fail _
  · next t _ =>
    refine Job.Returns.after fun _ => Job.Returns.after fun machine => ?_
    have hprovision : (liftM ((provision settings c t machine).run {}) : Job _).Returns fun r =>
        ∀ node, r.1 = .ok node → c.Describes node := by
      refine (Job.ensures_lift _ _).2 ((provision_returns settings c t machine {}).mono ?_)
      rintro _ r hr _ ⟨⟩
      exact hr
    refine hprovision.bind ?_
    rintro ⟨result, stack⟩ hresult
    exact Job.Ensures.mono (conclude_returns settings c machine result stack)
      fun _ _ h node hnode => hresult node (h node hnode)

end Candidate

namespace Candidate

/-- The claim's first `In` condition on the capacity type names this one. -/
def Asks (c : Candidate) (asked : CapacityType) : Prop :=
  ∃ r, c.claim.requirements.leading? Label.capacityType = some r ∧ asked.word ∈ r.values

/-- An available offering has the capacity type and is not for another region or zone. One that
names no known capacity type is on demand. -/
def Offers (c : Candidate) (asked : CapacityType) : Prop :=
  ∃ o ∈ c.shape.offerings, o.available = true ∧
    (∀ region, o.labels.get? Label.region = some region → region = c.region) ∧
    (∀ zone, o.labels.get? Label.zone = some zone → zone = c.zone) ∧
    (o.labels.get? Label.capacityType = some asked.word ∨
      asked = .onDemand ∧
        ∀ known : CapacityType, o.labels.get? Label.capacityType ≠ some known.word)

/-- The conditions of the claim that a candidate was chosen by. -/
inductive Heeds (c : Candidate) : Requirement → Prop where
  | region {r : Requirement} (hclass : c.cls.spec.region = none)
      (h : c.claim.requirements.leading? Label.region = some r) (hvalues : r.values ≠ []) :
      Heeds c r
  | zone {r : Requirement} (h : c.claim.requirements.leading? Label.zone = some r)
      (hvalues : r.values ≠ []) : Heeds c r
  | instanceType {r : Requirement} (h : r ∈ c.claim.requirements)
      (hkey : r.key = Label.instanceType)
      (hnamed : ∀ o ∈ c.shape.offerings, o.labels.get? Label.instanceType = some c.shape.name) :
      Heeds c r
  | capacityType {r : Requirement} (h : c.claim.requirements.leading? Label.capacityType = some r)
      {asked : CapacityType} (hasked : c.Asks asked) (hoffered : c.Offers asked) : Heeds c r
  | present {r : Requirement} (h : r.operator = .present)
      (hkey : r.key ∈ [Label.region, Label.zone, Label.instanceType, Label.capacityType]) :
      Heeds c r

structure Chosen (types : List InstanceType) (c : Candidate) : Prop where
  mem : c.shape ∈ types
  offered : ∃ o ∈ c.shape.offerings, o.Open c.claim.requirements
  ofClass : ∀ home, c.cls.spec.region = some home → c.region = home
  region : c.cls.spec.region = none → ∀ r,
    c.claim.requirements.leading? Label.region = some r → r.values ≠ [] → c.region ∈ r.values
  zone : ∀ r, c.claim.requirements.leading? Label.zone = some r → r.values ≠ [] →
    c.zone ∈ r.values

end Candidate

namespace Search
variable {settings : Settings} {claim : NodeClaim} {cls : NodeClass}

def Finds (good : NodeClaim → Prop) (j : Job Progress) : Prop :=
  j.Returns fun p => ∀ node, p = .found node → good node

theorem finds_missed {good : NodeClaim → Prop} (attempts : List String) :
    Finds good (pure (.missed attempts)) :=
  Job.returns_pure fun _ => nofun

theorem tryEach_finds {α : Type} {good : NodeClaim → Prop}
    {step : α → List String → Job Progress} {xs : List α}
    (h : ∀ x ∈ xs, ∀ attempts, Finds good (step x attempts)) (attempts : List String) :
    Finds good (tryEach step xs attempts) := by
  induction xs generalizing attempts with
  | nil => exact finds_missed attempts
  | cons x xs ih =>
    refine (h x List.mem_cons_self attempts).bind fun p hp => ?_
    cases p with
    | found node =>
      refine Job.returns_pure ?_
      rintro _ ⟨⟩
      exact hp node rfl
    | missed attempts => exact ih (fun y hy => h y (List.mem_cons_of_mem x hy)) attempts

def Chosen (claim : NodeClaim) (cls : NodeClass) (types : List InstanceType)
    (node : NodeClaim) : Prop :=
  ∃ c : Candidate, c.claim = claim ∧ c.cls = cls ∧ c.Chosen types ∧ c.Describes node

theorem tryZone_finds {types : List InstanceType} {shape : InstanceType} {region zone : String}
    (h : Candidate.Chosen types { claim, cls, shape, region, zone }) (attempts : List String) :
    Finds (Chosen claim cls types) (tryZone settings claim cls shape region zone attempts) := by
  unfold tryZone
  apply Job.Returns.after
  intro cut
  dsimp only
  split
  · have hcut : (Job.fail cancelled : Job PUnit).Returns fun _ => False := Job.returns_fail _
    exact hcut.bind fun _ => False.elim
  · refine (Candidate.launch_returns settings _).attempt.bind fun r hr => ?_
    cases r with
    | ok node =>
      refine Job.returns_pure ?_
      rintro _ ⟨⟩
      exact ⟨_, rfl, rfl, h, hr node rfl⟩
    | error e => exact finds_missed _

theorem candidateZones_mem (rs : Requirements) (region : String) (shape : InstanceType) :
    (liftM (candidateZones rs region shape) : Job (List String)).Returns fun zones =>
      ∀ zone ∈ zones, ∀ named, Placement.namedZones? rs = some named → zone ∈ named := by
  refine (Job.ensures_lift _ _).2 ?_
  unfold candidateZones
  cases hnamed : Placement.namedZones? rs with
  | none => exact fun _ _ _ _ _ _ _ _ => nofun
  | some named =>
    refine (Plan.ensures_bind _ _ _).2 ((Plan.ensures_perform (.ask _) _).2 fun known => ?_)
    refine (Plan.ensures_pure _ _).2 ?_
    rintro _ ⟨⟩ zone hzone _ ⟨⟩
    exact (List.mem_filter.1 hzone).1

theorem orderedZones_mem (region : String) (zones : List String) :
    (liftM (orderedZones cls region zones) : Job (List String)).Returns fun ordered =>
      ∀ zone ∈ ordered, zone ∈ zones := by
  refine (Job.ensures_lift _ _).2 ?_
  unfold orderedZones
  refine (Plan.ensures_bind _ _ _).2 ((Plan.ensures_perform (.ask _) _).2 fun load => ?_)
  refine (Plan.ensures_bind _ _ _).2 ((Plan.ensures_perform (.circumstance _) _).2 fun draw => ?_)
  refine (Plan.ensures_pure _ _).2 ?_
  rintro _ ⟨⟩ zone hzone
  exact Placement.mem_orderZones hzone

theorem tryRegion_finds {types : List InstanceType} {shape : InstanceType} {region : String}
    (h : ∀ zone, (∀ named, Placement.namedZones? claim.requirements = some named → zone ∈ named) →
      Candidate.Chosen types { claim, cls, shape, region, zone }) (attempts : List String) :
    Finds (Chosen claim cls types) (tryRegion settings claim cls shape region attempts) := by
  unfold tryRegion
  refine (candidateZones_mem _ region shape).bind fun zones hzones => ?_
  cases zones with
  | nil => exact finds_missed _
  | cons z zs =>
    refine (orderedZones_mem region (z :: zs)).bind fun ordered hordered => ?_
    refine tryEach_finds (fun zone hzone => ?_) attempts
    exact tryZone_finds (h zone (hzones zone (hordered zone hzone)))

theorem tryShape_finds {types : List InstanceType} {shape : InstanceType}
    (h : shape ∈ Placement.priced types claim.requirements) (attempts : List String) :
    Finds (Chosen claim cls types) (tryShape settings claim cls shape attempts) := by
  obtain ⟨hmem, hoffered⟩ := Placement.mem_priced.1 h
  have hregions : (liftM (candidateRegions cls claim.requirements) : Job (List String)).Returns
      fun regions => ∃ all, regions = Placement.regions cls claim.requirements all := by
    refine (Job.ensures_lift _ _).2 ?_
    refine (Plan.ensures_bind _ _ _).2 ((Plan.ensures_perform (.ask _) _).2 fun all => ?_)
    refine (Plan.ensures_pure _ _).2 ?_
    rintro _ ⟨⟩
    exact ⟨all, rfl⟩
  refine hregions.bind ?_
  rintro _ ⟨all, rfl⟩
  refine tryEach_finds (fun region hregion => tryRegion_finds fun zone hzone => ?_) attempts
  obtain ⟨hclass, hfree⟩ := Placement.mem_regions hregion
  obtain ⟨o, ho, hcompatible⟩ := hoffered
  exact ⟨hmem, ⟨o, ho, Offering.isCompatible_iff.1 hcompatible⟩, hclass, hfree,
    fun r hr hvalues => hzone _ (Placement.namedZones?_eq hr hvalues)⟩

end Search

theorem NodeClaim.create_chosen (settings : Settings) (claim : NodeClaim) (cls : NodeClass)
    (types : List InstanceType) :
    (claim.create settings cls types).Returns (Search.Chosen claim cls types) := by
  unfold create
  refine (Search.tryEach_finds (fun shape hshape => Search.tryShape_finds hshape) _).bind
    fun p hp => ?_
  cases p with
  | found node => exact Job.returns_pure (hp node rfl)
  | missed attempts => exact Job.returns_fail _

structure Candidate.Labels (c : Candidate) (node : NodeClaim) : Prop where
  region : node.label Label.region = some c.region
  zone : node.label Label.zone = some c.zone
  instanceType : node.label Label.instanceType = some c.shape.name
  capacityType : node.label Label.capacityType = some c.capacityType.word

namespace NodeClaim

theorem get?_bindIfSome (m : Labels) {key key' : String} (value : Option String)
    (h : compare key' key ≠ .eq) : (bindIfSome m key value).get? key' = m.get? key' := by
  cases value with
  | none => rfl
  | some v => exact KeyMap.get?_insert_of_ne m v h

theorem launched_labels (c : Candidate) (t : TemplateEntry) (machine : MachineId)
    (clone : Machine) (token : Option String) :
    c.Labels (c.claim.launched (c.facts t machine clone token)) := by
  unfold launched
  constructor <;> dsimp only [label]
  · rw [get?_bindIfSome _ _ (by decide), KeyMap.get?_insert_of_ne _ _ (by decide),
      KeyMap.get?_insert_of_ne _ _ (by decide), KeyMap.get?_insert_of_ne _ _ (by decide),
      KeyMap.get?_insert_of_ne _ _ (by decide), KeyMap.get?_insert_self]
    rfl
  · rw [get?_bindIfSome _ _ (by decide), KeyMap.get?_insert_of_ne _ _ (by decide),
      KeyMap.get?_insert_of_ne _ _ (by decide), KeyMap.get?_insert_of_ne _ _ (by decide),
      KeyMap.get?_insert_self]
    rfl
  · rw [get?_bindIfSome _ _ (by decide), KeyMap.get?_insert_of_ne _ _ (by decide),
      KeyMap.get?_insert_of_ne _ _ (by decide), KeyMap.get?_insert_self]
    rfl
  · rw [get?_bindIfSome _ _ (by decide), KeyMap.get?_insert_of_ne _ _ (by decide),
      KeyMap.get?_insert_self]
    rfl

end NodeClaim

namespace CapacityType

theorem ofWord?_eq_some {word : String} {capacity : CapacityType} :
    ofWord? word = some capacity ↔ word = capacity.word := by
  constructor
  · intro h
    unfold ofWord? at h
    split at h <;> cases h <;> rfl
  · rintro rfl
    exact ofWord?_word capacity

theorem mem_filterMap_ofWord? {words : List String} {capacity : CapacityType} :
    capacity ∈ words.filterMap ofWord? ↔ capacity.word ∈ words := by
  simp only [List.mem_filterMap, ofWord?_eq_some, exists_eq_right]

end CapacityType

theorem Offering.capacityType_eq {o : Offering} {asked : CapacityType} : o.capacityType = asked ↔
    o.labels.get? Label.capacityType = some asked.word ∨ asked = .onDemand ∧
      ∀ known : CapacityType, o.labels.get? Label.capacityType ≠ some known.word := by
  have hword (known : CapacityType) : o.labels.get? Label.capacityType = some known.word ↔
      (o.labels.get? Label.capacityType).bind CapacityType.ofWord? = some known := by
    simp only [Option.bind_eq_some_iff, CapacityType.ofWord?_eq_some, exists_eq_right]
  simp only [capacityType, ne_eq, hword]
  cases (o.labels.get? Label.capacityType).bind CapacityType.ofWord? <;> simp [eq_comm]

namespace Candidate
variable {c : Candidate} {types : List InstanceType}

theorem Chosen.allows_shape (h : c.Chosen types)
    (hnamed : ∀ o ∈ c.shape.offerings, o.labels.get? Label.instanceType = some c.shape.name) :
    ∀ r ∈ c.claim.requirements, r.key = Label.instanceType →
      r.allows (some c.shape.name) = true := by
  obtain ⟨o, ho, hopen⟩ := h.offered
  exact hopen.allowed _ _ (hnamed o ho)

theorem offers_iff {asked : CapacityType} :
    Placement.offers c.shape c.region c.zone asked = true ↔ c.Offers asked := by
  have hat (value : Option String) (here : String) :
      value.all (· == here) = true ↔ ∀ x, value = some x → x = here := by
    cases value <;> simp
  simp only [Placement.offers, Offers, List.any_eq_true, Bool.and_eq_true, beq_iff_eq, hat,
    Offering.capacityType_eq, and_assoc, Offering.region, Offering.zone]

theorem capacityType_of_leading {r : Requirement}
    (h : c.claim.requirements.leading? Label.capacityType = some r) :
    c.capacityType = ((r.values.filterMap CapacityType.ofWord?).find?
      (Placement.offers c.shape c.region c.zone)).getD .onDemand := by
  unfold capacityType Placement.capacityType
  rw [Requirements.values_eq, h]
  rfl

theorem capacityType_eq_onDemand (h : ∀ asked, c.Asks asked → ¬ c.Offers asked) :
    c.capacityType = .onDemand := by
  cases hr : c.claim.requirements.leading? Label.capacityType with
  | none =>
    unfold capacityType Placement.capacityType
    rw [Requirements.values_eq, hr]
    rfl
  | some r =>
    rw [capacityType_of_leading hr, List.find?_eq_none.2 fun asked hasked => ?_]
    · rfl
    · have hword := CapacityType.mem_filterMap_ofWord?.1 hasked
      exact fun hoffers => h asked ⟨r, hr, hword⟩ (offers_iff.1 hoffers)

theorem asks_capacityType {asked : CapacityType} (hasked : c.Asks asked) (h : c.Offers asked) :
    c.Asks c.capacityType := by
  obtain ⟨r, hr, hword⟩ := hasked
  have hsome : ((r.values.filterMap CapacityType.ofWord?).find?
      (Placement.offers c.shape c.region c.zone)).isSome = true :=
    List.find?_isSome.2 ⟨asked, CapacityType.mem_filterMap_ofWord?.2 hword, offers_iff.2 h⟩
  obtain ⟨found, hfound⟩ := Option.isSome_iff_exists.1 hsome
  -- The first type of the condition that is offered is the one that is taken.
  rw [capacityType_of_leading hr, hfound]
  exact ⟨r, hr, CapacityType.mem_filterMap_ofWord?.1 (List.mem_of_find?_eq_some hfound)⟩

/-- The node of a candidate that was chosen satisfies what the choice went by. -/
theorem Chosen.allows (h : c.Chosen types) {node : NodeClaim} (hnode : c.Labels node)
    {r : Requirement} (hr : c.Heeds r) : r.allows (node.label r.key) = true := by
  cases hr with
  | region hclass hleading hvalues =>
    rw [(Requirements.leading?_some hleading).1, hnode.region]
    exact Requirements.allows_leading hleading (h.region hclass r hleading hvalues)
  | zone hleading hvalues =>
    rw [(Requirements.leading?_some hleading).1, hnode.zone]
    exact Requirements.allows_leading hleading (h.zone r hleading hvalues)
  | instanceType hmem hkey hnamed =>
    rw [hkey, hnode.instanceType]
    exact h.allows_shape hnamed r hmem hkey
  | capacityType hleading hasked hoffered =>
    rw [(Requirements.leading?_some hleading).1, hnode.capacityType]
    obtain ⟨r', hleading', hword⟩ := asks_capacityType hasked hoffered
    rw [hleading] at hleading'
    cases hleading'
    exact Requirements.allows_leading hleading hword
  | present hpresent hkey =>
    have hset : (node.label r.key).isSome = true := by
      simp only [List.mem_cons, List.not_mem_nil, or_false] at hkey
      rcases hkey with hkey | hkey | hkey | hkey <;> rw [hkey]
      · rw [hnode.region]; rfl
      · rw [hnode.zone]; rfl
      · rw [hnode.instanceType]; rfl
      · rw [hnode.capacityType]; rfl
    simpa [Requirement.allows, hpresent] using hset

end Candidate

namespace Search

def claimOf (rs : Requirements) : NodeClaim where
  name := some "a"
  spec := { nodeClass := { name := "default" }, requirements := rs }

def classIn (region : Option String) : NodeClass where
  name := some "default"
  spec := { template := "noble", region }

def shapeWith (labels : Labels) : InstanceType where
  name := "m.large"
  capacity := {}
  offerings := [{ price := default, available := true, labels }]

end Search
end NodeProvisioner
