import NodeProvisioner.Proofs.Launch.Describing
import NodeProvisioner.Proofs.Launch.Recording
import NodeProvisioner.Proofs.Launch.Satisfaction
import NodeProvisioner.Proofs.Launch.Shaping

/-! A machine is told as the node that it was launched as. What a launch returns is put together
from what it knows; what is told later is read off the options that the launch has written. -/
namespace NodeProvisioner

/-! ### Rounding -/

structure RoundedUp (unit n r : Nat) : Prop where
  multiple : unit ∣ r
  le : n ≤ r
  least : ∀ k, unit ∣ k → n ≤ k → r ≤ k

namespace Quantities

theorem ceilDiv_le_iff {unit : Nat} (hunit : 0 < unit) {n k : Nat} :
    ceilDiv n unit ≤ k ↔ n ≤ k * unit := by
  rw [ceilDiv, Nat.div_le_iff_le_mul hunit]
  omega

theorem roundedUp_ceilDiv {unit : Nat} (hunit : 0 < unit) (n : Nat) :
    RoundedUp unit n (ceilDiv n unit * unit) := by
  constructor
  · exact Nat.dvd_mul_left unit _
  · exact (ceilDiv_le_iff hunit).1 (Nat.le_refl _)
  · rintro _ ⟨k, rfl⟩ hle
    rw [Nat.mul_comm unit] at hle ⊢
    exact Nat.mul_le_mul_right unit ((ceilDiv_le_iff hunit).2 hle)

/-- Whole cores and whole MiB instead of what was asked for. -/
structure Rounds (q q' : Quantities) : Prop where
  cpu : RoundedUp 1000 q.cpuMillis.toNat q'.cpuMillis.toNat
  memory : ∃ r, RoundedUp mib q.memoryBytes.toNat r ∧ q'.memoryBytes = UInt64.ofNat r

end Quantities

theorem NodeClaim.get?_bindIfSome_self (m : Labels) (key v : String) :
    (bindIfSome m key (some v)).get? key = some v := KeyMap.get?_insert_self m key v

/-! ### Two accounts of one machine -/

namespace Candidate
variable {settings : Settings} {c : Candidate} {t : TemplateEntry} {machine : MachineId}
  {granted : Reservation} {clone : Machine} {o : Options}

/-- The cores and the memory are those that were asked for, and the cores can be counted. -/
structure GrantedAsWanted (c : Candidate) (t : TemplateEntry) (machine : MachineId)
    (granted : Reservation) : Prop where
  cpus : granted.cpus = (c.wanted t machine).cpus
  memory : granted.memoryMib = (c.wanted t machine).memoryMib
  few : Quantities.ceilDiv c.shape.capacity.cpuMillis.toNat 1000 < UInt32.size

def labels (c : Candidate) : List (String × String) :=
  [(Label.region, c.region), (Label.zone, c.zone), (Label.instanceType, c.shape.name),
    (Label.instanceFamily, c.shape.family), (Label.capacityType, c.capacityType.word)]

/-- The second account of a machine agrees with the first one. -/
structure Retells (c : Candidate) (t : TemplateEntry) (machine : MachineId) (granted : Reservation)
    (clone : Machine) (node node' : NodeClaim) : Prop where
  name : node'.displayName = c.claim.displayName ∧ node.displayName = c.claim.displayName
  nodeClass : node'.spec.nodeClass.name = c.cls.displayName
  labels : ∀ e ∈ c.labels, node'.label e.1 = some e.2 ∧ node.label e.1 = some e.2
  cpuType : clone.cpu.isSome = true → node'.label Label.cpuType = node.label Label.cpuType
  status : ∃ s s', node.status = some s ∧ node'.status = some s' ∧
    s'.providerId = s.providerId ∧ s'.imageId = s.imageId ∧
    (c.GrantedAsWanted t machine granted → s.capacity.Rounds s'.capacity)

def reshaped (settings : Settings) (c : Candidate) (t : TemplateEntry) (granted : Reservation)
    (clone : Machine) (o : Options) : Options :=
  (Shape.options settings.clusterName c.cls.spec.tags clone granted (c.provenance t)).applyTo o

theorem reshaped_readable (hclone : Machine.ofOptions o = .ok clone) :
    ∃ after, Machine.ofOptions (c.reshaped settings t granted clone o) = .ok after := by
  apply Machine.readable_iff.1
  apply Change.readable_applyTo Shape.options_readable
  exact Machine.readable_iff.2 ⟨clone, hclone⟩

variable {after : Machine}

theorem cpuMillis_rounded (hgranted : c.GrantedAsWanted t machine granted)
    (hvcpus : after.vcpus = granted.cpus) :
    RoundedUp 1000 c.shape.capacity.cpuMillis.toNat
      (NodeClaim.capacityOf after).cpuMillis.toNat := by
  have hfew := hgranted.few
  have hcpus : granted.cpus = UInt32.ofNat
      (Quantities.ceilDiv c.shape.capacity.cpuMillis.toNat 1000) := hgranted.cpus
  have hcount : (NodeClaim.capacityOf after).cpuMillis.toNat =
      Quantities.ceilDiv c.shape.capacity.cpuMillis.toNat 1000 * 1000 := by
    simp only [NodeClaim.capacityOf, hvcpus, hcpus]
    have hthousand : (1000 : UInt64).toNat = 1000 := rfl
    rw [UInt64.toNat_mul, UInt32.toNat_toUInt64, UInt32.toNat_ofNat_of_lt' hfew, hthousand]
    apply Nat.mod_eq_of_lt
    have hsize : UInt32.size = 4294967296 := rfl
    omega
  rw [hcount]
  exact Quantities.roundedUp_ceilDiv (by decide) _

theorem memoryBytes_rounded (hgranted : c.GrantedAsWanted t machine granted)
    (hmemory : after.memoryMib = some granted.memoryMib) :
    ∃ r, RoundedUp Quantities.mib c.shape.capacity.memoryBytes.toNat r ∧
      (NodeClaim.capacityOf after).memoryBytes = UInt64.ofNat r := by
  have hmib : granted.memoryMib = UInt64.ofNat
      (Quantities.ceilDiv c.shape.capacity.memoryBytes.toNat Quantities.mib) := hgranted.memory
  refine ⟨_, Quantities.roundedUp_ceilDiv (by decide) _, ?_⟩
  simp only [NodeClaim.capacityOf, hmemory, Option.getD_some, hmib]
  exact (UInt64.ofNat_mul _ _).symm

theorem label_launched (token : Option String) : ∀ e ∈ c.labels,
    (c.claim.launched (c.facts t machine clone token)).label e.1 = some e.2 := by
  have hlabels := NodeClaim.launched_labels c t machine clone token
  simp only [labels, List.forall_mem_cons]
  refine ⟨hlabels.region, hlabels.zone, hlabels.instanceType, ?_, hlabels.capacityType, nofun⟩
  simp only [NodeClaim.launched, NodeClaim.label]
  rw [NodeClaim.get?_bindIfSome _ _ (by decide), KeyMap.get?_insert_self]
  rfl

theorem label_ofMachine {seen : Location} (hzone : seen.zone = c.zone)
    (hprovenance : after.provenance = c.provenance t) : ∀ e ∈ c.labels,
    (NodeClaim.ofMachine c.region seen after).label e.1 = some e.2 := by
  simp only [labels, List.forall_mem_cons, NodeClaim.ofMachine, NodeClaim.label, hprovenance,
    provenance, hzone, Option.map_some]
  have hplace : KeyMap.ofList [(Label.region, c.region), (Label.zone, c.zone)] =
      (KeyMap.empty.insert Label.region c.region).insert Label.zone c.zone := rfl
  rw [hplace]
  refine ⟨?_, ?_, ?_, ?_, ?_, nofun⟩
  · rw [NodeClaim.get?_bindIfSome _ _ (by decide), NodeClaim.get?_bindIfSome _ _ (by decide),
      NodeClaim.get?_bindIfSome _ _ (by decide), NodeClaim.get?_bindIfSome _ _ (by decide),
      KeyMap.get?_insert_of_ne _ _ (by decide), KeyMap.get?_insert_self]
  · rw [NodeClaim.get?_bindIfSome _ _ (by decide), NodeClaim.get?_bindIfSome _ _ (by decide),
      NodeClaim.get?_bindIfSome _ _ (by decide), NodeClaim.get?_bindIfSome _ _ (by decide),
      KeyMap.get?_insert_self]
  · rw [NodeClaim.get?_bindIfSome _ _ (by decide), NodeClaim.get?_bindIfSome _ _ (by decide),
      NodeClaim.get?_bindIfSome _ _ (by decide), NodeClaim.get?_bindIfSome_self]
  · rw [NodeClaim.get?_bindIfSome _ _ (by decide), NodeClaim.get?_bindIfSome _ _ (by decide),
      NodeClaim.get?_bindIfSome_self]
    rfl
  · rw [NodeClaim.get?_bindIfSome _ _ (by decide), NodeClaim.get?_bindIfSome_self]

theorem retells {seen : Location} (hmachine : seen.machine = machine) (hzone : seen.zone = c.zone)
    (hprovenance : after.provenance = c.provenance t) (hcpu : after.cpu = clone.cpu)
    (hvcpus : after.vcpus = granted.cpus) (hmemory : after.memoryMib = some granted.memoryMib)
    (token : Option String) :
    c.Retells t machine granted clone (c.claim.launched (c.facts t machine clone token))
      (.ofMachine c.region seen after) := by
  constructor
  case name =>
    refine ⟨?_, rfl⟩
    simp [NodeClaim.ofMachine, NodeClaim.displayName, hprovenance, provenance]
  case nodeClass => simp [NodeClaim.ofMachine, hprovenance, provenance]
  case labels =>
    intro e he
    exact ⟨label_ofMachine hzone hprovenance e he, label_launched token e he⟩
  case cpuType =>
    intro hsome
    obtain ⟨cpu, hclone⟩ := Option.isSome_iff_exists.1 hsome
    simp only [NodeClaim.ofMachine, NodeClaim.launched, NodeClaim.label, facts, hcpu, hclone,
      Option.map_some, NodeClaim.get?_bindIfSome_self]
  case status =>
    refine ⟨_, _, rfl, rfl, ?_, ?_, ?_⟩
    · simp [facts, hmachine]
    · simp [facts, hprovenance, provenance]
    · intro hgranted
      exact ⟨cpuMillis_rounded hgranted hvcpus, memoryBytes_rounded hgranted hmemory⟩

theorem retells_reshaped (hplain : (c.provenance t).Plain)
    (hclone : Machine.ofOptions o = .ok clone) :
    ∃ after, Machine.ofOptions (c.reshaped settings t granted clone o) = .ok after ∧
      ∀ seen token, seen.machine = machine → seen.zone = c.zone →
        c.Retells t machine granted clone (c.claim.launched (c.facts t machine clone token))
          (.ofMachine c.region seen after) := by
  obtain ⟨after, hafter⟩ : ∃ after, Machine.ofOptions (c.reshaped settings t granted clone o) =
      .ok after := reshaped_readable hclone
  have hshapes : Shape.Shapes settings.clusterName c.cls.spec.tags clone granted (c.provenance t)
      (c.reshaped settings t granted clone o) := Shape.shapes_applied o
  have hcpu : after.cpu = clone.cpu :=
    Machine.decides_cpu.part_congr hclone hafter (Shape.applied_unnamed (by decide) o)
  refine ⟨after, hafter, fun seen token hmachine hzone => ?_⟩
  exact retells hmachine hzone (hshapes.provenance hafter hplain) hcpu (hshapes.vcpus hafter)
    (hshapes.memory hafter) token

end Candidate

/-! ### What a launch returns -/

namespace Undoable
variable {α β : Type}

/-- Where it succeeds, its trace and what it gives are related so. -/
def Gives (post : Trace → α → Prop) (u : Undoable α) : Prop :=
  ∀ stack, (u.run stack).Ensures fun trace r => ∀ a, r.1 = .ok a → post trace a

theorem Gives.bind {first : Trace → α → Prop} {post : Trace → β → Prop} {u : Undoable α}
    {f : α → Undoable β} (h : u.Gives first)
    (h' : ∀ trace a, first trace a → (f a).Gives fun trace' => post (trace ++ trace')) :
    (u >>= f).Gives post := by
  intro stack
  rw [run_bind, Plan.ensures_bind]
  refine (h stack).mono ?_
  rintro trace ⟨_ | a, between⟩ hfirst
  · exact (Plan.ensures_done _ _).2 fun _ => nofun
  · exact h' trace a (hfirst a rfl) between

theorem gives_lift {j : Job α} {post : Trace → α → Prop}
    (h : j.Ensures fun trace r => ∀ a, r = .ok a → post trace a) :
    (liftM j : Undoable α).Gives post := by
  intro stack
  rw [run_lift, Plan.ensures_map]
  exact h

theorem Returns.gives {good : α → Prop} {u : Undoable α} (h : u.Returns good)
    {post : Trace → α → Prop} (hpost : ∀ trace a, good a → post trace a) : u.Gives post :=
  fun stack => (h stack).mono fun trace _ hgood a ha => hpost trace a (hgood a ha)

end Undoable

namespace Candidate
open Undoable (Gives gives_lift Returns.after returns_pure)
variable (settings : Settings) (c : Candidate) (t : TemplateEntry) (machine : MachineId)

/-- The node was put together from what was granted and read, and its machine was shaped so. -/
structure Launched (trace : Trace) (granted : Reservation) (clone : Machine)
    (token : Option String) (node : NodeClaim) : Prop where
  allocated : ⟨.capacity (.allocate c.region c.zone (c.wanted t machine)), .ok granted⟩ ∈ trace
  read : ⟨.hypervisor c.region (.readMachine c.zone machine), .ok clone⟩ ∈ trace
  shaped : ⟨.hypervisor c.region (.configure c.zone machine (Shape.options settings.clusterName
    c.cls.spec.tags clone granted (c.provenance t))), .ok ()⟩ ∈ trace
  node : node = c.claim.launched (c.facts t machine clone token)

theorem cloneTemplate_gives : (cloneTemplate settings c t machine).Gives fun trace granted =>
    ⟨.capacity (.allocate c.region c.zone (c.wanted t machine)), .ok granted⟩ ∈ trace := by
  unfold cloneTemplate
  have hallocate : (liftM (Capacity.send (.allocate c.region c.zone (c.wanted t machine))) :
      Undoable Reservation).Gives fun trace granted =>
        ⟨.capacity (.allocate c.region c.zone (c.wanted t machine)), .ok granted⟩ ∈ trace := by
    apply gives_lift
    rw [Capacity.ensures_send]
    rintro _ granted rfl
    exact List.mem_singleton_self _
  refine hallocate.bind fun trace granted hgranted => ?_
  have hrest : (do
      Undoable.record (.releaseCapacity c.region c.zone granted)
      let task ← Hypervisor.send c.region (.clone (c.cloneRequest t machine))
      Undoable.record (.deleteMachine c.zone machine)
      Task.succeed settings.taskPatience true c.region t.zone task
      return granted : Undoable Reservation).Returns fun a => a = granted :=
    Returns.after fun _ => Returns.after fun _ => Returns.after fun _ => Returns.after fun _ =>
      returns_pure rfl
  refine hrest.gives ?_
  rintro rest _ rfl
  exact List.mem_append_left rest hgranted

theorem shapeClone_configures (granted : Reservation) (clone : Machine) :
    (shapeClone settings c t machine granted clone).Ensures fun trace r => ∀ views, r = .ok views →
      ⟨.hypervisor c.region (.configure c.zone machine (Shape.options settings.clusterName
        c.cls.spec.tags clone granted (c.provenance t))), .ok ()⟩ ∈ trace := by
  unfold shapeClone
  rw [Job.ensures_bind, Hypervisor.ensures_send]
  rintro (e | ⟨⟩)
  · exact nofun
  · intro trace r _ views _
    exact List.mem_cons_self

theorem provision_launches : (provision settings c t machine).Gives fun trace node =>
    ∃ granted clone token, c.Launched settings t machine trace granted clone token node := by
  unfold provision
  refine (cloneTemplate_gives settings c t machine).bind fun cloning granted hgranted => ?_
  have hread : (liftM (Hypervisor.send c.region (.readMachine c.zone machine)) :
      Undoable Machine).Gives fun trace clone =>
        ⟨.hypervisor c.region (.readMachine c.zone machine), .ok clone⟩ ∈ trace := by
    apply gives_lift
    rw [Hypervisor.ensures_send]
    rintro _ clone rfl
    exact List.mem_singleton_self _
  refine hread.bind fun reading clone hclone => ?_
  refine (gives_lift (shapeClone_configures settings c t machine granted clone)).bind
    fun shaping views hshaped => ?_
  have hrest : (do
      let node ← describe settings c t machine clone views
      let task ← Hypervisor.send c.region (.start c.zone machine)
      Task.succeed settings.taskPatience true c.region c.zone task
      return node : Undoable NodeClaim).Returns fun node =>
        ∃ token, node = c.claim.launched (c.facts t machine clone token) :=
    (describe_returns settings c t machine clone views).bind fun node hnode =>
      Returns.after fun _ => Returns.after fun _ => returns_pure hnode
  refine hrest.gives ?_
  rintro rest _ ⟨token, rfl⟩
  exact ⟨granted, clone, token, by simp [hgranted], by simp [hclone], by simp [hshaped], rfl⟩

variable {settings c t machine}

/-- What a launch returns is told again of the clone once it has its shape. -/
theorem launched_retold (hplain : c.Plain) (hregion : '\n' ∉ c.region.toList)
    (hzone : '\n' ∉ t.zone.toList) :
    (∀ granted clone o, Machine.ofOptions o = .ok clone →
      ∃ after, Machine.ofOptions (c.reshaped settings t granted clone o) = .ok after ∧
        ∀ seen token, seen.machine = machine → seen.zone = c.zone →
          c.Retells t machine granted clone (c.claim.launched (c.facts t machine clone token))
            (.ofMachine c.region seen after)) ∧
    ∀ stack trace node stack',
      ((provision settings c t machine).run stack).Yields trace (.ok node, stack') →
        ∃ granted clone token, c.Launched settings t machine trace granted clone token node := by
  constructor
  · intro granted clone o hclone
    exact retells_reshaped (provenance_plain c t hplain hregion hzone) hclone
  · intro stack trace node stack' hrun
    exact provision_launches settings c t machine stack trace _ hrun node rfl

def fractional : Candidate where
  claim := { name := some "a", spec := { nodeClass := { name := "default" } } }
  cls := { name := some "default", spec := { template := "noble" } }
  shape := { name := "m.large", capacity := { cpuMillis := 3500, memoryBytes := 5000000000 } }
  region := "r1"
  zone := "z1"

def wholeCores : Reservation where
  machine := 1000
  cpus := 4
  memoryMib := 4769

def modelled : Machine where
  description := some "nodeclaim=b"
  cores := some 8
  cpu := some { model := "host" }

def modelledOptions : Options :=
  .ofList [("cores", "8"), ("cpu", "host"), ("description", "nodeclaim=b")]

theorem launched_retold_fractional : fractional.Plain ∧
    fractional.GrantedAsWanted noble 1000 wholeCores ∧
    ∃ after, Machine.ofOptions (fractional.reshaped {} noble wholeCores modelled
        modelledOptions) = .ok after ∧
      ∀ token, fractional.Retells noble 1000 wholeCores modelled
        (fractional.claim.launched (fractional.facts noble 1000 modelled token))
        (.ofMachine "r1" { machine := 1000, zone := "z1" } after) := by
  have hplain : fractional.Plain := ⟨by decide, by decide, by decide⟩
  obtain ⟨hretold, -⟩ := @launched_retold {} fractional noble 1000 hplain (by decide) (by decide)
  have hread : Machine.ofOptions modelledOptions = .ok modelled := by decide +kernel
  obtain ⟨after, hafter, hretells⟩ := hretold wholeCores modelled modelledOptions hread
  refine ⟨hplain, ⟨by decide, by decide, by decide⟩, after, hafter, fun token => ?_⟩
  exact hretells { machine := 1000, zone := "z1" } token rfl rfl

end Candidate
end NodeProvisioner
