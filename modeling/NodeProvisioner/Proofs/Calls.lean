import NodeProvisioner.Launch.Provision
import NodeProvisioner.Proofs.Trace

/-! Which calls the steps of larger jobs make at most. -/
namespace NodeProvisioner

variable {allowed : Call → Prop}

theorem Change.get?_put_of_ne (c : Change) {key key' : String} (value : String)
    (h : key' ≠ key) : (c.put key value).set.get? key' = c.set.get? key' :=
  KeyMap.get?_insert_of_ne _ _ (by simpa using h)

namespace Waiting
variable {α : Type}

theorem lookFrom_only {p : Patience} {operation : String} {heeds : Bool}
    {look : Job (Option α)} (hlook : look.Only allowed)
    (hjitter : allowed (.circumstance .jitter))
    (hpause : ∀ span, allowed (.circumstance (.pause span heeds))) (elapsed delay : Nat) :
    (lookFrom p operation heeds look elapsed delay).Only allowed := by
  fun_induction lookFrom p operation heeds look elapsed delay with
  | case1 elapsed delay ih =>
    apply hlook.bind
    intro found
    cases found with
    | some a => exact Job.only_pure a
    | none =>
      dsimp only
      split
      · exact Job.only_fail _
      · next h =>
        apply (Job.only_lift (Circumstance.only_learn hjitter)).bind
        intro jitter
        apply (Job.only_lift (Circumstance.only_learn (hpause _))).bind
        intro cut
        cases cut with
        | true => exact Job.only_fail _
        | false => exact ih h jitter

end Waiting

namespace Task
variable {p : Patience} {heeds : Bool} {region zone : String} {task : TaskId}

theorem finish_only (hlook : allowed (.hypervisor region (.taskStatus zone task)))
    (hjitter : allowed (.circumstance .jitter))
    (hpause : ∀ span, allowed (.circumstance (.pause span heeds))) :
    (finish p heeds region zone task).Only allowed := by
  have look : (look region zone task).Only allowed :=
    (Hypervisor.only_send hlook).bind fun _ => Job.only_pure _
  exact Waiting.lookFrom_only look hjitter hpause _ _

theorem succeed_only (hlook : allowed (.hypervisor region (.taskStatus zone task)))
    (hjitter : allowed (.circumstance .jitter))
    (hpause : ∀ span, allowed (.circumstance (.pause span heeds))) :
    (succeed p heeds region zone task).Only allowed := by
  apply (finish_only hlook hjitter hpause).bind
  intro status
  split
  · exact Job.only_pure _
  · exact Job.only_fail _

end Task

theorem MachineIds.allocateFrom_only {region : String}
    (hnext : ∀ floor, allowed (.hypervisor region (.nextId floor)))
    (hclaim : ∀ id, allowed (.memory (.claimId region id))) (attempts : Nat) (floor : MachineId) :
    (allocateFrom region attempts floor).Only allowed := by
  induction attempts generalizing floor with
  | zero => exact Job.only_fail _
  | succ attempts ih =>
    apply (Hypervisor.only_send (hnext floor)).bind
    intro candidate
    apply (Job.only_lift (Memory.only_access (hclaim candidate))).bind
    intro taken
    cases taken with
    | true => exact Job.only_pure _
    | false => exact ih _

theorem Setting.ne_numbered {key device : String} (h : ¬ device.toList <+: key.toList)
    (index : UInt8) : key ≠ numbered device index := by
  rintro rfl
  exact h ⟨_, String.toList_append.symm⟩

namespace Networking

theorem settleV4_only {t : Target} {name : String} {bridge : Option Bridge} {a : Addressing}
    (h : allowed (.capacity (.occupyAddress t.region t.zone name t.machine .v4))) :
    (settleV4 t name bridge a).Only allowed := by
  unfold settleV4
  split
  · exact (Capacity.only_send h).bind fun _ => Job.only_pure _
  · exact Job.only_pure _

theorem settleV6_only {t : Target} {name : String} {bridge : Option Bridge} {a : Addressing}
    (h : allowed (.capacity (.occupyAddress t.region t.zone name t.machine .v6))) :
    (settleV6 t name bridge a).Only allowed := by
  unfold settleV6
  split
  · exact (Capacity.only_send h).bind fun _ => Job.only_pure _
  · exact Job.only_pure _

theorem settleAll_only {t : Target} {network : ZoneNetwork} {m : Machine}
    (hoccupy : ∀ bridge family,
      allowed (.capacity (.occupyAddress t.region t.zone bridge t.machine family)))
    (nics : List (UInt8 × Nic)) (c : Change) : (settleAll t network m nics c).Only allowed := by
  induction nics generalizing c with
  | nil => exact Job.only_pure _
  | cons nic rest ih =>
    apply (settleV4_only (hoccupy _ _)).bind
    intro a
    apply (settleV6_only (hoccupy _ _)).bind
    intro settled
    exact (ih _).bind fun _ => Job.only_pure _

theorem get?_record {c : Change} {index : UInt8} {before after : Nic}
    {current : Option Addressing} {settled : Addressing} {key : String}
    (hnic : key ≠ Setting.numbered "net" index)
    (haddressing : key ≠ Setting.numbered "ipconfig" index) :
    (record c index before after current settled).set.get? key = c.set.get? key := by
  unfold record
  split <;> split
  · rfl
  · exact Change.get?_put_of_ne _ _ haddressing
  · exact Change.get?_put_of_ne _ _ hnic
  · exact (Change.get?_put_of_ne _ _ haddressing).trans (Change.get?_put_of_ne _ _ hnic)

theorem settleAll_get? {t : Target} {network : ZoneNetwork} {m : Machine} {key : String}
    (hnic : ∀ index, key ≠ Setting.numbered "net" index)
    (haddressing : ∀ index, key ≠ Setting.numbered "ipconfig" index)
    (nics : List (UInt8 × Nic)) (c : Change) :
    (settleAll t network m nics c).Returns fun out => out.1.set.get? key = c.set.get? key := by
  induction nics generalizing c with
  | nil => exact Job.returns_pure rfl
  | cons nic rest ih =>
    refine Job.Returns.after fun a => Job.Returns.after fun settled => ?_
    refine (ih _).bind fun out hout => Job.returns_pure ?_
    exact hout.trans (get?_record (hnic nic.1) (haddressing nic.1))

theorem configure_only {t : Target} {m : Machine}
    (hnetwork : allowed (.capacity (.network t.region t.zone)))
    (hoccupy : ∀ bridge family,
      allowed (.capacity (.occupyAddress t.region t.zone bridge t.machine family)))
    (hconfigure : ∀ change : Change, change.set.get? "description" = none →
      allowed (.hypervisor t.region (.configure t.zone t.machine change)))
    (hregenerate : allowed (.hypervisor t.region (.regenerateCloudInit t.zone t.machine))) :
    (configure t m).Only allowed := by
  have hnic : ∀ index, "description" ≠ Setting.numbered "net" index :=
    Setting.ne_numbered (by decide)
  have haddressing : ∀ index, "description" ≠ Setting.numbered "ipconfig" index :=
    Setting.ne_numbered (by decide)
  unfold configure
  split
  · exact Job.only_pure _
  apply (Capacity.only_send hnetwork).bind
  intro network
  refine (settleAll_only hoccupy _ _).bind_of
    (settleAll_get? hnic haddressing _ _) ?_
  rintro ⟨change, views⟩ hchange
  dsimp only
  split
  · exact Job.only_pure _
  · apply (Hypervisor.only_send (hconfigure change hchange)).bind
    intro _
    split
    · exact (Hypervisor.only_send hregenerate).bind fun _ => Job.only_pure _
    · exact Job.only_pure _

end Networking

theorem Candidate.applyGroups_only {c : Candidate} {machine : MachineId}
    (h : ∀ rule, allowed (.hypervisor c.region (.addFirewallRule c.zone machine rule)))
    (groups : List SecurityGroup) : (c.applyGroups machine groups).Only allowed := by
  induction groups with
  | nil => exact Job.only_pure _
  | cons g gs ih => exact (Hypervisor.only_send (h _)).bind fun _ => ih

theorem Candidate.shapeClone_only {settings : Settings} {c : Candidate} {t : TemplateEntry}
    {machine : MachineId} {granted : Reservation} {clone : Machine}
    (hshape : allowed (.hypervisor c.region (.configure c.zone machine
      (Shape.options settings.clusterName c.cls.spec.tags clone granted (c.provenance t)))))
    (hresize : ∀ slot boot, clone.bootDisk? = some (slot, boot) → c.needsResize boot = true →
      allowed (.hypervisor c.region (.resizeDisk c.zone machine slot c.diskGib)))
    (hconnect : (Networking.configure ⟨c.region, c.zone, machine⟩ clone).Only allowed)
    (hrule : ∀ rule, allowed (.hypervisor c.region (.addFirewallRule c.zone machine rule))) :
    (shapeClone settings c t machine granted clone).Only allowed := by
  have rest := hconnect.bind fun views =>
    (applyGroups_only hrule c.cls.spec.securityGroups).bind fun _ => Job.only_pure views
  unfold shapeClone
  refine (Hypervisor.only_send hshape).bind fun _ => ?_
  split
  · exact Job.only_fail _
  next slot boot hboot =>
  dsimp only
  split
  · next hneeds => exact (Hypervisor.only_send (hresize slot boot hboot hneeds)).bind fun _ => rest
  · exact rest

end NodeProvisioner
