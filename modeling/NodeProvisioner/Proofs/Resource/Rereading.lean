import NodeProvisioner.Proofs.Resource.Lossless
import NodeProvisioner.Resource.NodeClaim
import NodeProvisioner.Resource.NodeClass
import NodeProvisioner.Resource.TemplateClass
import NodeProvisioner.Settings

/-! Resources and settings that are written as JSON and read again. -/
namespace NodeProvisioner
open Document Lossless

attribute [local simp] List.lookup_append lookup_cons_if

theorem fields?_bind {α : Type} (names : List String) (fs : Fields) (f : Fields → Option α) :
    ((Document.record fs).fields? names >>= f) = f fs := rfl

theorem ChecksumAlgorithm.lossless :
    Lossless (fun a : ChecksumAlgorithm => .text a.word) fun d => d.word? >>= ofWord? :=
  .word fun a => by cases a <;> rfl

namespace ImageSource

theorem toDocument_named (i : ImageSource) :
    i.toDocument.Named ["url", "checksum", "checksumType"] :=
  ⟨_, rfl, ((Written.nil.cons (.text _)).append (.option text _)).append
    (Written.nil.cons (.text _))⟩

theorem lossless : Lossless toDocument ofDocument? := by
  refine .record (by decide) toDocument_named ?_
  rintro i _ fs ⟨⟩ h
  rw [ofDocument?, fields?_bind]
  refine h.required text ?_ (h.optional text ?_
    (h.withDefault ChecksumAlgorithm.lossless ?_ rfl)) <;> simp

end ImageSource

namespace AgentSpec

theorem toDocument_named (a : AgentSpec) : a.toDocument.Named ["enabled", "fstrim"] :=
  ⟨_, rfl, .cons (.bool _) (.cons (.bool _) .nil)⟩

theorem lossless : Lossless toDocument ofDocument? := by
  refine .record (by decide) toDocument_named ?_
  rintro a _ fs ⟨⟩ h
  rw [ofDocument?, fields?_bind]
  refine h.withDefault bool ?_ (h.withDefault bool ?_ rfl) <;> simp

end AgentSpec

namespace CpuSpec

theorem toDocument_named (c : CpuSpec) : c.toDocument.Named ["type", "flags"] :=
  ⟨_, rfl, (Written.nil.cons (.text _)).append (.list text _)⟩

theorem lossless : Lossless toDocument ofDocument? := by
  refine .record (by decide) toDocument_named ?_
  rintro c _ fs ⟨⟩ h
  rw [ofDocument?, fields?_bind]
  refine h.required text ?_ (h.listed text ?_ rfl) <;> simp

end CpuSpec

namespace VgaSpec

theorem toDocument_named (v : VgaSpec) : v.toDocument.Named ["type", "memory"] :=
  ⟨_, rfl, (Written.nil.cons (.text _)).append (.option uint32 _)⟩

theorem lossless : Lossless toDocument ofDocument? := by
  refine .record (by decide) toDocument_named ?_
  rintro v _ fs ⟨⟩ h
  rw [ofDocument?, fields?_bind]
  refine h.required text ?_ (h.optional uint32 ?_ rfl) <;> simp

end VgaSpec

namespace InterfaceSpec

theorem toDocument_named (i : InterfaceSpec) :
    i.toDocument.Named ["bridge", "model", "firewall", "mtu", "vlan"] :=
  ⟨_, rfl, ((((Written.nil.cons (.text _)).append (.option text _)).append
    (Written.nil.cons (.bool _))).append (.option uint32 _)).append (.option uint16 _)⟩

theorem lossless : Lossless toDocument ofDocument? := by
  refine .record (by decide) toDocument_named ?_
  rintro i _ fs ⟨⟩ h
  rw [ofDocument?, fields?_bind]
  refine h.required text ?_ (h.optional text ?_ (h.withDefault bool ?_
    (h.optional uint32 ?_ (h.optional uint16 ?_ rfl)))) <;> simp

end InterfaceSpec

namespace PciSpec

theorem toDocument_named (p : PciSpec) : p.toDocument.Named ["mapping", "pcie"] :=
  ⟨_, rfl, .cons (.text _) (.cons (.bool _) .nil)⟩

theorem lossless : Lossless toDocument ofDocument? := by
  refine .record (by decide) toDocument_named ?_
  rintro p _ fs ⟨⟩ h
  rw [ofDocument?, fields?_bind]
  refine h.required text ?_ (h.withDefault bool ?_ rfl) <;> simp

end PciSpec

namespace TemplateClass.Spec

theorem toDocument_named (s : TemplateClass.Spec) : s.toDocument.Named ["region", "storageIDs",
    "image", "machine", "agent", "cpu", "vga", "network", "pciDevices", "tags"] :=
  ⟨_, rfl, ((((((((Written.option text _).append
    (.cons (text.list.plain _) (.cons (ImageSource.lossless.plain _) .nil))).append
    (.option text _)).append (.option AgentSpec.lossless _)).append
    (.option CpuSpec.lossless _)).append (.option VgaSpec.lossless _)).append
    (.list InterfaceSpec.lossless _)).append (.list PciSpec.lossless _)).append (.list text _)⟩

theorem lossless : Lossless toDocument ofDocument? := by
  refine .record (by decide) toDocument_named ?_
  rintro s _ fs ⟨⟩ h
  rw [ofDocument?, fields?_bind]
  refine h.optional text ?_ (h.withDefault text.list ?_ (h.required ImageSource.lossless ?_
    (h.optional text ?_ (h.optional AgentSpec.lossless ?_ (h.optional CpuSpec.lossless ?_
    (h.optional VgaSpec.lossless ?_ (h.listed InterfaceSpec.lossless ?_
    (h.listed PciSpec.lossless ?_ (h.listed text ?_ rfl))))))))) <;> simp [ofTexts]

end TemplateClass.Spec

namespace TemplateClass.Status

theorem toDocument_named (s : TemplateClass.Status) : s.toDocument.Named ["imageID", "zones"] :=
  ⟨_, rfl, (Written.option text _).append (.list text _)⟩

theorem lossless : Lossless toDocument ofDocument? := by
  refine .record (by decide) toDocument_named ?_
  rintro s _ fs ⟨⟩ h
  rw [ofDocument?, fields?_bind]
  refine h.optional text ?_ (h.listed text ?_ rfl) <;> simp

end TemplateClass.Status

namespace BootDevice

theorem toDocument_named (b : BootDevice) : b.toDocument.Named ["size", "storage"] :=
  ⟨_, rfl, (Written.nil.cons (uint64.plain _)).append (.option text _)⟩

theorem lossless : Lossless toDocument ofDocument? := by
  refine .record (by decide) toDocument_named ?_
  rintro b _ fs ⟨⟩ h
  rw [ofDocument?, fields?_bind]
  refine h.withDefault uint64 ?_ (h.optional text ?_ rfl) <;> simp

end BootDevice

namespace SecurityGroup

theorem toDocument_named (g : SecurityGroup) : g.toDocument.Named ["name", "interface"] :=
  ⟨_, rfl, (Written.nil.cons (.text _)).append (.option text _)⟩

theorem lossless : Lossless toDocument ofDocument? := by
  refine .record (by decide) toDocument_named ?_
  rintro g _ fs ⟨⟩ h
  rw [ofDocument?, fields?_bind]
  refine h.required text ?_ (h.optional text ?_ rfl) <;> simp

end SecurityGroup

namespace KubeletConfiguration

theorem toDocument_named (k : KubeletConfiguration) :
    k.toDocument.Named ["maxPods", "clusterDns"] :=
  ⟨_, rfl, (Written.option uint64 _).append (.list text _)⟩

theorem lossless : Lossless toDocument ofDocument? := by
  refine .record (by decide) toDocument_named ?_
  rintro k _ fs ⟨⟩ h
  rw [ofDocument?, fields?_bind]
  refine h.optional uint64 ?_ (h.listed text ?_ rfl) <;> simp

end KubeletConfiguration

theorem ZoneBalance.lossless :
    Lossless (fun z : ZoneBalance => .text z.word) fun d => d.word? >>= ofWord? :=
  .word fun z => by cases z <;> rfl

theorem MetadataDelivery.lossless :
    Lossless (fun m : MetadataDelivery => .text m.word) fun d => d.word? >>= ofWord? :=
  .word fun m => by cases m <;> rfl

namespace NodeClass.Spec

theorem zoneBalance_lossless :
    Lossless (fun z : ZoneBalance => .record [("zoneBalance", .text z.word)]) zoneBalance? := by
  refine .record (by decide) (fun z => ⟨_, rfl, Written.nil.cons (.text _)⟩) ?_
  rintro z _ fs ⟨⟩ h
  rw [zoneBalance?, fields?_bind]
  refine (bind_pure _).symm.trans (h.withDefault ZoneBalance.lossless ?_ rfl)
  simp

theorem template_lossless :
    Lossless (fun name : String => .record [("name", .text name)]) template? := by
  refine .record (by decide) (fun name => ⟨_, rfl, Written.nil.cons (.text _)⟩) ?_
  rintro name _ fs ⟨⟩ h
  rw [template?, fields?_bind]
  refine (bind_pure _).symm.trans (h.required text ?_ rfl)
  simp

theorem metadataDelivery_lossless :
    Lossless (fun m : MetadataDelivery => .record [("type", .text m.word)])
      metadataDelivery? := by
  refine .record (by decide) (fun m => ⟨_, rfl, Written.nil.cons (.text _)⟩) ?_
  rintro m _ fs ⟨⟩ h
  rw [metadataDelivery?, fields?_bind]
  refine (bind_pure _).symm.trans (h.withDefault MetadataDelivery.lossless ?_ rfl)
  simp

theorem toDocument_named (s : NodeClass.Spec) : s.toDocument.Named ["region", "placementStrategy",
    "instanceTemplateRef", "bootDevice", "tags", "securityGroups", "metadataOptions",
    "resourcePool", "numaPinning", "kubelet"] :=
  ⟨_, rfl, (((((((Written.option text _).append
    (.cons (zoneBalance_lossless.plain _) (.cons (template_lossless.plain _)
      (.cons (BootDevice.lossless.plain _) .nil)))).append
    (.list text _)).append (.list SecurityGroup.lossless _)).append
    (.cons (metadataDelivery_lossless.plain _) .nil)).append (.option text _)).append
    (.cons (.bool _) .nil)).append (.option KubeletConfiguration.lossless _)⟩

theorem lossless : Lossless toDocument ofDocument? := by
  refine .record (by decide) toDocument_named ?_
  rintro s _ fs ⟨⟩ h
  rw [ofDocument?, fields?_bind]
  refine h.optional text ?_ (h.withDefault zoneBalance_lossless ?_
    (h.required template_lossless ?_ (h.withDefault BootDevice.lossless ?_ (h.listed text ?_
    (h.listed SecurityGroup.lossless ?_ (h.withDefault metadataDelivery_lossless ?_
    (h.optional text ?_ (h.withDefault bool ?_
    (h.optional KubeletConfiguration.lossless ?_ rfl))))))))) <;> simp

end NodeClass.Spec

namespace NodeClassReference

theorem toDocument_named (r : NodeClassReference) : r.toDocument.Named ["group", "kind", "name"] :=
  ⟨_, rfl, .cons (.text _) (.cons (.text _) (.cons (.text _) .nil))⟩

theorem lossless : Lossless toDocument ofDocument? := by
  refine .record (by decide) toDocument_named ?_
  rintro r _ fs ⟨⟩ h
  rw [ofDocument?, fields?_bind]
  refine h.withDefault text ?_ (h.withDefault text ?_ (h.required text ?_ rfl)) <;> simp

end NodeClassReference

theorem Operator.lossless :
    Lossless (fun o : Operator => .text o.word) fun d => d.word? >>= ofWord? :=
  .word fun o => by cases o <;> rfl

theorem TaintEffect.lossless :
    Lossless (fun e : TaintEffect => .text e.word) fun d => d.word? >>= ofWord? :=
  .word fun e => by cases e <;> rfl

namespace Requirement

theorem toDocument_named (r : Requirement) : r.toDocument.Named ["key", "operator", "values"] :=
  ⟨_, rfl, (Written.cons (.text _) (.cons (.text _) .nil)).append (.list text _)⟩

theorem lossless : Lossless toDocument ofDocument? := by
  refine .record (by decide) toDocument_named ?_
  rintro r _ fs ⟨⟩ h
  rw [ofDocument?, fields?_bind]
  refine h.required text ?_ (h.required Operator.lossless ?_ (h.listed text ?_ rfl)) <;> simp

end Requirement

namespace Taint

theorem toDocument_named (t : Taint) : t.toDocument.Named ["key", "value", "effect"] :=
  ⟨_, rfl, ((Written.nil.cons (.text _)).append (.option text _)).append
    (Written.nil.cons (.text _))⟩

theorem lossless : Lossless toDocument ofDocument? := by
  refine .record (by decide) toDocument_named ?_
  rintro t _ fs ⟨⟩ h
  rw [ofDocument?, fields?_bind]
  refine h.required text ?_ (h.optional text ?_
    (h.required TaintEffect.lossless ?_ rfl)) <;> simp

end Taint

namespace Quantities

theorem toDocument_named (q : Quantities) :
    q.toDocument.Named ["cpuMillis", "memoryBytes", "pods", "ephemeralStorageBytes"] :=
  ⟨_, rfl, .cons (uint64.plain _) (.cons (uint64.plain _) (.cons (uint64.plain _)
    (.cons (uint64.plain _) .nil)))⟩

theorem lossless : Lossless toDocument ofDocument? := by
  refine .record (by decide) toDocument_named ?_
  rintro q _ fs ⟨⟩ h
  rw [ofDocument?, fields?_bind]
  refine h.withDefault uint64 ?_ (h.withDefault uint64 ?_ (h.withDefault uint64 ?_
    (h.withDefault uint64 ?_ rfl))) <;> simp

end Quantities

namespace NodeClaim.Spec

theorem toDocument_named (s : NodeClaim.Spec) : s.toDocument.Named ["nodeClassRef", "requirements",
    "resources", "taints", "startupTaints"] :=
  ⟨_, rfl, ((Written.cons (NodeClassReference.lossless.plain _)
    (.cons (Requirement.lossless.list.plain _) (.cons (Quantities.lossless.plain _) .nil))).append
    (.list Taint.lossless _)).append (.list Taint.lossless _)⟩

theorem lossless : Lossless toDocument ofDocument? := by
  refine .record (by decide) toDocument_named ?_
  rintro s _ fs ⟨⟩ h
  rw [ofDocument?, fields?_bind]
  refine h.required NodeClassReference.lossless ?_ (h.withDefault Requirement.lossless.list ?_
    (h.withDefault Quantities.lossless ?_ (h.listed Taint.lossless ?_
    (h.listed Taint.lossless ?_ rfl)))) <;> simp

end NodeClaim.Spec

namespace NodeClaim.Status

theorem toDocument_named (s : NodeClaim.Status) : s.toDocument.Named ["providerID", "imageID",
    "nodeName", "capacity", "allocatable"] :=
  ⟨_, rfl, (((Written.option text _).append (.option text _)).append (.option text _)).append
    (.cons (Quantities.lossless.plain _) (.cons (Quantities.lossless.plain _) .nil))⟩

theorem lossless : Lossless toDocument ofDocument? := by
  refine .record (by decide) toDocument_named ?_
  rintro s _ fs ⟨⟩ h
  rw [ofDocument?, fields?_bind]
  refine h.optional text ?_ (h.optional text ?_ (h.optional text ?_
    (h.withDefault Quantities.lossless ?_ (h.withDefault Quantities.lossless ?_ rfl)))) <;> simp

end NodeClaim.Status

namespace Settings

theorem toDocument_named (s : Settings) : s.toDocument.Named ["clusterName", "vmidFloor",
    "vmidRecentTtlSecs", "taskTimeoutSecs", "taskPollIntervalSecs", "inventorySyncIntervalSecs",
    "tokenTtlSecs", "isoStorage"] :=
  ⟨_, rfl, .cons (.text _) (.cons (uint32.plain _) (.cons (uint64.plain _)
    (.cons (uint64.plain _) (.cons (uint64.plain _) (.cons (uint64.plain _)
    (.cons (uint64.plain _) (.cons (.text _) .nil)))))))⟩

theorem lossless : Lossless toDocument ofDocument? := by
  refine .record (by decide) toDocument_named ?_
  rintro s _ fs ⟨⟩ h
  rw [ofDocument?, fields?_bind]
  refine h.withDefault text ?_ (h.withDefault uint32 ?_ (h.withDefault uint64 ?_
    (h.withDefault uint64 ?_ (h.withDefault uint64 ?_ (h.withDefault uint64 ?_
    (h.withDefault uint64 ?_ (h.withDefault text ?_ rfl))))))) <;> simp

end Settings

/-- How values are written and read again. -/
structure Document.Rereadable {α : Type} (names : List String) (write : α → Document)
    (read? : Document → Option α) : Prop where
  /-- A record of these fields, as many as are there. -/
  named : ∀ a, (write a).Named names
  /-- The value is read again, in whatever order the fields come. -/
  reread : ∀ a d, (write a).Same d → read? d = some a
  ofJson : ∀ a, (ofJson? (write a).toJson).bind read? = some a

theorem Document.Lossless.rereadable {α : Type} {names : List String} {write : α → Document}
    {read? : Document → Option α} (h : Lossless write read?)
    (hnamed : ∀ a, (write a).Named names) : Rereadable names write read? :=
  ⟨hnamed, h.reread, h.ofJson?_toJson⟩

/-- What is left out comes back as what it stands for, and what is written is read under the same
name, also in the parts with names of their own. -/
theorem resources_rereadable :
    Rereadable ["region", "storageIDs", "image", "machine", "agent", "cpu", "vga", "network",
      "pciDevices", "tags"] TemplateClass.Spec.toDocument TemplateClass.Spec.ofDocument? ∧
    Rereadable ["imageID", "zones"] TemplateClass.Status.toDocument
      TemplateClass.Status.ofDocument? ∧
    Rereadable ["region", "placementStrategy", "instanceTemplateRef", "bootDevice", "tags",
      "securityGroups", "metadataOptions", "resourcePool", "numaPinning", "kubelet"]
      NodeClass.Spec.toDocument NodeClass.Spec.ofDocument? ∧
    Rereadable ["nodeClassRef", "requirements", "resources", "taints", "startupTaints"]
      NodeClaim.Spec.toDocument NodeClaim.Spec.ofDocument? ∧
    Rereadable ["providerID", "imageID", "nodeName", "capacity", "allocatable"]
      NodeClaim.Status.toDocument NodeClaim.Status.ofDocument? ∧
    Rereadable ["maxPods", "clusterDns"] KubeletConfiguration.toDocument
      KubeletConfiguration.ofDocument? ∧
    Rereadable ["clusterName", "vmidFloor", "vmidRecentTtlSecs", "taskTimeoutSecs",
      "taskPollIntervalSecs", "inventorySyncIntervalSecs", "tokenTtlSecs", "isoStorage"]
      Settings.toDocument Settings.ofDocument? ∧
    Rereadable ["url", "checksum", "checksumType"] ImageSource.toDocument
      ImageSource.ofDocument? ∧
    Rereadable ["type", "flags"] CpuSpec.toDocument CpuSpec.ofDocument? ∧
    Rereadable ["type", "memory"] VgaSpec.toDocument VgaSpec.ofDocument? ∧
    Rereadable ["cpuMillis", "memoryBytes", "pods", "ephemeralStorageBytes"]
      Quantities.toDocument Quantities.ofDocument? :=
  ⟨TemplateClass.Spec.lossless.rereadable TemplateClass.Spec.toDocument_named,
    TemplateClass.Status.lossless.rereadable TemplateClass.Status.toDocument_named,
    NodeClass.Spec.lossless.rereadable NodeClass.Spec.toDocument_named,
    NodeClaim.Spec.lossless.rereadable NodeClaim.Spec.toDocument_named,
    NodeClaim.Status.lossless.rereadable NodeClaim.Status.toDocument_named,
    KubeletConfiguration.lossless.rereadable KubeletConfiguration.toDocument_named,
    Settings.lossless.rereadable Settings.toDocument_named,
    ImageSource.lossless.rereadable ImageSource.toDocument_named,
    CpuSpec.lossless.rereadable CpuSpec.toDocument_named,
    VgaSpec.lossless.rereadable VgaSpec.toDocument_named,
    Quantities.lossless.rereadable Quantities.toDocument_named⟩

end NodeProvisioner
