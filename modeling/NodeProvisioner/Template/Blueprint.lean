import NodeProvisioner.Machine.Config
import NodeProvisioner.Template.Image

/-! The options of a template machine, as its class declares them. -/
namespace NodeProvisioner.Blueprint

def templateTag : String := "kpve-template"

def bootSlot : String := "scsi0"

def defaultNicModel : String := "virtio"

def digit (b : Bool) : String := if b then "1" else "0"

def agent (a : AgentSpec) : String :=
  "enabled=" ++ digit a.enabled ++ ",fstrim_cloned_disks=" ++ digit a.fstrim

def cpu (c : CpuSpec) : String := CpuModel.render { model := c.model, flags := c.flags }

def vga (v : VgaSpec) : String :=
  match v.memory with
  | some mib => v.kind ++ ",memory=" ++ Text.numeral mib.toNat
  | none => v.kind

def nic (i : InterfaceSpec) (mac : Option String) : Nic where
  model := i.model.getD defaultNicModel
  mac := mac
  bridge := i.bridge
  firewall := i.firewall
  mtu := i.mtu
  tag := i.vlan

def passthrough (p : PciSpec) : Passthrough := { mapping := some p.mapping, pcie := p.pcie }

/-- The address of the interface at an index; indices beyond 255 wrap. -/
def macAt (current : Option Machine) (index : Nat) : Option String :=
  (current.bind (·.nics.get? (UInt8.ofNat index))).bind (·.mac)

def numbered (device : String) (index : Nat) : String := device ++ Text.numeral index

def nicOptions (spec : TemplateClass.Spec) (current : Option Machine) : List (String × String) :=
  spec.network.zipIdx.map fun (i, index) =>
    (numbered "net" index, (nic i (macAt current index)).render)

def passthroughOptions (spec : TemplateClass.Spec) : List (String × String) :=
  spec.pciDevices.zipIdx.map fun (p, index) => (numbered "hostpci" index, (passthrough p).render)

def surplus {β : Type} (device : String) (declared : Nat) (present : KeyMap UInt8 β) :
    List String :=
  (present.keys.filter (declared ≤ ·.toNat)).map fun i => numbered device i.toNat

def tags (spec : TemplateClass.Spec) : List String :=
  templateTag :: spec.tags.filter (· != templateTag)

/-- What brings a template machine in line with its class. The boot disk and the name stay; what
the class leaves unset is removed, and so are surplus devices. -/
def mutableChange (spec : TemplateClass.Spec) (current : Option Machine) : Change :=
  let shape := (((({} : Change).putOrRemove "machine" spec.machine).putOrRemove "agent"
    (spec.agent.map agent)).putOrRemove "cpu" (spec.cpu.map cpu)).putOrRemove "vga"
    (spec.vga.map vga)
  let devices := (shape.putAll (nicOptions spec current)).putAll (passthroughOptions spec)
  let trimmed := match current with
    | none => devices
    | some m => (devices.removeAll (surplus "net" spec.network.length m.nics)).removeAll
        (surplus "hostpci" spec.pciDevices.length m.passthrough)
  trimmed.put "tags" (Setting.writeTags (tags spec))

def bootDisk (roles : StorageRoles) (imageFile : String) : Disk where
  volume := roles.images.id ++ ":0"
  options := .ofList [("import-from", Image.volume roles.imports.id imageFile), ("discard", "on")]

/-- The options that no class can change. The second drive lets clones be given their own
bootstrap data. -/
def fixedOptions (cls : String) (roles : StorageRoles) (imageFile : String) :
    List (String × String) :=
  [("name", cls), ("template", "1"), ("ostype", "l26"), ("scsihw", "virtio-scsi-single"),
    ("cores", "1"), ("memory", "512"), ("serial0", "socket"),
    (bootSlot, (bootDisk roles imageFile).render), ("ide2", roles.images.id ++ ":cloudinit"),
    ("boot", "order=" ++ bootSlot)]

/-- The options of a new template machine. It has nothing to remove, only values to set. -/
def options (cls : String) (spec : TemplateClass.Spec) (roles : StorageRoles)
    (imageFile : String) : Change :=
  (Change.putAll {} (fixedOptions cls roles imageFile)).putAll
    (mutableChange spec none).set.entries

end NodeProvisioner.Blueprint
