import NodeProvisioner.Device.OptionText
import NodeProvisioner.Text.Numeral
import NodeProvisioner.Unreadable

/-! Network interfaces of a machine. -/
namespace NodeProvisioner

structure Nic where
  model : String
  /-- The hypervisor makes one up if there is none. -/
  mac : Option String := none
  /-- The host bridge; empty if it is not said. -/
  bridge : String := ""
  firewall : Bool := false
  mtu : Option UInt32 := none
  tag : Option UInt16 := none
  linkDown : Bool := false
  deriving DecidableEq, Inhabited

namespace Nic

def models : List String := ["virtio", "e1000", "e1000e", "rtl8139", "vmxnet3"]

/-- The model, and the address written with it. A model as a key wins over one that stands for
itself, and that over the option `model`. -/
def modelAndMac? (t : OptionText) : Option (String × Option String) :=
  match t.options.entries.find? fun e => models.contains e.1 with
  | some (model, mac) => some (model, if mac.isEmpty then none else some mac)
  | none =>
    match t.head.filter models.contains with
    | some model => some (model, none)
    | none => (t.get? "model").map (·, none)

def number? {α : Type} (read : String → Option α) (t : OptionText) (key : String) :
    Except Unreadable (Option α) :=
  match t.get? key with
  | none => .ok none
  | some raw =>
    match read raw with
    | some n => .ok (some n)
    | none => .error (.number "network device" key raw)

def parse (s : String) : Except Unreadable Nic :=
  let t := OptionText.parse s
  match modelAndMac? t with
  | none => .error (.nicWithoutModel s)
  | some (model, mac) => do
    let mtu ← number? Text.readUInt32? t "mtu"
    let tag ← number? Text.readUInt16? t "tag"
    return {
      model, mtu, tag
      mac := mac <|> t.get? "macaddr"
      bridge := (t.get? "bridge").getD ""
      firewall := t.flag "firewall"
      linkDown := t.flag "link_down" }

def render (n : Nic) : String :=
  OptionText.join (
    [match n.mac with
      | some mac => n.model ++ "=" ++ mac
      | none => n.model] ++
    OptionText.written "bridge" (if n.bridge.isEmpty then none else some n.bridge) ++
    OptionText.writtenFlag "firewall" n.firewall ++
    OptionText.writtenFlag "link_down" n.linkDown ++
    OptionText.written "mtu" (n.mtu.map fun m => Text.numeral m.toNat) ++
    OptionText.written "tag" (n.tag.map fun t => Text.numeral t.toNat))

end Nic
end NodeProvisioner
