import NodeProvisioner.Device.OptionText
import NodeProvisioner.Unreadable

/-! Host devices that are passed through to a machine. -/
namespace NodeProvisioner

structure Passthrough where
  /-- The name of a mapping in the hypervisor cluster. -/
  mapping : Option String := none
  /-- The address of the device on its host. -/
  host : Option String := none
  pcie : Bool := false
  primaryGpu : Bool := false
  deriving DecidableEq, Inhabited

namespace Passthrough

def parse (s : String) : Except Unreadable Passthrough :=
  let t := OptionText.parse s
  let mapping := t.get? "mapping"
  let host := t.head <|> t.get? "host"
  if mapping.isNone && host.isNone then .error (.pciWithoutAddress s)
  else .ok { mapping, host, pcie := t.flag "pcie", primaryGpu := t.flag "x-vga" }

/-- A mapping is written instead of an address. A device with neither is written with an empty
first part. -/
def render (p : Passthrough) : String :=
  let address := match p.mapping, p.host with
    | some mapping, _ => "mapping=" ++ mapping
    | none, some host => host
    | none, none => ""
  OptionText.join ([address] ++ OptionText.writtenFlag "pcie" p.pcie ++
    OptionText.writtenFlag "x-vga" p.primaryGpu)

end Passthrough
end NodeProvisioner
