import NodeProvisioner.Device.OptionText

/-! The system information that a machine shows to its guest. -/
namespace NodeProvisioner

structure Smbios where
  uuid : Option String := none
  serial : Option String := none
  manufacturer : Option String := none
  product : Option String := none
  /-- The values are in base 64. -/
  base64 : Bool := false
  deriving DecidableEq, Inhabited

namespace Smbios

/-- Reads any text; what it does not know is left out. -/
def parse (s : String) : Smbios :=
  let t := OptionText.parse s
  { uuid := t.get? "uuid", serial := t.get? "serial", manufacturer := t.get? "manufacturer"
    product := t.get? "product", base64 := t.flag "base64" }

def render (b : Smbios) : String :=
  OptionText.join (
    OptionText.writtenFlag "base64" b.base64 ++
    OptionText.written "manufacturer" b.manufacturer ++ OptionText.written "product" b.product ++
    OptionText.written "serial" b.serial ++ OptionText.written "uuid" b.uuid)

end Smbios
end NodeProvisioner
