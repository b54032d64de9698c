import NodeProvisioner.Device.OptionText

/-! The processor model that a machine shows to its guest. -/
namespace NodeProvisioner

structure CpuModel where
  model : String
  /-- Each with a plus or minus sign in front. -/
  flags : List String := []
  deriving DecidableEq, Inhabited

namespace CpuModel

/-- Reads any text; without a model it is the hypervisor's own default. -/
def parse (s : String) : CpuModel :=
  let t := OptionText.parse s
  { model := (t.head <|> t.get? "cputype").getD "kvm64"
    flags := match t.get? "flags" with
      | some flags => (Text.pieces ';' flags).filter (!·.isEmpty)
      | none => [] }

def render (c : CpuModel) : String :=
  OptionText.join (c.model ::
    (if c.flags.isEmpty then [] else ["flags=" ++ String.intercalate ";" c.flags]))

end CpuModel
end NodeProvisioner
