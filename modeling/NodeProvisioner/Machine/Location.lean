import NodeProvisioner.Machine.Config

/-! Where a machine lives, as the hypervisor lists it. -/
namespace NodeProvisioner

inductive PowerState where
  | running
  | stopped
  /-- Paused, suspended, or not known. -/
  | other
  deriving DecidableEq, Inhabited

structure Location where
  machine : MachineId
  zone : String := ""
  name : String := ""
  power : PowerState := .stopped
  template : Bool := false
  deriving DecidableEq, Inhabited

end NodeProvisioner
