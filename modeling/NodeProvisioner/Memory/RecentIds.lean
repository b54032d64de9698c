import NodeProvisioner.Machine.Config

/-! Machine ids that were handed out a short while ago. The hypervisor calls an id free until the
machine exists, so two requests at once would get the same one. -/
namespace NodeProvisioner

structure Hold where
  region : String
  machine : MachineId
  since : Nat
  deriving DecidableEq

/-- The ids that are held back for `span` nanoseconds. -/
structure RecentIds where
  span : Nat
  holds : List Hold := []
  deriving DecidableEq, Inhabited

namespace RecentIds

def isOf (region : String) (machine : MachineId) (h : Hold) : Bool :=
  h.region == region && h.machine == machine

def expire (r : RecentIds) (now : Nat) : RecentIds :=
  { r with holds := r.holds.filter fun h => now - h.since < r.span }

def isHeld (r : RecentIds) (region : String) (machine : MachineId) : Bool :=
  r.holds.any (isOf region machine)

/-- Takes an id unless it is held, and says whether it was taken. -/
def claim (r : RecentIds) (now : Nat) (region : String) (machine : MachineId) :
    Bool × RecentIds :=
  let r := r.expire now
  if r.isHeld region machine then (false, r)
  else (true, { r with holds := ⟨region, machine, now⟩ :: r.holds })

def forget (r : RecentIds) (region : String) (machine : MachineId) : RecentIds :=
  { r with holds := r.holds.filter (!isOf region machine ·) }

end RecentIds
end NodeProvisioner
