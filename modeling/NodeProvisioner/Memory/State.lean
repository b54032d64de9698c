import NodeProvisioner.Memory.RecentIds
import NodeProvisioner.Template.Inventory

/-! What the provisioner itself remembers between requests, and the single steps by which requests
that run at the same time share it. Each step is atomic. -/
namespace NodeProvisioner

structure Memory where
  inventory : Inventory := ∅
  recentIds : RecentIds
  deriving DecidableEq, Inhabited

namespace Memory

inductive Access where
  /-- Reads the whole inventory. -/
  | inventory
  /-- Replaces the snapshot of a region. -/
  | publish (region : String) (entries : List TemplateEntry)
  /-- Takes a machine id unless it was handed out a short while ago. -/
  | claimId (region : String) (machine : MachineId)
  | forgetId (region : String) (machine : MachineId)
  deriving DecidableEq

@[reducible] def Access.Answer : Access → Type
  | .inventory => Inventory
  | .publish _ _ => Unit
  | .claimId _ _ => Bool
  | .forgetId _ _ => Unit

def perform (now : Nat) (m : Memory) : (a : Access) → a.Answer × Memory
  | .inventory => (m.inventory, m)
  | .publish region entries => ((), { m with inventory := m.inventory.publish region entries })
  | .claimId region machine =>
    let r := m.recentIds.claim now region machine
    (r.1, { m with recentIds := r.2 })
  | .forgetId region machine => ((), { m with recentIds := m.recentIds.forget region machine })

end Memory
end NodeProvisioner
