import NodeProvisioner.Capacity.Reservation
import NodeProvisioner.Hypervisor.Request
import NodeProvisioner.Memory.State
import NodeProvisioner.Resource.TemplateClass

/-! Everything that a request asks of others: the hypervisors, the bookkeeping of capacity, the
issuers of bootstrap data, the cluster's API server, the shared memory, and the clock. Each call
says what type its reply has. -/
namespace NodeProvisioner

namespace Capacity

inductive Request where
  | network (region zone : String)
  | allocate (region zone : String) (wanted : Reservation)
  | release (region zone : String) (granted : Reservation)
  | occupyAddress (region zone bridge : String) (machine : MachineId) (family : Family)
  /-- Reads the usage of a zone anew. -/
  | refresh (region zone : String)
  deriving DecidableEq

@[reducible] def Request.Answer : Request → Type
  | .network _ _ => ZoneNetwork
  | .allocate _ _ _ => Reservation
  | .release _ _ _ => Unit
  | .occupyAddress _ _ _ _ _ => String
  | .refresh _ _ => Unit

end Capacity

inductive Question where
  /-- The regions with a hypervisor cluster. -/
  | clusterRegions
  /-- The regions with capacity data. -/
  | capacityRegions
  | zones (region : String)
  /-- The zones that have room for a machine. -/
  | zonesWithRoom (region : String) (need : Quantities)
  /-- The load of each zone. -/
  | loads (region : String)
  | storage (region id : String)
  deriving DecidableEq

@[reducible] def Question.Answer : Question → Type
  | .clusterRegions => List String
  | .capacityRegions => List String
  | .zones _ => List String
  | .zonesWithRoom _ _ => List String
  | .loads _ => String → Binary64
  | .storage _ _ => Option Storage

namespace Bootstrap

inductive Request where
  | issueToken (nodeClaim : String) (lifetimeSecs : UInt64)
  | revokeToken (id : String)
  | render (values : CloudInit.Values)
  | clusterCa
  deriving DecidableEq

@[reducible] def Request.Answer : Request → Type
  | .issueToken _ _ => JoinToken
  | .revokeToken _ => Unit
  | .render _ => CloudInit.Documents
  | .clusterCa => String

end Bootstrap

/-- A random factor from a half up to one and a half, the end left out. -/
structure Jitter where
  num : Nat
  den : Nat
  half_le : den ≤ 2 * num
  lt_three_halves : 2 * num < 3 * den

def Jitter.scale (j : Jitter) (span : Nat) : Nat := span * j.num / j.den

/-- Time, chance and the caller's wish to stop. -/
inductive Circumstance where
  | jitter
  /-- Waits for a span, and says whether the caller's cancellation ended the wait. A wait that
  does not heed the caller is never cut short. -/
  | pause (span : Nat) (heedsCaller : Bool)
  /-- The caller has cancelled the request. -/
  | cancelled
  /-- A source of random numbers. -/
  | draws
  deriving DecidableEq

@[reducible] def Circumstance.Answer : Circumstance → Type
  | .jitter => Jitter
  | .pause _ _ => Bool
  | .cancelled => Bool
  | .draws => Nat → Nat

inductive Call where
  /-- Opens the connection to the hypervisor of a region. -/
  | connect (region : String)
  | hypervisor (region : String) (request : Hypervisor.Request)
  | capacity (request : Capacity.Request)
  | ask (question : Question)
  | bootstrap (request : Bootstrap.Request)
  /-- Replaces the stored status of a template class. -/
  | writeStatus (template : String) (status : TemplateClass.Status)
  | memory (access : Memory.Access)
  /-- Waits for the lock of a zone and takes it. -/
  | enterZone (region zone : String)
  | leaveZone (region zone : String)
  | circumstance (c : Circumstance)
  deriving DecidableEq

@[reducible] def Call.Reply : Call → Type
  | .connect _ => Except Fault Unit
  | .hypervisor _ r => Except Fault r.Answer
  | .capacity r => Except Fault r.Answer
  | .ask q => q.Answer
  | .bootstrap r => Except Fault r.Answer
  | .writeStatus _ _ => Except Fault Unit
  | .memory a => a.Answer
  | .enterZone _ _ => Unit
  | .leaveZone _ _ => Unit
  | .circumstance c => c.Answer

end NodeProvisioner
