import NodeProvisioner.Resource.InstanceType
import NodeProvisioner.Resource.NodeClass
import NodeProvisioner.Text.Numeral

/-! Kubelet settings that follow from what an instance type holds back from pods. -/
namespace NodeProvisioner

structure KubeletSettings where
  kubeReserved : KeyMap String String := ∅
  systemReserved : KeyMap String String := ∅
  /-- Signal and quantity below which pods are evicted. -/
  evictionHard : KeyMap String String := ∅
  maxPods : Option UInt64 := none
  clusterDns : List String := []
  deriving DecidableEq, Inhabited

namespace KubeletSettings

def amount (name : String) (present : UInt64) (quantity : UInt64) (unit : String) :
    List (String × String) :=
  if present = 0 then [] else [(name, Text.numeral quantity.toNat ++ unit)]

def reserved (q : Quantities) : KeyMap String String :=
  .ofList (amount "cpu" q.cpuMillis q.cpuMillis "m" ++
    amount "memory" q.memoryBytes q.memoryMib "Mi" ++
    amount "ephemeral-storage" q.ephemeralStorageBytes q.ephemeralStorageGib "Gi")

def eviction (q : Quantities) : KeyMap String String :=
  .ofList (amount "memory.available" q.memoryBytes q.memoryMib "Mi" ++
    amount "nodefs.available" q.ephemeralStorageBytes q.ephemeralStorageGib "Gi")

/-- The node class wins over the pod limit of the instance type; a limit of zero is none. -/
def ofOverhead (o : Overhead) (pods : UInt64) (kubelet : Option KubeletConfiguration) :
    KubeletSettings where
  kubeReserved := reserved o.kubeReserved
  systemReserved := reserved o.systemReserved
  evictionHard := eviction o.evictionThreshold
  maxPods := kubelet.bind (·.maxPods) <|> if pods = 0 then none else some pods
  clusterDns := (kubelet.map (·.clusterDns)).getD []

def join (m : KeyMap String String) : String :=
  String.intercalate "," (m.entries.map fun e => e.1 ++ "=" ++ e.2)

end KubeletSettings
end NodeProvisioner
