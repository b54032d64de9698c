import NodeProvisioner.Bootstrap.Kubelet
import NodeProvisioner.Resource.NodeClaim

/-! What a new node is told at its first boot. -/
namespace NodeProvisioner

/-- A token with which a node joins the cluster. Times are milliseconds since the epoch. -/
structure JoinToken where
  id : String
  secret : String
  expiresAt : Int := 0
  deriving DecidableEq, Inhabited

namespace JoinToken

def text (t : JoinToken) : String := t.id ++ "." ++ t.secret

def isExpired (t : JoinToken) (now : Int) : Bool := t.expiresAt ≤ now

end JoinToken

structure GuestInterface where
  name : String
  mac : Option String := none
  mtu : Option UInt32 := none
  ipv4 : Option String := none
  gateway4 : Option String := none
  ipv6 : Option String := none
  gateway6 : Option String := none
  deriving DecidableEq, Inhabited

namespace CloudInit

structure Values where
  hostname : String
  clusterName : String
  providerId : String
  region : String
  zone : String
  instanceType : String
  clusterCa : String
  joinToken : String
  kubelet : KubeletSettings
  labels : Labels
  taints : List Taint
  interfaces : List GuestInterface
  deriving DecidableEq, Inhabited

structure Documents where
  userData : String
  metaData : String
  vendorData : String
  networkConfig : String
  deriving DecidableEq, Inhabited

def addMissing (present : List Taint) (more : List Taint) : List Taint :=
  more.foldl (fun ts t => if ts.contains t then ts else ts ++ [t]) present

/-- The node registers its labels and taints itself, startup taints included, so that it joins
with all of them. -/
def values (node : NodeClaim) (cls : NodeClass) (shape : InstanceType)
    (clusterName clusterCa : String) (token : JoinToken) (interfaces : List GuestInterface) :
    Values where
  hostname := node.displayName
  clusterName := clusterName
  providerId := node.providerId.getD ""
  region := (node.label Label.region).getD ""
  zone := (node.label Label.zone).getD ""
  instanceType := shape.name
  clusterCa := clusterCa
  joinToken := token.text
  kubelet := .ofOverhead shape.overhead shape.capacity.pods cls.spec.kubelet
  labels := node.labels
  taints := addMissing node.spec.taints node.spec.startupTaints
  interfaces := interfaces

end CloudInit
end NodeProvisioner
