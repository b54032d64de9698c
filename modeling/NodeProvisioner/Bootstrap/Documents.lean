import NodeProvisioner.Bootstrap.CloudInit

/-! What a new node is told at its first boot, as documents. -/
namespace NodeProvisioner

namespace GuestInterface

def toDocument (i : GuestInterface) : Document :=
  .record [("name", .text i.name), ("mac", .ofOption .text i.mac),
    ("mtu", .ofOption .ofUInt32 i.mtu), ("ipv4", .ofOption .text i.ipv4),
    ("gateway4", .ofOption .text i.gateway4), ("ipv6", .ofOption .text i.ipv6),
    ("gateway6", .ofOption .text i.gateway6)]

def ofDocument? (d : Document) : Option GuestInterface := do
  let fs ← d.record?
  return {
    name := ← fs.textOrEmpty "name"
    mac := ← fs.optional "mac" Document.text?
    mtu := ← fs.optional "mtu" Document.uint32?
    ipv4 := ← fs.optional "ipv4" Document.text?
    gateway4 := ← fs.optional "gateway4" Document.text?
    ipv6 := ← fs.optional "ipv6" Document.text?
    gateway6 := ← fs.optional "gateway6" Document.text? }

end GuestInterface

/-- Reads a token; `standard` gives what is left out. -/
def JoinToken.ofDocument? (standard : JoinToken) (d : Document) : Option JoinToken := do
  let fs ← d.record?
  return { standard with
    id := ← fs.orElse "id" standard.id Document.text?
    secret := ← fs.orElse "secret" standard.secret Document.text? }

def KubeletSettings.toDocument (k : KubeletSettings) : Document :=
  .record [("kube_reserved", .ofTextMap k.kubeReserved),
    ("system_reserved", .ofTextMap k.systemReserved),
    ("eviction_hard", .ofTextMap k.evictionHard), ("max_pods", .ofOption .ofUInt64 k.maxPods),
    ("cluster_dns", .ofTexts k.clusterDns)]

def CloudInit.Values.toDocument (v : CloudInit.Values) : Document :=
  .record [("hostname", .text v.hostname), ("cluster_name", .text v.clusterName),
    ("provider_id", .text v.providerId), ("region", .text v.region), ("zone", .text v.zone),
    ("instance_type", .text v.instanceType), ("cluster_ca", .text v.clusterCa),
    ("join_token", .text v.joinToken), ("kubelet", v.kubelet.toDocument),
    ("labels", .ofTextMap v.labels), ("taints", .list (v.taints.map Taint.toDocument)),
    ("interfaces", .list (v.interfaces.map GuestInterface.toDocument))]

end NodeProvisioner
