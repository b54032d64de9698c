/-! The names under which nodes, claims and offerings carry labels and annotations. -/
namespace NodeProvisioner

namespace Label

def region : String := "topology.kubernetes.io/region"

def zone : String := "topology.kubernetes.io/zone"

def instanceType : String := "node.kubernetes.io/instance-type"

def capacityType : String := "karpenter.sh/capacity-type"

def instanceFamily : String := "karpenter.kpve.dev/instance-family"

def cpuType : String := "karpenter.kpve.dev/instance-cpu-type"

end Label

namespace Annotation

def bootstrapToken : String := "karpenter.kpve.dev/bootstrap-token"

def templateId : String := "karpenter.kpve.dev/template-id"

end Annotation
end NodeProvisioner
