import NodeProvisioner.Bootstrap.Documents
import NodeProvisioner.Capacity.Documents
import NodeProvisioner.Machine.Documents
import NodeProvisioner.World.Call

/-! Calls as documents, each under its name and with its arguments, and the answers that are read
from documents. -/
namespace NodeProvisioner

namespace TaskStatus

def toDocument (s : TaskStatus) : Document :=
  .record [("running", .bool s.running), ("exit", .ofOption .text s.exit)]

def ofDocument? : Document → Option TaskStatus
  | .text "running" => some { running := true }
  | d => do
    let fs ← d.record?
    return { running := ← fs.flag "running", exit := ← fs.optional "exit" Document.text? }

end TaskStatus

namespace Call

def named (name : String) (arguments : Fields) : Fields := ("op", .text name) :: arguments

def inRegion (name region : String) (arguments : Fields) : Fields :=
  named name (("region", .text region) :: arguments)

def inZone (name region zone : String) (arguments : Fields) : Fields :=
  inRegion name region (("zone", .text zone) :: arguments)

def ofMachine (name region zone : String) (id : MachineId) (arguments : Fields) : Fields :=
  inZone name region zone (("vmid", .ofUInt32 id) :: arguments)

end Call

open Call

namespace Hypervisor.Request

def fields (region : String) : Hypervisor.Request → Fields
  | nextId floor => inRegion "next_id" region [("floor", .ofUInt32 floor)]
  | findMachine id => inRegion "find_vm" region [("vmid", .ofUInt32 id)]
  | findTemplate zone name => inZone "find_template_by_name" region zone [("name", .text name)]
  | listTemplates => inRegion "list_templates" region []
  | readMachine zone id => ofMachine "get_vm_config" region zone id []
  | clone c =>
    inRegion "clone_vm" region [("source_zone", .text c.sourceZone),
      ("source_vmid", .ofUInt32 c.source), ("vmid", .ofUInt32 c.machine),
      ("target_zone", .text c.targetZone), ("name", .text c.name), ("full", .bool c.full),
      ("storage", .ofOption .text c.storage), ("pool", .ofOption .text c.pool)]
  | create zone id options =>
    ofMachine "create_vm" region zone id [("options", options.toDocument)]
  | configure zone id options =>
    ofMachine "configure_vm" region zone id [("options", options.toDocument)]
  | resizeDisk zone id slot gib =>
    ofMachine "resize_disk" region zone id [("disk", .text slot), ("size_gib", .ofUInt64 gib)]
  | start zone id => ofMachine "start_vm" region zone id []
  | stop zone id => ofMachine "stop_vm" region zone id []
  | delete zone id => ofMachine "delete_vm" region zone id []
  | addFirewallRule zone id rule =>
    ofMachine "create_firewall_rule" region zone id [("kind", .text rule.kind),
      ("action", .text rule.action), ("iface", .ofOption .text rule.interface),
      ("enable", .bool rule.enabled)]
  | regenerateCloudInit zone id => ofMachine "regenerate_cloudinit" region zone id []
  | attachDocuments zone id storage d =>
    ofMachine "attach_cloudinit_iso" region zone id [("storage", .text storage),
      ("documents", .ofTexts [d.userData, d.metaData, d.vendorData, d.networkConfig])]
  | listContent zone storage content =>
    inZone "list_storage_content" region zone [("storage", .text storage),
      ("content", .text content)]
  | download zone storage r =>
    inZone "download_url" region zone [("storage", .text storage), ("url", .text r.url),
      ("content", .text r.content), ("filename", .text r.fileName),
      ("checksum", .ofOption .text r.checksum),
      ("checksum_algorithm", .ofOption .text r.checksumAlgorithm)]
  | deleteVolume zone volume => inZone "delete_volume" region zone [("volid", .text volume)]
  | taskStatus zone task => inZone "task_status" region zone [("task", .text task)]

end Hypervisor.Request

def Family.word : Family → String
  | .v4 => "v4"
  | .v6 => "v6"

def Capacity.Request.fields : Capacity.Request → Fields
  | network region zone => inZone "network" region zone []
  | allocate region zone wanted =>
    inZone "allocate" region zone [("options", wanted.toDocument)]
  | release region zone granted =>
    inZone "release" region zone [("options", granted.toDocument)]
  | occupyAddress region zone bridge machine family =>
    inZone "occupy_address" region zone [("bridge", .text bridge),
      ("vmid", .ofUInt32 machine), ("family", .text family.word)]
  | refresh region zone => inZone "refresh" region zone []

def Bootstrap.Request.fields : Bootstrap.Request → Fields
  | issueToken claim secs =>
    named "token_issue" [("node_claim", .text claim), ("ttl_secs", .ofUInt64 secs)]
  | revokeToken id => named "token_delete" [("token_id", .text id)]
  | render values => named "render" [("values", values.toDocument)]
  | clusterCa => named "cluster_ca" []

def TemplateClass.Status.fields (template : String) (s : TemplateClass.Status) : Fields :=
  named "patch_status" [("name", .text template), ("status", s.toDocument)]

end NodeProvisioner
