import NodeProvisioner.Binary64
import NodeProvisioner.Binary64.Shortest
import NodeProvisioner.Bootstrap.CloudInit
import NodeProvisioner.Bootstrap.Documents
import NodeProvisioner.Bootstrap.Kubelet
import NodeProvisioner.Capacity.Documents
import NodeProvisioner.Capacity.Reservation
import NodeProvisioner.Capacity.Zone
import NodeProvisioner.Cluster.Api
import NodeProvisioner.Cluster.Metadata
import NodeProvisioner.Cluster.Target
import NodeProvisioner.Device.Address
import NodeProvisioner.Device.CpuModel
import NodeProvisioner.Device.CpuSet
import NodeProvisioner.Device.Disk
import NodeProvisioner.Device.Documents
import NodeProvisioner.Device.Nic
import NodeProvisioner.Device.OptionText
import NodeProvisioner.Device.Passthrough
import NodeProvisioner.Device.Smbios
import NodeProvisioner.Digest.Fingerprint
import NodeProvisioner.Digest.Sha256
import NodeProvisioner.Digest.Writing
import NodeProvisioner.Document
import NodeProvisioner.Fault
import NodeProvisioner.Fault.Documents
import NodeProvisioner.Hypervisor.Request
import NodeProvisioner.Identity.Installation
import NodeProvisioner.Identity.ProviderId
import NodeProvisioner.Json.Number
import NodeProvisioner.Json.Reading
import NodeProvisioner.Json.Token
import NodeProvisioner.Json.Writing
import NodeProvisioner.KeyMap
import NodeProvisioner.Launch.Networking
import NodeProvisioner.Launch.NodeDescription
import NodeProvisioner.Launch.Placement
import NodeProvisioner.Launch.Provision
import NodeProvisioner.Launch.Removal
import NodeProvisioner.Launch.Search
import NodeProvisioner.Launch.Shape
import NodeProvisioner.Launch.Undo
import NodeProvisioner.Machine.Change
import NodeProvisioner.Machine.Config
import NodeProvisioner.Machine.Documents
import NodeProvisioner.Machine.Location
import NodeProvisioner.Machine.Provenance
import NodeProvisioner.Machine.Setting
import NodeProvisioner.Memory.KeyedLock
import NodeProvisioner.Memory.RecentIds
import NodeProvisioner.Memory.State
import NodeProvisioner.Patience
import NodeProvisioner.Proofs.Calls
import NodeProvisioner.Proofs.Cluster.StatusPatch
import NodeProvisioner.Proofs.Device.CpuRanges
import NodeProvisioner.Proofs.Device.CpuSet
import NodeProvisioner.Proofs.Device.Disk
import NodeProvisioner.Proofs.Device.Normalising
import NodeProvisioner.Proofs.Device.OptionText
import NodeProvisioner.Proofs.Device.Rendering
import NodeProvisioner.Proofs.Identity.Installation
import NodeProvisioner.Proofs.Identity.ProviderId
import NodeProvisioner.Proofs.Json.Lexing
import NodeProvisioner.Proofs.Json.Reading
import NodeProvisioner.Proofs.KeyMap
import NodeProvisioner.Proofs.Latest
import NodeProvisioner.Proofs.Launch.Describing
import NodeProvisioner.Proofs.Launch.Fleet
import NodeProvisioner.Proofs.Launch.GivingBack
import NodeProvisioner.Proofs.Launch.Growing
import NodeProvisioner.Proofs.Launch.Lookup
import NodeProvisioner.Proofs.Launch.Networking
import NodeProvisioner.Proofs.Launch.NicOptions
import NodeProvisioner.Proofs.Launch.Ordering
import NodeProvisioner.Proofs.Launch.Ownership
import NodeProvisioner.Proofs.Launch.Placement
import NodeProvisioner.Proofs.Launch.PriceOrder
import NodeProvisioner.Proofs.Launch.Reaching
import NodeProvisioner.Proofs.Launch.Recalling
import NodeProvisioner.Proofs.Launch.Recording
import NodeProvisioner.Proofs.Launch.Retelling
import NodeProvisioner.Proofs.Launch.Rollback
import NodeProvisioner.Proofs.Launch.Satisfaction
import NodeProvisioner.Proofs.Launch.Search
import NodeProvisioner.Proofs.Launch.Settling
import NodeProvisioner.Proofs.Launch.Shaping
import NodeProvisioner.Proofs.Launch.Tagging
import NodeProvisioner.Proofs.Launch.Undoing
import NodeProvisioner.Proofs.Launch.Unwinding
import NodeProvisioner.Proofs.Launch.ZoneOrder
import NodeProvisioner.Proofs.Machine.Booting
import NodeProvisioner.Proofs.Machine.Change
import NodeProvisioner.Proofs.Machine.Editing
import NodeProvisioner.Proofs.Machine.Place
import NodeProvisioner.Proofs.Machine.Provenance
import NodeProvisioner.Proofs.Machine.Reading
import NodeProvisioner.Proofs.Machine.Writing
import NodeProvisioner.Proofs.Memory.KeyedLock
import NodeProvisioner.Proofs.Refusals
import NodeProvisioner.Proofs.Resource.Lossless
import NodeProvisioner.Proofs.Resource.Rereading
import NodeProvisioner.Proofs.Template.CloneSource
import NodeProvisioner.Proofs.Template.Converging
import NodeProvisioner.Proofs.Template.Declaring
import NodeProvisioner.Proofs.Template.Deleting
import NodeProvisioner.Proofs.Template.Fingerprinting
import NodeProvisioner.Proofs.Template.InPlace
import NodeProvisioner.Proofs.Template.Installing
import NodeProvisioner.Proofs.Template.Naming
import NodeProvisioner.Proofs.Template.Placing
import NodeProvisioner.Proofs.Template.Removing
import NodeProvisioner.Proofs.Template.Renewing
import NodeProvisioner.Proofs.Template.Repeating
import NodeProvisioner.Proofs.Template.Restoring
import NodeProvisioner.Proofs.Template.Roles
import NodeProvisioner.Proofs.Template.Sourcing
import NodeProvisioner.Proofs.Template.Targeting
import NodeProvisioner.Proofs.Template.Updating
import NodeProvisioner.Proofs.Template.Vouching
import NodeProvisioner.Proofs.Text
import NodeProvisioner.Proofs.Text.Reading
import NodeProvisioner.Proofs.Trace
import NodeProvisioner.Proofs.World.Depot
import NodeProvisioner.Proofs.World.Estate
import NodeProvisioner.Proofs.World.LeastIds
import NodeProvisioner.Proofs.World.MachineIds
import NodeProvisioner.Proofs.World.Pacing
import NodeProvisioner.Proofs.World.Waiting
import NodeProvisioner.Resource.Documents
import NodeProvisioner.Resource.InstanceType
import NodeProvisioner.Resource.Label
import NodeProvisioner.Resource.NodeClaim
import NodeProvisioner.Resource.NodeClass
import NodeProvisioner.Resource.Quantities
import NodeProvisioner.Resource.Requirement
import NodeProvisioner.Resource.TemplateClass
import NodeProvisioner.Settings
import NodeProvisioner.Template.Blueprint
import NodeProvisioner.Template.Documents
import NodeProvisioner.Template.Image
import NodeProvisioner.Template.Installing
import NodeProvisioner.Template.Inventory
import NodeProvisioner.Template.Maintaining
import NodeProvisioner.Template.Sync
import NodeProvisioner.Text.Base64
import NodeProvisioner.Text.Blank
import NodeProvisioner.Text.Cut
import NodeProvisioner.Text.Numeral
import NodeProvisioner.Text.Timestamp
import NodeProvisioner.Unreadable
import NodeProvisioner.World.Call
import NodeProvisioner.World.Documents
import NodeProvisioner.World.MachineIds
import NodeProvisioner.World.Plan
import NodeProvisioner.World.Waiting
