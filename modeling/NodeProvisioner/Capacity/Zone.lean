import NodeProvisioner.Device.Address

/-! What a region's bookkeeping says of its storages and of the bridges of a zone. -/
namespace NodeProvisioner

structure Storage where
  id : String
  /-- The kinds of content that the storage takes. -/
  content : List String := []
  /-- The zones that reach it. -/
  zones : List String := []
  /-- One and the same storage in all its zones. -/
  shared : Bool := false
  deriving DecidableEq, Inhabited

def Storage.supports (s : Storage) (content : String) : Bool := s.content.contains content

inductive Family where
  | v4
  | v6
  deriving DecidableEq, Inhabited

/-- A host bridge, its subnets and the gateways of these. -/
structure Bridge where
  name : String
  mtu : Option UInt32 := none
  ipv4Subnet : Option String := none
  ipv4Gateway : Option String := none
  ipv6Subnet : Option String := none
  ipv6Gateway : Option String := none
  deriving DecidableEq, Inhabited

abbrev ZoneNetwork := List Bridge

def ZoneNetwork.bridge? (n : ZoneNetwork) (name : String) : Option Bridge :=
  n.find? (·.name == name)

end NodeProvisioner
