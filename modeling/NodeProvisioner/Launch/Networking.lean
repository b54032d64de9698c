import NodeProvisioner.World.Plan

/-! Addresses for the interfaces of a fresh machine. An interface without an MTU gets that of its
bridge. An interface without addressing gets an address of the bridge's subnet, or asks for one at
boot where the bridge has none; placeholders become addresses that are taken from the subnet. -/
namespace NodeProvisioner.Networking

structure Target where
  region : String
  zone : String
  machine : MachineId
  deriving DecidableEq, Inhabited

/-- The interface with the MTU of its bridge, if it has none of its own. -/
def withBridgeMtu (nic : Nic) (bridge : Option Bridge) : Nic :=
  match nic.mtu with
  | some _ => nic
  | none => { nic with mtu := bridge.bind (·.mtu) }

def defaultAddressing (bridge : Option Bridge) : Addressing where
  ip := some (if (bridge.bind (·.ipv4Subnet)).isSome then .host else .dhcp)
  ip6 := if (bridge.bind (·.ipv6Subnet)).isSome then some .host else none

def occupy (t : Target) (bridge : String) (family : Family) : Job String :=
  Capacity.send (.occupyAddress t.region t.zone bridge t.machine family)

/-- Takes an address in place of a placeholder of the older family. A gateway that is set stays. -/
def settleV4 (t : Target) (bridgeName : String) (bridge : Option Bridge) (a : Addressing) :
    Job Addressing :=
  if a.ip = some .host then do
    let address ← occupy t bridgeName .v4
    return { a with
      ip := some (.fixed address)
      gateway := a.gateway <|> bridge.bind (·.ipv4Gateway) }
  else return a

def settleV6 (t : Target) (bridgeName : String) (bridge : Option Bridge) (a : Addressing) :
    Job Addressing :=
  if a.ip6 = some .host then do
    let address ← occupy t bridgeName .v6
    return { a with
      ip6 := some (.fixed address)
      gateway6 := a.gateway6 <|> bridge.bind (·.ipv6Gateway) }
  else return a

def guestName (index : UInt8) : String := "eth" ++ Text.numeral index.toNat

def guestInterface (index : UInt8) (nic : Nic) (a : Addressing) : GuestInterface where
  name := guestName index
  mac := nic.mac
  mtu := nic.mtu
  ipv4 := a.ip.map Assignment.render
  gateway4 := a.gateway
  ipv6 := a.ip6.map Assignment.render
  gateway6 := a.gateway6

def record (c : Change) (index : UInt8) (before after : Nic) (current : Option Addressing)
    (settled : Addressing) : Change :=
  let c := if after = before then c else c.put (Setting.numbered "net" index) after.render
  if current = some settled then c
  else c.put (Setting.numbered "ipconfig" index) settled.render

/-- Settles the interfaces in turn; gives the change to write, and the guest's view. -/
def settleAll (t : Target) (network : ZoneNetwork) (m : Machine) :
    List (UInt8 × Nic) → Change → Job (Change × List GuestInterface)
  | [], c => return (c, [])
  | (index, nic) :: rest, c => do
    let bridge := network.bridge? nic.bridge
    let device := withBridgeMtu nic bridge
    let current := m.addressing.get? index
    let wanted := current.getD (defaultAddressing bridge)
    let settled ← settleV6 t nic.bridge bridge (← settleV4 t nic.bridge bridge wanted)
    let (c, views) ← settleAll t network m rest (record c index nic device current settled)
    return (c, guestInterface index device settled :: views)

/-- Settles all interfaces and writes what changed. The machine's bootstrap drive is made anew
after a change, so that it has the new addresses. -/
def configure (t : Target) (m : Machine) : Job (List GuestInterface) := do
  if m.nics.isEmpty then return []
  let network ← Capacity.send (.network t.region t.zone)
  let (change, views) ← settleAll t network m m.nics.entries {}
  unless change.isEmpty do
    Hypervisor.send t.region (.configure t.zone t.machine change)
    if m.hasCloudInitDrive then
      Hypervisor.send t.region (.regenerateCloudInit t.zone t.machine)
  return views

end NodeProvisioner.Networking
