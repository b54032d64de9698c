import NodeProvisioner.Device.OptionText
import NodeProvisioner.Unreadable

/-! How the interfaces of a machine get their addresses. -/
namespace NodeProvisioner

inductive Assignment where
  | dhcp
  /-- The machine finds its own address; for the newer family only. -/
  | auto
  /-- A free address of the host bridge, still to be taken. -/
  | host
  /-- A fixed address with its prefix length. -/
  | fixed (cidr : String)
  deriving DecidableEq, Inhabited

namespace Assignment

def parse : String → Assignment
  | "dhcp" => dhcp
  | "auto" => auto
  | "host" => host
  | cidr => fixed cidr

def render : Assignment → String
  | dhcp => "dhcp"
  | auto => "auto"
  | host => "host"
  | fixed cidr => cidr

end Assignment

structure Addressing where
  ip : Option Assignment := none
  gateway : Option String := none
  ip6 : Option Assignment := none
  gateway6 : Option String := none
  deriving DecidableEq, Inhabited

namespace Addressing

/-- Some family still waits for an address of the bridge. -/
def hasPlaceholder (a : Addressing) : Bool := a.ip == some .host || a.ip6 == some .host

def parse (s : String) : Except Unreadable Addressing :=
  let t := OptionText.parse s
  match t.head with
  | some head => .error (.addressWithHead head)
  | none => .ok {
      ip := (t.get? "ip").map Assignment.parse
      gateway := t.get? "gw"
      ip6 := (t.get? "ip6").map Assignment.parse
      gateway6 := t.get? "gw6" }

def render (a : Addressing) : String :=
  OptionText.join (
    OptionText.written "ip" (a.ip.map Assignment.render) ++ OptionText.written "gw" a.gateway ++
    OptionText.written "ip6" (a.ip6.map Assignment.render) ++
    OptionText.written "gw6" a.gateway6)

end Addressing
end NodeProvisioner
