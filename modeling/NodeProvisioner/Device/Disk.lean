import NodeProvisioner.Device.OptionText
import NodeProvisioner.Text.Numeral
import NodeProvisioner.Unreadable
import NodeProvisioner.Resource.Quantities

/-! Disks and optical drives of a machine. -/
namespace NodeProvisioner

structure Disk where
  /-- `storage:volume`, or a word for an empty drive. -/
  volume : String
  /-- As the hypervisor writes it. -/
  size : Option String := none
  media : Option String := none
  /-- All other options. -/
  options : KeyMap String String := ∅
  deriving DecidableEq, Inhabited

namespace Disk

def storageId? (d : Disk) : Option String :=
  ((Text.cut? ':' d.volume).map (·.1)).filter (!·.isEmpty)

def isOptical (d : Disk) : Bool := d.media == some "cdrom"

/-- The drive on which the hypervisor itself hands out bootstrap data. -/
def isCloudInit (d : Disk) : Bool := Text.includes "cloudinit".toList d.volume.toList

/-- A disk that can hold the guest's system. -/
def isPlain (d : Disk) : Bool := !d.isOptical && !d.isCloudInit

def unitMib? : String → Option UInt64
  | "T" => some 1048576
  | "G" => some 1024
  | "M" => some 1
  | _ => none

def sizeMib? (d : Disk) : Option UInt64 := do
  let s ← d.size
  let digits := s.toList.takeWhile Char.isDigit
  let unit := s.toList.dropWhile Char.isDigit
  let n ← Text.readUInt64? (String.ofList digits)
  return n * (← unitMib? (String.ofList unit))

def sizeGib? (d : Disk) : Option UInt64 :=
  d.sizeMib?.map fun mib => UInt64.ofNat (Quantities.ceilDiv mib.toNat 1024)

def parse (s : String) : Except Unreadable Disk :=
  let t := OptionText.parse s
  match t.head <|> t.get? "file" with
  | none => .error (.diskWithoutVolume s)
  | some volume => .ok {
      volume
      size := t.get? "size"
      media := t.get? "media"
      options := ((t.options.erase "size").erase "media").erase "file" }

def render (d : Disk) : String :=
  OptionText.join ([d.volume] ++
    d.options.entries.map (fun e => if e.2.isEmpty then e.1 else e.1 ++ "=" ++ e.2) ++
    OptionText.written "media" d.media ++ OptionText.written "size" d.size)

end Disk
end NodeProvisioner
