import NodeProvisioner.Fault

/-! What can be wrong with a written device, machine option or installation. -/
namespace NodeProvisioner

inductive Unreadable where
  | nicWithoutModel (text : String)
  /-- A numeral is malformed or out of range. -/
  | number (subject key value : String)
  | addressWithHead (head : String)
  | pciWithoutAddress (text : String)
  | diskWithoutVolume (text : String)
  | cpuSet (text : String)
  | installation (text : String)
  deriving DecidableEq

namespace Unreadable

def quoted (s : String) : String := "'" ++ s ++ "'"

def message : Unreadable → String
  | nicWithoutModel text => "network device without model: " ++ quoted text
  | number subject key value => subject ++ ": invalid " ++ key ++ " " ++ quoted value
  | addressWithHead head => "ip config: unexpected value " ++ quoted head
  | pciWithoutAddress text => "pci device without mapping or host: " ++ quoted text
  | diskWithoutVolume text => "disk without volume: " ++ quoted text
  | cpuSet text => "invalid cpu set " ++ quoted text
  | installation text => "invalid template installation " ++ quoted text

def fault (u : Unreadable) : Fault := .serialization u.message

end Unreadable

def Except.faulty {α : Type} (x : Except Unreadable α) : Except Fault α :=
  x.mapError Unreadable.fault

end NodeProvisioner
