/-! Decimal numerals of unsigned numbers. A numeral is one or more ASCII digits after an optional
plus sign; zeros may lead. Reading into a fixed width refuses what does not fit. -/
namespace NodeProvisioner.Text

def isDigits (s : String) : Bool := s.toList.all Char.isDigit

def digitsValue (acc : Nat) : List Char → Option Nat
  | [] => some acc
  | c :: cs => if c.isDigit then digitsValue (10 * acc + (c.toNat - '0'.toNat)) cs else none

def readNat? (s : String) : Option Nat :=
  match s.toList with
  | [] => none
  | ['+'] => none
  | '+' :: c :: cs => digitsValue 0 (c :: cs)
  | c :: cs => digitsValue 0 (c :: cs)

def readUInt8? (s : String) : Option UInt8 :=
  (readNat? s).bind fun n => if h : n < UInt8.size then some (UInt8.ofNatLT n h) else none

def readUInt16? (s : String) : Option UInt16 :=
  (readNat? s).bind fun n => if h : n < UInt16.size then some (UInt16.ofNatLT n h) else none

def readUInt32? (s : String) : Option UInt32 :=
  (readNat? s).bind fun n => if h : n < UInt32.size then some (UInt32.ofNatLT n h) else none

def readUInt64? (s : String) : Option UInt64 :=
  (readNat? s).bind fun n => if h : n < UInt64.size then some (UInt64.ofNatLT n h) else none

/-- The shortest numeral: no sign, no leading zero. -/
def numeral (n : Nat) : String := n.repr

end NodeProvisioner.Text
