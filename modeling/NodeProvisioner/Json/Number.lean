import NodeProvisioner.Document
import NodeProvisioner.Text.Numeral

/-! Numbers in JSON text. A number without point and exponent is whole if it fits into 64 bits;
every other number is a decimal. -/
namespace NodeProvisioner.Json

/-- The parts of a written number; each digit is a number below ten. -/
structure Numeral where
  negative : Bool
  whole : List Nat
  /-- The digits behind the point, if there is one. -/
  fraction : Option (List Nat)
  exponent : Option Int

namespace Numeral

def digits (cs : List Char) : List Nat × List Char :=
  ((cs.takeWhile Char.isDigit).map fun c => c.toNat - '0'.toNat, cs.dropWhile Char.isDigit)

def value (ds : List Nat) : Nat := ds.foldl (fun n d => 10 * n + d) 0

def digits? (cs : List Char) : Option (List Nat × List Char) :=
  match digits cs with
  | ([], _) => none
  | r => some r

def sign : List Char → Bool × List Char
  | '-' :: cs => (true, cs)
  | cs => (false, cs)

/-- No zero leads, unless it is the only digit. -/
def whole? (cs : List Char) : Option (List Nat × List Char) := do
  match ← digits? cs with
  | (0 :: _ :: _, _) => none
  | r => return r

def fraction? : List Char → Option (Option (List Nat) × List Char)
  | '.' :: cs => (digits? cs).map fun r => (some r.1, r.2)
  | cs => some (none, cs)

def signedDigits? : List Char → Option (Int × List Char)
  | '-' :: cs => (digits? cs).map fun r => (-(value r.1 : Int), r.2)
  | '+' :: cs => (digits? cs).map fun r => ((value r.1 : Int), r.2)
  | cs => (digits? cs).map fun r => ((value r.1 : Int), r.2)

def exponent? : List Char → Option (Option Int × List Char)
  | 'e' :: cs => (signedDigits? cs).map fun r => (some r.1, r.2)
  | 'E' :: cs => (signedDigits? cs).map fun r => (some r.1, r.2)
  | cs => some (none, cs)

def parse? (cs : List Char) : Option Numeral := do
  let (negative, cs) := sign cs
  let (whole, cs) ← whole? cs
  let (fraction, cs) ← fraction? cs
  let (exponent, cs) ← exponent? cs
  if cs.isEmpty then some { negative, whole, fraction, exponent } else none

/-- Takes digits over as long as the significand fits into 64 bits; gives it, and how many digits
were taken. -/
def accumulate (significand taken : Nat) : List Nat → Nat × Nat
  | [] => (significand, taken)
  | d :: ds =>
    let next := 10 * significand + d
    if next < UInt64.size then accumulate next (taken + 1) ds else (significand, taken)

/-- The significand and the power of ten. Digits of the whole part that do not fit raise the power;
digits behind the point that do not fit are dropped. -/
def scaled (n : Numeral) : Nat × Int :=
  let (significand, taken) := accumulate 0 0 n.whole
  let (significand, places) := accumulate significand 0 (n.fraction.getD [])
  (significand, (n.whole.length : Int) - taken - places + n.exponent.getD 0)

/-- Powers beyond these make every significand infinite or zero. -/
def clamp (power : Int) : Int := max (-700) (min 400 power)

def decimal (n : Numeral) : Binary64 :=
  match n.scaled with
  | (0, _) => if n.negative then Binary64.zero.negate else .zero
  | (significand, power) => .ofDecimal n.negative (.ofNat significand) (clamp power)

/-- The whole number, if it is written as one and fits. Zero with a minus sign does not. -/
def integer? (n : Numeral) : Option Int :=
  if n.fraction.isSome || n.exponent.isSome then none
  else
    let v := value n.whole
    if n.negative then
      if 0 < v && v ≤ UInt64.size / 2 then some (-v) else none
    else if v < UInt64.size then some v else none

def toDocument (n : Numeral) : Document :=
  match n.integer? with
  | some i => .integer i
  | none => .decimal n.decimal

end Numeral
end NodeProvisioner.Json
