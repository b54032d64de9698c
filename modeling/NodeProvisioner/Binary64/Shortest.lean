import NodeProvisioner.Binary64

/-! The decimal with the fewest digits that is read back as a given number. The numbers that are
read as one pattern fill an interval; the grids of the powers of ten are tried from the coarsest on,
in exact arithmetic, until a point of one lies in the interval. -/
namespace NodeProvisioner

/-- `digits * 10 ^ exponent`. -/
structure Decimal where
  digits : Nat
  exponent : Int
  deriving DecidableEq, Inhabited

namespace Binary64

def isNegative (x : Binary64) : Bool := signBit ≤ x.bits.toNat

def leadingBit : Nat := 0x10000000000000

def exponentField (x : Binary64) : Nat := x.bits.toNat / leadingBit % 2048

def isFinite (x : Binary64) : Bool := x.exponentField != 2047

def magnitude (x : Binary64) : Nat × Int :=
  let fraction := x.bits.toNat % leadingBit
  match x.exponentField with
  | 0 => (fraction, -1074)
  | e + 1 => (leadingBit + fraction, (e : Int) - 1074)

/-- What is read as one magnitude, in units of a power of two: all between `low` and `high`, and
these two as well if `closed`. -/
structure Interval where
  low : Nat
  value : Nat
  high : Nat
  power : Int
  closed : Bool
  deriving DecidableEq, Inhabited

/-- Halfway to the neighbours on both sides. Below a power of two the neighbour is half as far away.
A tie is read as the even one of two neighbours. -/
def interval (x : Binary64) : Interval :=
  let (m, q) := x.magnitude
  let low := if m = leadingBit && -1074 < q then 4 * m - 1 else 4 * m - 2
  { low, value := 4 * m, high := 4 * m + 2, power := q - 2, closed := m % 2 == 0 }

namespace Interval

def ratio (i : Interval) (exponent : Int) : Nat × Nat :=
  (Nat.pow 2 i.power.toNat * Nat.pow 10 (-exponent).toNat,
    Nat.pow 2 (-i.power).toNat * Nat.pow 10 exponent.toNat)

def contains (i : Interval) (d : Decimal) : Bool :=
  let (a, b) := i.ratio d.exponent
  if i.closed then i.low * a ≤ d.digits * b && d.digits * b ≤ i.high * a
  else i.low * a < d.digits * b && d.digits * b < i.high * a

/-- The points of a grid on both sides of the value, the nearer one first; of two that are equally
near, the even one. -/
def beside (i : Interval) (exponent : Int) : List Decimal :=
  let (a, b) := i.ratio exponent
  let below := i.value * a / b
  let rest := 2 * (i.value * a % b)
  let points := if rest < b || (rest == b && below % 2 == 0) then [below, below + 1]
    else [below + 1, below]
  points.map fun digits => { digits, exponent }

def exact (i : Interval) : Decimal :=
  if 0 ≤ i.power then { digits := i.value * Nat.pow 2 i.power.toNat, exponent := 0 }
  else { digits := i.value * Nat.pow 5 (-i.power).toNat, exponent := i.power }

/-- The nearest point of the coarsest grid that has one in the interval, so its last digit is not
zero. The grids are those between the greatest and the least number that is not zero. -/
def shortest (i : Interval) : Decimal :=
  let found := (List.range 633).findSome? fun (n : Nat) => (i.beside (308 - n)).find? i.contains
  found.getD i.exact

end Interval

/-- The magnitude of a finite number, with as few digits as tell it from all others. -/
def shortest (x : Binary64) : Decimal :=
  if x.magnitude.1 = 0 then { digits := 0, exponent := 0 } else x.interval.shortest

example : shortest ⟨0x3fb999999999999a⟩ = { digits := 1, exponent := -1 } ∧
    shortest ⟨0x44b52d02c7e14af6⟩ = { digits := 1, exponent := 23 } := by decide +kernel

example : shortest ⟨1⟩ = { digits := 5, exponent := -324 } ∧
    shortest ⟨0x0010000000000000⟩ = { digits := 22250738585072014, exponent := -324 } := by
  decide +kernel

end Binary64
end NodeProvisioner
