/-! Binary floating-point numbers of 64 bits, kept as their bit patterns. They are only stored and
compared here, and compared by the total order: negative before positive, `-0` before `0`, and the
not-a-number patterns outside the infinities. -/
namespace NodeProvisioner

structure Binary64 where
  bits : UInt64
  deriving DecidableEq, Inhabited

namespace Binary64

def signBit : Nat := 0x8000000000000000

/-- Maps the total order on patterns to the order of `Nat`: a set sign bit reverses the rest. -/
def rank (x : Binary64) : Nat :=
  if x.bits.toNat < signBit then x.bits.toNat + signBit else 2 * signBit - 1 - x.bits.toNat

theorem rank_injective {x y : Binary64} (h : x.rank = y.rank) : x = y := by
  have hx := x.bits.toNat_lt
  have hy := y.bits.toNat_lt
  have hb : x.bits.toNat = y.bits.toNat := by
    unfold rank signBit at h; split at h <;> split at h <;> omega
  cases x; cases y
  exact congrArg mk (UInt64.toNat_inj.1 hb)

def le (x y : Binary64) : Bool := x.rank ≤ y.rank

def min (x y : Binary64) : Binary64 := if x.le y then x else y

def negate (x : Binary64) : Binary64 := ⟨x.bits ^^^ 0x8000000000000000⟩

def zero : Binary64 := ⟨0⟩

def infinity : Binary64 := ⟨0x7ff0000000000000⟩

def quietNaN : Binary64 := ⟨0x7ff8000000000000⟩

def ofUInt64 (n : UInt64) : Binary64 := ⟨n.toFloat.toBits⟩

/-- Scales by a power of ten no larger than `10 ^ 308` in either direction, and rounds once. -/
def scale (x : Float) (exponent : Int) : Float :=
  if 0 ≤ exponent then x * Float.ofScientific 1 false exponent.toNat
  else x / Float.ofScientific 1 false (-exponent).toNat

/-- The number written as `significand × 10 ^ exponent`. The significand is rounded first and the
scaling rounds again, so a decimal of more than fifteen digits may come out one place off the
nearest number. Scales beyond `10 ^ -308` are taken in two steps. -/
def ofDecimal (negative : Bool) (significand : UInt64) (exponent : Int) : Binary64 :=
  let x := significand.toFloat
  let scaled :=
    if -308 ≤ exponent then scale x exponent
    else scale (scale x (-308)) (max (exponent + 308) (-308))
  let r : Binary64 := ⟨scaled.toBits⟩
  if negative then r.negate else r

end Binary64
end NodeProvisioner
