/-! How long a remote operation is waited for. Spans of time are whole nanoseconds. -/
namespace NodeProvisioner

namespace Span

def second : Nat := 1000000000

def millisecond : Nat := 1000000

def seconds (span : Nat) : Nat := span / second

end Span

/-- Give up after `timeout`; look again after `initial`, then after ever longer delays up to
`limit`. -/
structure Patience where
  timeout : Nat := 300 * Span.second
  initial : Nat := Span.second
  limit : Nat := 5 * Span.second
  deriving DecidableEq, Inhabited

/-- The delay after a delay: half as long again, up to the limit. -/
def Patience.grow (p : Patience) (delay : Nat) : Nat := min (delay * 3 / 2) p.limit

def Patience.withTimeout (timeout : Nat) : Patience := { timeout }

end NodeProvisioner
