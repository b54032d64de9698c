/-! Targets of requests. A target is a path, with a query behind a question mark; what follows a
hash sign is not sent. -/
namespace NodeProvisioner.ClusterApi

structure Target where
  path : String
  query : Option String := none
  deriving DecidableEq, Inhabited

namespace Target

def maxBytes : Nat := 65534

def isVisible (c : Char) : Bool := '!' ≤ c && c != '\x7f'

def isPathChar (c : Char) : Bool := isVisible c && c != '<' && c != '>' && c != '\x60'

def isQueryChar (c : Char) : Bool := isVisible c && c != '<' && c != '>' && c != '"'

/-- Reads a target; none if it is too long, or has a character that may not stand where it is. -/
def parse? (s : String) : Option Target :=
  let sent := s.toList.takeWhile (· != '#')
  let path := sent.takeWhile (· != '?')
  let query := (sent.dropWhile (· != '?')).tail
  if s.utf8ByteSize ≤ maxBytes && path.all isPathChar && query.all isQueryChar then
    some {
      path := String.ofList path
      query := if path.length < sent.length then some (String.ofList query) else none }
  else none

/-! What follows a hash sign is not looked at. -/

example : parse? "/a?b^c#\x7f" = some { path := "/a", query := some "b^c" } ∧
    parse? "/a?b\x7f" = none ∧ parse? "/a\x7fb" = none ∧ parse? "/a\x60" = none := by decide

end Target
end NodeProvisioner.ClusterApi
