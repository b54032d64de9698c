/-! Bytes written in base 64, padded to groups of four. -/
namespace NodeProvisioner.Text

def sextet? (c : Char) : Option Nat :=
  if 'A' ≤ c && c ≤ 'Z' then some (c.toNat - 'A'.toNat)
  else if 'a' ≤ c && c ≤ 'z' then some (c.toNat - 'a'.toNat + 26)
  else if '0' ≤ c && c ≤ '9' then some (c.toNat - '0'.toNat + 52)
  else if c = '+' then some 62
  else if c = '/' then some 63
  else none

/-- A digit whose low bits, those below `unit`, are zero. -/
def endsIn (unit : Nat) (c : Char) : Bool := (sextet? c).any (· % unit == 0)

def isSextet (c : Char) : Bool := (sextet? c).isSome

/-- Whole groups of digits. Only the last group is padded, and the bits that no byte needs are
zero, so every row of bytes has one written form. -/
def isBase64 : List Char → Bool
  | [] => true
  | [a, b, '=', '='] => isSextet a && endsIn 16 b
  | [a, b, c, '='] => isSextet a && isSextet b && endsIn 4 c
  | a :: b :: c :: d :: rest =>
    isSextet a && isSextet b && isSextet c && isSextet d && isBase64 rest
  | _ => false

example : isBase64 "TWE=".toList = true ∧ isBase64 "TWF=".toList = false ∧
    isBase64 "TQ==".toList = true ∧ isBase64 "TQ=".toList = false := by decide

end NodeProvisioner.Text
