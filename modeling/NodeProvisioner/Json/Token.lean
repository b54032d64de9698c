import NodeProvisioner.Json.Number

/-! The tokens of JSON text. -/
namespace NodeProvisioner.Json

inductive Token where
  | openList
  | closeList
  | openRecord
  | closeRecord
  | comma
  | colon
  /-- A text, a number, or one of the three words. -/
  | leaf (d : Document)

namespace Token

def isSpace (c : Char) : Bool := c == ' ' || c == '\n' || c == '\r' || c == '\t'

def mark? : Char → Option Token
  | '[' => some openList
  | ']' => some closeList
  | '\x7b' => some openRecord
  | '\x7d' => some closeRecord
  | ',' => some comma
  | ':' => some colon
  | _ => none

def word? (cs : List Char) : Option Token :=
  if cs = "null".toList then some (leaf .null)
  else if cs = "true".toList then some (leaf (.bool true))
  else if cs = "false".toList then some (leaf (.bool false))
  else (Numeral.parse? cs).map fun n => leaf n.toDocument

def hexDigit? (c : Char) : Option Nat :=
  if c.isDigit then some (c.toNat - '0'.toNat)
  else if 'a' ≤ c && c ≤ 'f' then some (c.toNat - 'a'.toNat + 10)
  else if 'A' ≤ c && c ≤ 'F' then some (c.toNat - 'A'.toNat + 10)
  else none

def codeUnit? (a b c d : Char) : Option Nat := do
  return ((← hexDigit? a) * 16 + (← hexDigit? b)) * 256 + (← hexDigit? c) * 16 + (← hexDigit? d)

def escaped? : Char → Option Char
  | '"' => some '"'
  | '\\' => some '\\'
  | '/' => some '/'
  | 'b' => some '\x08'
  | 'f' => some '\x0c'
  | 'n' => some '\n'
  | 'r' => some '\r'
  | 't' => some '\t'
  | _ => none

def isHighHalf (unit : Nat) : Bool := 0xD800 ≤ unit && unit < 0xDC00

def isLowHalf (unit : Nat) : Bool := 0xDC00 ≤ unit && unit < 0xE000

def joinHalves (high low : Nat) : Char :=
  Char.ofNat (0x10000 + (high - 0xD800) * 0x400 + (low - 0xDC00))

mutual

/-- Reads on between tokens; `done` is what was read, the last token first. -/
def between (done : List Token) : List Char → Option (List Token)
  | [] => some done
  | c :: cs =>
    if c == '"' then inText done none [] cs
    else if isSpace c then between done cs
    else
      match mark? c with
      | some t => between (t :: done) cs
      | none => inWord done [c] cs

def inWord (done : List Token) (word : List Char) : List Char → Option (List Token)
  | [] => (word? word.reverse).map (· :: done)
  | c :: cs =>
    if isSpace c then (word? word.reverse).bind fun w => between (w :: done) cs
    else
      match mark? c with
      | some t => (word? word.reverse).bind fun w => between (t :: w :: done) cs
      | none => inWord done (c :: word) cs

/-- Reads on within a text. The half of a character waits for the other half, which has to follow
at once. -/
def inText (done : List Token) (half : Option Nat) (chars : List Char) :
    List Char → Option (List Token)
  | [] => none
  | '\\' :: 'u' :: a :: b :: c :: d :: cs =>
    match codeUnit? a b c d, half with
    | none, _ => none
    | some low, some high =>
      if isLowHalf low then inText done none (joinHalves high low :: chars) cs else none
    | some unit, none =>
      if isLowHalf unit then none
      else if isHighHalf unit then inText done (some unit) chars cs
      else inText done none (Char.ofNat unit :: chars) cs
  | '\\' :: c :: cs =>
    if half.isSome then none
    else (escaped? c).bind fun e => inText done none (e :: chars) cs
  | c :: cs =>
    if half.isSome || c.toNat < 0x20 then none
    else if c == '"' then between (leaf (.text (String.ofList chars.reverse)) :: done) cs
    else inText done none (c :: chars) cs

end

def all? (s : String) : Option (List Token) := (between [] s.toList).map List.reverse

end Token
end NodeProvisioner.Json
