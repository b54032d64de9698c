import NodeProvisioner.Binary64.Shortest
import NodeProvisioner.Digest.Writing
import NodeProvisioner.Document
import NodeProvisioner.Text.Numeral

/-! Documents written as JSON text of one line. The fields of a record are written in order of
their names, so records that differ in the order of their fields have the same text. Decimals are
written as numbers, or as their bit patterns. -/
namespace NodeProvisioner

namespace Json

/-- Control characters, and those that some readers take for the end of a line. -/
def isEscaped (c : Char) : Bool :=
  c.toNat < 0x20 || c.toNat == 0x7f || c.toNat == 0x85 || c.toNat == 0x2028 || c.toNat == 0x2029

def writeChar (c : Char) : List Char :=
  if c == '"' || c == '\\' then ['\\', c]
  else if isEscaped c then '\\' :: 'u' :: hexDigits 4 c.toNat
  else [c]

def quote (s : String) : String := String.ofList ('"' :: s.toList.flatMap writeChar ++ ['"'])

def bits (x : Binary64) : String := quote (String.ofList (hexDigits 16 x.bits.toNat))

def integer : Int → String
  | .ofNat n => Text.numeral n
  | .negSucc n => "-" ++ Text.numeral (n + 1)

def zeros (n : Nat) : List Char := List.replicate n '0'

/-- Digits with a point among them from `10 ^ -5` up to `10 ^ 16`, and with an exponent outside. -/
def unsigned (d : Decimal) : String :=
  let ds := (Text.numeral d.digits).toList
  let whole := ds.length + d.exponent
  if 0 ≤ d.exponent && whole ≤ 16 then String.ofList (ds ++ zeros d.exponent.toNat ++ ['.', '0'])
  else if 0 < whole && whole ≤ 16 then
    String.ofList (ds.take whole.toNat ++ '.' :: ds.drop whole.toNat)
  else if -5 < whole && whole ≤ 0 then
    String.ofList ('0' :: '.' :: zeros (-whole).toNat ++ ds)
  else
    let behind := if ds.length = 1 then [] else '.' :: ds.drop 1
    String.ofList (ds.take 1 ++ behind) ++ "e" ++ integer (whole - 1)

/-- There is no number for what is not finite. -/
def decimal (x : Binary64) : String :=
  if x.isFinite then (if x.isNegative then "-" else "") ++ unsigned x.shortest else "null"

def list (items : List String) : String := "[" ++ String.intercalate "," items ++ "]"

def record (fields : List (String × String)) : String :=
  "\x7b" ++ String.intercalate ","
    ((KeyMap.ofList fields).entries.map fun f => quote f.1 ++ ":" ++ f.2) ++ "\x7d"

end Json

mutual

def Document.write (decimal : Binary64 → String) : Document → String
  | .null => "null"
  | .bool b => if b then "true" else "false"
  | .integer n => Json.integer n
  | .decimal x => decimal x
  | .text s => Json.quote s
  | .list items => Json.list (Document.writeItems decimal items)
  | .record fields => Json.record (Document.writeFields decimal fields)

def Document.writeItems (decimal : Binary64 → String) : List Document → List String
  | [] => []
  | d :: ds => d.write decimal :: Document.writeItems decimal ds

def Document.writeFields (decimal : Binary64 → String) :
    List (String × Document) → List (String × String)
  | [] => []
  | (name, d) :: fs => (name, d.write decimal) :: Document.writeFields decimal fs

end

def Document.toJson (d : Document) : String := d.write Json.decimal

/-- Bit patterns stand for the decimals, so that nothing is lost. -/
def Document.toPatternJson (d : Document) : String := d.write Json.bits

end NodeProvisioner
