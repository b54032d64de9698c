import NodeProvisioner.Digest.Sha256

/-! The two written forms of a digest: lower-case hexadecimal, and the URL-safe base 64 without
padding. -/
namespace NodeProvisioner

def hexDigit (n : Nat) : Char := "0123456789abcdef".toList.getD n '0'

def hexDigits (n value : Nat) : List Char :=
  (List.range n).reverse.map fun i => hexDigit (value >>> (4 * i) % 16)

theorem length_hexDigits (n value : Nat) : (hexDigits n value).length = n := by
  simp [hexDigits]

def Digest.hexChars (d : Digest) : List Char :=
  d.words.toList.flatMap fun w => hexDigits 8 w.toNat

theorem Digest.length_hexChars (d : Digest) : d.hexChars.length = 64 := by
  simp [hexChars, List.length_flatMap, length_hexDigits, List.map_const']

def Digest.hex (d : Digest) : String := String.ofList d.hexChars

namespace Base64

def alphabet : List Char :=
  "ABCDEFGHIJKLMNOPQRSTUVWXYZabcdefghijklmnopqrstuvwxyz0123456789-_".toList

def symbol (n : Nat) : Char := alphabet.getD (n % 64) 'A'

/-- Three bytes give four symbols; one or two left over give two or three. -/
def encode : List UInt8 → List Char
  | a :: b :: c :: rest =>
    let n := a.toNat * 65536 + b.toNat * 256 + c.toNat
    symbol (n / 262144) :: symbol (n / 4096) :: symbol (n / 64) :: symbol n :: encode rest
  | [a, b] =>
    let n := a.toNat * 65536 + b.toNat * 256
    [symbol (n / 262144), symbol (n / 4096), symbol (n / 64)]
  | [a] => [symbol (a.toNat / 4), symbol (a.toNat * 16)]
  | [] => []

end Base64

def Digest.base64 (d : Digest) : String := String.ofList (Base64.encode d.bytes)

end NodeProvisioner
