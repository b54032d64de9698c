/-! The SHA-256 digest of a byte string, as eight words. -/
namespace NodeProvisioner

/-- A digest of 256 bits, most significant word first. -/
structure Digest where
  words : Vector UInt32 8
  deriving DecidableEq

namespace Sha256

/-- The first 32 bits of the fractional parts of the cube roots of the first 64 primes. -/
def roundConstants : List UInt32 :=
  [0x428a2f98, 0x71374491, 0xb5c0fbcf, 0xe9b5dba5, 0x3956c25b, 0x59f111f1, 0x923f82a4, 0xab1c5ed5,
   0xd807aa98, 0x12835b01, 0x243185be, 0x550c7dc3, 0x72be5d74, 0x80deb1fe, 0x9bdc06a7, 0xc19bf174,
   0xe49b69c1, 0xefbe4786, 0x0fc19dc6, 0x240ca1cc, 0x2de92c6f, 0x4a7484aa, 0x5cb0a9dc, 0x76f988da,
   0x983e5152, 0xa831c66d, 0xb00327c8, 0xbf597fc7, 0xc6e00bf3, 0xd5a79147, 0x06ca6351, 0x14292967,
   0x27b70a85, 0x2e1b2138, 0x4d2c6dfc, 0x53380d13, 0x650a7354, 0x766a0abb, 0x81c2c92e, 0x92722c85,
   0xa2bfe8a1, 0xa81a664b, 0xc24b8b70, 0xc76c51a3, 0xd192e819, 0xd6990624, 0xf40e3585, 0x106aa070,
   0x19a4c116, 0x1e376c08, 0x2748774c, 0x34b0bcb5, 0x391c0cb3, 0x4ed8aa4a, 0x5b9cca4f, 0x682e6ff3,
   0x748f82ee, 0x78a5636f, 0x84c87814, 0x8cc70208, 0x90befffa, 0xa4506ceb, 0xbef9a3f7, 0xc67178f2]

/-- The first 32 bits of the fractional parts of the square roots of the first 8 primes. -/
def initialState : Vector UInt32 8 :=
  #v[0x6a09e667, 0xbb67ae85, 0x3c6ef372, 0xa54ff53a, 0x510e527f, 0x9b05688c, 0x1f83d9ab, 0x5be0cd19]

def rotateRight (w n : UInt32) : UInt32 := (w >>> n) ||| (w <<< (32 - n))

def nextWord (w : Vector UInt32 16) : UInt32 :=
  let s0 := rotateRight w[1] 7 ^^^ rotateRight w[1] 18 ^^^ (w[1] >>> 3)
  let s1 := rotateRight w[14] 17 ^^^ rotateRight w[14] 19 ^^^ (w[14] >>> 10)
  w[0] + s0 + w[9] + s1

def slide (w : Vector UInt32 16) : Vector UInt32 16 :=
  Vector.ofFn fun i => if h : i.val + 1 < 16 then w[i.val + 1] else nextWord w

def round (s : Vector UInt32 8) (constant word : UInt32) : Vector UInt32 8 :=
  let s1 := rotateRight s[4] 6 ^^^ rotateRight s[4] 11 ^^^ rotateRight s[4] 25
  let choice := (s[4] &&& s[5]) ^^^ (~~~s[4] &&& s[6])
  let t1 := s[7] + s1 + choice + constant + word
  let s0 := rotateRight s[0] 2 ^^^ rotateRight s[0] 13 ^^^ rotateRight s[0] 22
  let majority := (s[0] &&& s[1]) ^^^ (s[0] &&& s[2]) ^^^ (s[1] &&& s[2])
  #v[t1 + s0 + majority, s[0], s[1], s[2], s[3] + t1, s[4], s[5], s[6]]

def rounds (s : Vector UInt32 8) (w : Vector UInt32 16) : List UInt32 → Vector UInt32 8
  | [] => s
  | k :: ks => rounds (round s k w[0]) (slide w) ks

def compress (s : Vector UInt32 8) (block : Vector UInt32 16) : Vector UInt32 8 :=
  let t := rounds s block roundConstants
  Vector.ofFn fun i => s[i.val] + t[i.val]

theorem size_block {ws : List UInt32} (h : 16 ≤ ws.length) : (ws.take 16).toArray.size = 16 := by
  simp; omega

def absorb (s : Vector UInt32 8) (ws : List UInt32) : Vector UInt32 8 :=
  if h : 16 ≤ ws.length then
    absorb (compress s ⟨(ws.take 16).toArray, size_block h⟩) (ws.drop 16)
  else s
termination_by ws.length

/-- Reads big-endian words; a rest of fewer than four bytes is dropped. -/
def wordsOfBytes : List UInt8 → List UInt32
  | a :: b :: c :: d :: rest =>
    ((a.toUInt32 <<< 24) ||| (b.toUInt32 <<< 16) ||| (c.toUInt32 <<< 8) ||| d.toUInt32) ::
      wordsOfBytes rest
  | _ => []

def bigEndian (n value : Nat) : List UInt8 :=
  (List.range n).reverse.map fun i => UInt8.ofNat (value >>> (8 * i))

/-- A delimiter bit, zeros up to a whole number of blocks, and the length in bits. -/
def pad (bytes : List UInt8) : List UInt8 :=
  bytes ++ 0x80 :: List.replicate ((119 - bytes.length % 64) % 64) 0 ++
    bigEndian 8 (8 * bytes.length)

def digest (bytes : List UInt8) : Digest :=
  ⟨absorb initialState (wordsOfBytes (pad bytes))⟩

def digestText (s : String) : Digest := digest s.toUTF8.toList

end Sha256

def Digest.bytes (d : Digest) : List UInt8 :=
  d.words.toList.flatMap fun w => Sha256.bigEndian 4 w.toNat

end NodeProvisioner
