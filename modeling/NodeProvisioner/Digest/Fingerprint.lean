import NodeProvisioner.Digest.Writing

/-! Fingerprints of settings, which do not depend on the order in which the settings are given. -/
namespace NodeProvisioner.Fingerprint

def line (p : String × String) : String := p.1 ++ "=" ++ p.2

/-- What is digested: one line for each pair, in ascending order. -/
def text (pairs : List (String × String)) : String :=
  String.intercalate "\n" ((pairs.map line).mergeSort fun a b => decide (a ≤ b))

def ofPairs (pairs : List (String × String)) : String :=
  (Sha256.digestText (text pairs)).base64

end NodeProvisioner.Fingerprint
