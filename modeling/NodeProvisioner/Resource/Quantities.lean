import NodeProvisioner.Document

/-! Amounts of compute in integer base units: millicores, bytes and pods. -/
namespace NodeProvisioner

structure Quantities where
  cpuMillis : UInt64 := 0
  memoryBytes : UInt64 := 0
  pods : UInt64 := 0
  ephemeralStorageBytes : UInt64 := 0
  deriving DecidableEq, Inhabited

namespace Quantities

def mib : Nat := 1024 * 1024

def gib : Nat := 1024 * mib

def ceilDiv (n unit : Nat) : Nat := (n + (unit - 1)) / unit

/-- Whole cores; a partial core counts as one. Counts beyond 32 bits lose their high bits. -/
def vcpus (q : Quantities) : UInt32 := UInt32.ofNat (ceilDiv q.cpuMillis.toNat 1000)

def memoryMib (q : Quantities) : UInt64 := UInt64.ofNat (ceilDiv q.memoryBytes.toNat mib)

def ephemeralStorageGib (q : Quantities) : UInt64 :=
  UInt64.ofNat (ceilDiv q.ephemeralStorageBytes.toNat gib)

def add (a b : Quantities) : Quantities where
  cpuMillis := a.cpuMillis + b.cpuMillis
  memoryBytes := a.memoryBytes + b.memoryBytes
  pods := a.pods + b.pods
  ephemeralStorageBytes := a.ephemeralStorageBytes + b.ephemeralStorageBytes

def truncatedSub (a b : UInt64) : UInt64 := if a ≤ b then 0 else a - b

def sub (a b : Quantities) : Quantities where
  cpuMillis := truncatedSub a.cpuMillis b.cpuMillis
  memoryBytes := truncatedSub a.memoryBytes b.memoryBytes
  pods := truncatedSub a.pods b.pods
  ephemeralStorageBytes := truncatedSub a.ephemeralStorageBytes b.ephemeralStorageBytes

def toDocument (q : Quantities) : Document :=
  .record [("cpuMillis", .ofUInt64 q.cpuMillis), ("memoryBytes", .ofUInt64 q.memoryBytes),
    ("pods", .ofUInt64 q.pods), ("ephemeralStorageBytes", .ofUInt64 q.ephemeralStorageBytes)]

def ofDocument? (d : Document) : Option Quantities := do
  let fs ← d.fields? ["cpuMillis", "memoryBytes", "pods", "ephemeralStorageBytes"]
  return {
    cpuMillis := ← fs.withDefault "cpuMillis" 0 Document.uint64?
    memoryBytes := ← fs.withDefault "memoryBytes" 0 Document.uint64?
    pods := ← fs.withDefault "pods" 0 Document.uint64?
    ephemeralStorageBytes := ← fs.withDefault "ephemeralStorageBytes" 0 Document.uint64? }

end Quantities
end NodeProvisioner
