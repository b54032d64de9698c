import NodeProvisioner.Text.Blank
import NodeProvisioner.Text.Cut
import NodeProvisioner.Text.Numeral
import NodeProvisioner.Unreadable
import NodeProvisioner.KeyMap

/-! Sets of host processors, written as ranges such as `0-3,8`. -/
namespace NodeProvisioner

/-- Processor numbers in strictly ascending order. -/
structure CpuSet where
  cpus : List UInt32
  ascending : cpus.Pairwise (· < ·)

namespace CpuSet

@[ext] theorem ext {a b : CpuSet} (h : a.cpus = b.cpus) : a = b := by
  cases a; cases b; cases h; rfl

instance : DecidableEq CpuSet := fun a b =>
  decidable_of_iff (a.cpus = b.cpus) ⟨ext, fun h => h ▸ rfl⟩

instance : Inhabited CpuSet := ⟨⟨[], .nil⟩⟩

/-- Drops every element that is not greater than the one kept before it. -/
def strict (last : Option UInt32) : List UInt32 → List UInt32
  | [] => []
  | c :: cs =>
    match last with
    | none => c :: strict (some c) cs
    | some l => if l < c then c :: strict (some c) cs else strict (some l) cs

theorem lt_of_mem_strict {l c : UInt32} {cs : List UInt32} (h : c ∈ strict (some l) cs) :
    l < c := by
  induction cs generalizing l with
  | nil => simp [strict] at h
  | cons d ds ih =>
    simp only [strict] at h
    split at h
    · next hd =>
      rcases List.mem_cons.1 h with rfl | h
      · exact hd
      · exact UInt32.lt_trans hd (ih h)
    · exact ih h

theorem pairwise_strict (last : Option UInt32) (cs : List UInt32) :
    (strict last cs).Pairwise (· < ·) := by
  induction cs generalizing last with
  | nil => simp [strict]
  | cons c cs ih =>
    cases last with
    | none => exact List.pairwise_cons.2 ⟨fun _ h => lt_of_mem_strict h, ih _⟩
    | some l =>
      simp only [strict]
      split
      · exact List.pairwise_cons.2 ⟨fun _ h => lt_of_mem_strict h, ih _⟩
      · exact ih _

def ofList (cpus : List UInt32) : CpuSet :=
  ⟨strict none (cpus.mergeSort fun a b => a ≤ b), pairwise_strict _ _⟩

def range (lo hi : UInt32) : List UInt32 :=
  (List.range (hi.toNat + 1 - lo.toNat)).map fun i => lo + UInt32.ofNat i

/-- The numbers that one part of a text stands for: a number, or two with a dash between. -/
def part? (s : String) : Option (List UInt32) :=
  match Text.cut? '-' s with
  | none => (Text.readUInt32? s).map ([·])
  | some (lo, hi) => do
    let lo ← Text.readUInt32? lo
    let hi ← Text.readUInt32? hi
    if lo ≤ hi then some (range lo hi) else none

def parts (s : String) : List String :=
  ((Text.pieces ',' s).map Text.trim).filter (!·.isEmpty)

def parse (s : String) : Except Unreadable CpuSet :=
  match (parts s).mapM part? with
  | some ranges => .ok (ofList ranges.flatten)
  | none => .error (.cpuSet s)

/-- Extends the range from `lo` to `hi` by the numbers that follow on it, and goes on. -/
def rangesFrom (lo hi : UInt32) : List UInt32 → List (UInt32 × UInt32)
  | [] => [(lo, hi)]
  | c :: cs => if c = hi + 1 then rangesFrom lo c cs else (lo, hi) :: rangesFrom c c cs

def ranges (s : CpuSet) : List (UInt32 × UInt32) :=
  match s.cpus with
  | [] => []
  | c :: cs => rangesFrom c c cs

def renderRange (r : UInt32 × UInt32) : String :=
  if r.1 = r.2 then Text.numeral r.1.toNat
  else Text.numeral r.1.toNat ++ "-" ++ Text.numeral r.2.toNat

def render (s : CpuSet) : String := String.intercalate "," (s.ranges.map renderRange)

def size (s : CpuSet) : Nat := s.cpus.length

def isEmpty (s : CpuSet) : Bool := s.cpus.isEmpty

end CpuSet
end NodeProvisioner
