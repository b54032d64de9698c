import NodeProvisioner.KeyMap

/-! Mutual exclusion by key: one mutex for each key, made when the key is first asked for and kept
from then on. Holders of different keys never wait for each other. -/
namespace NodeProvisioner

structure Mutex (γ : Type) where
  owner : Option γ := none
  /-- Callers in line, the first one first. -/
  line : List γ := []
  deriving Inhabited

namespace Mutex
variable {γ : Type} [DecidableEq γ]

def enter (m : Mutex γ) (caller : γ) : Mutex γ := { m with line := m.line ++ [caller] }

def leave (m : Mutex γ) (caller : γ) : Mutex γ := { m with line := m.line.erase caller }

def grant? (m : Mutex γ) (caller : γ) : Option (Mutex γ) :=
  if m.owner.isNone ∧ caller ∈ m.line then
    some { owner := some caller, line := m.line.erase caller }
  else none

def release (m : Mutex γ) : Mutex γ := { m with owner := none }

end Mutex

/-- Callers of one key share its mutex, so the mutexes are kept apart from the keys, by number. -/
structure KeyedLock (γ : Type) where
  /-- The number of the mutex of each key that was ever asked for. -/
  numbers : KeyMap String Nat := ∅
  mutexes : List (Mutex γ) := []

namespace KeyedLock
variable {γ : Type}

def mutex (l : KeyedLock γ) (n : Nat) : Mutex γ := l.mutexes[n]?.getD {}

def setMutex (l : KeyedLock γ) (n : Nat) (m : Mutex γ) : KeyedLock γ :=
  { l with mutexes := l.mutexes.set n m }

/-- The mutex of a key, which is made on first use. This is one step, and no caller waits in it. -/
def entry (l : KeyedLock γ) (key : String) : Nat × KeyedLock γ :=
  match l.numbers.get? key with
  | some n => (n, l)
  | none =>
    (l.mutexes.length,
      { numbers := l.numbers.insert key l.mutexes.length, mutexes := l.mutexes ++ [{}] })

variable [DecidableEq γ]

def enter (l : KeyedLock γ) (n : Nat) (caller : γ) : KeyedLock γ :=
  l.setMutex n ((l.mutex n).enter caller)

def leave (l : KeyedLock γ) (n : Nat) (caller : γ) : KeyedLock γ :=
  l.setMutex n ((l.mutex n).leave caller)

def grant? (l : KeyedLock γ) (n : Nat) (caller : γ) : Option (KeyedLock γ) :=
  ((l.mutex n).grant? caller).map (l.setMutex n)

def release (l : KeyedLock γ) (n : Nat) : KeyedLock γ := l.setMutex n (l.mutex n).release

/-- Takes a key only if it is free at once, and says whether it was taken. -/
def tryTake (l : KeyedLock γ) (key : String) (caller : γ) : Bool × KeyedLock γ :=
  let (n, l) := l.entry key
  let l := l.enter n caller
  match l.grant? n caller with
  | some l => (true, l)
  | none => (false, l.leave n caller)

def tryRelease (l : KeyedLock γ) (key : String) : Bool × KeyedLock γ :=
  match l.numbers.get? key with
  | some n => ((l.mutex n).owner.isSome, l.release n)
  | none => (false, l)

end KeyedLock
end NodeProvisioner
