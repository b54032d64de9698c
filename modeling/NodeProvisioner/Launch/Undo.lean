import NodeProvisioner.World.Waiting

/-! What a launch has to undo if it fails. Each side effect leaves the step that undoes it; the
steps are taken back in reverse order, and one that fails does not keep the others from being
tried. -/
namespace NodeProvisioner

inductive UndoStep where
  /-- Gives a reservation back as it was granted. -/
  | releaseCapacity (region zone : String) (granted : Reservation)
  /-- Stops and deletes a machine. -/
  | deleteMachine (zone : String) (machine : MachineId)
  | revokeToken (token : String)
  deriving DecidableEq

/-- The steps in the order in which they were recorded. -/
structure UndoStack where
  steps : List UndoStep := []
  deriving DecidableEq, Inhabited

namespace UndoStack

def push (s : UndoStack) (step : UndoStep) : UndoStack := ⟨s.steps ++ [step]⟩

def size (s : UndoStack) : Nat := s.steps.length

def isEmpty (s : UndoStack) : Bool := s.steps.isEmpty

end UndoStack

namespace UndoStep

/-- Deletes a machine and waits until it is gone. That it does not exist is no failure. The wait
is not cut short by the caller. -/
def deleteNow (p : Patience) (region zone : String) (machine : MachineId) : Job Unit := do
  match ← (Hypervisor.send region (.delete zone machine)).attempt with
  | .ok task => Task.succeed p false region zone task
  | .error e => if e.isNotFound then return () else Job.fail e

/-- Stops a machine, as far as that is possible, and deletes it. A machine that never started
refuses to stop, which does no harm; one that is not found needs no deletion. -/
def removeMachine (p : Patience) (region zone : String) (machine : MachineId) : Job Unit := do
  match ← (Hypervisor.send region (.stop zone machine)).attempt with
  | .ok task =>
    (Task.succeed p false region zone task).tolerate
    deleteNow p region zone machine
  | .error e => if e.isNotFound then return () else deleteNow p region zone machine

def run (p : Patience) (region : String) : UndoStep → Job Unit
  | releaseCapacity region zone granted => Capacity.send (.release region zone granted)
  | deleteMachine zone machine => removeMachine p region zone machine
  | revokeToken token => Bootstrap.send (.revokeToken token)

/-- Takes the steps in turn and counts those that failed. -/
def runAll (p : Patience) (region : String) : List UndoStep → Plan Nat
  | [] => return 0
  | step :: rest => do
    let failed := match ← (step.run p region).run with
      | .ok _ => 0
      | .error _ => 1
    return failed + (← runAll p region rest)

end UndoStep

/-- Takes all steps back, the last one first; gives the number of steps that failed. -/
def UndoStack.unwind (s : UndoStack) (p : Patience) (region : String) : Plan Nat :=
  UndoStep.runAll p region s.steps.reverse

end NodeProvisioner
