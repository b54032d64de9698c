import NodeProvisioner.World.Plan
import NodeProvisioner.Patience

/-! Waiting for a remote operation: look, and if it is not finished, wait and look again. The
first look is made at once, even by a caller that has already cancelled. The last one is made when
the time is up, since no pause goes past it. -/
namespace NodeProvisioner

namespace Waiting

/-- How long to pause: the delay with jitter, at least a nanosecond and at most the time left. -/
def nap (jitter : Jitter) (delay left : Nat) : Nat := min (max 1 (jitter.scale delay)) left

theorem nap_pos (jitter : Jitter) (delay : Nat) {left : Nat} (h : 0 < left) :
    0 < nap jitter delay left := by
  unfold nap; omega

theorem nap_le (jitter : Jitter) (delay left : Nat) : nap jitter delay left ≤ left := by
  unfold nap; omega

def cancelled (operation : String) : Fault := .transient operation "cancelled while waiting"

def timedOut (operation : String) (p : Patience) : Fault :=
  .transient operation ("timed out after " ++ Text.numeral (Span.seconds p.timeout) ++ "s")

variable {α : Type}

/-- Looks again and again, `elapsed` after the start; `delay` is the next pause before jitter. A
look that fails ends the wait. -/
def lookFrom (p : Patience) (operation : String) (heedsCaller : Bool) (look : Job (Option α))
    (elapsed delay : Nat) : Job α := do
  match ← look with
  | some a => return a
  | none =>
    if _ : p.timeout ≤ elapsed then
      Job.fail (timedOut operation p)
    else
      let jitter ← Circumstance.jitter.learn
      let span := nap jitter delay (p.timeout - elapsed)
      if ← (Circumstance.pause span heedsCaller).learn then
        Job.fail (cancelled operation)
      else
        lookFrom p operation heedsCaller look (elapsed + span) (p.grow delay)
termination_by p.timeout - elapsed
decreasing_by
  have : 0 < nap jitter delay (p.timeout - elapsed) := nap_pos _ _ (by omega)
  omega

def untilFinished (p : Patience) (operation : String) (heedsCaller : Bool)
    (look : Job (Option α)) : Job α :=
  lookFrom p operation heedsCaller look 0 p.initial

end Waiting

namespace Task

def operation (task : TaskId) : String := "task " ++ task

/-- The status of a task, if it has stopped. -/
def look (region zone : String) (task : TaskId) : Job (Option TaskStatus) := do
  let status ← Hypervisor.send region (.taskStatus zone task)
  return if status.isFinished then some status else none

def finish (p : Patience) (heedsCaller : Bool) (region zone : String) (task : TaskId) :
    Job TaskStatus :=
  Waiting.untilFinished p (operation task) heedsCaller (look region zone task)

def failure (task : TaskId) (status : TaskStatus) : Fault :=
  .transient (operation task) (status.exit.getD "stopped without exit status")

def succeed (p : Patience) (heedsCaller : Bool) (region zone : String) (task : TaskId) :
    Job Unit := do
  let status ← finish p heedsCaller region zone task
  if status.isSuccess then return () else Job.fail (failure task status)

end Task
end NodeProvisioner
