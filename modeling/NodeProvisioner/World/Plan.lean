import NodeProvisioner.World.Call

/-! Plans: computations that make calls and go on with the replies. A plan does nothing by itself;
whoever runs it decides what each call is answered. -/
namespace NodeProvisioner

inductive Plan (α : Type) where
  | done (a : α)
  | call (c : Call) (next : c.Reply → Plan α)

namespace Plan

variable {α β : Type}

def bind (p : Plan α) (f : α → Plan β) : Plan β :=
  match p with
  | .done a => f a
  | .call c next => .call c fun r => (next r).bind f

instance : Monad Plan where
  pure := .done
  bind := bind

@[simp] theorem pure_bind (a : α) (f : α → Plan β) : (Pure.pure a : Plan α) >>= f = f a := rfl

@[simp] theorem call_bind (c : Call) (next : c.Reply → Plan α) (f : α → Plan β) :
    Plan.call c next >>= f = .call c fun r => next r >>= f := rfl

theorem bind_pure_self (p : Plan α) : p >>= Pure.pure = p := by
  induction p with
  | done a => rfl
  | call c next ih => exact congrArg (Plan.call c) (funext ih)

theorem bind_assoc {γ : Type} (p : Plan α) (f : α → Plan β) (g : β → Plan γ) :
    p >>= f >>= g = p >>= fun a => f a >>= g := by
  induction p with
  | done a => rfl
  | call c next ih => exact congrArg (Plan.call c) (funext ih)

instance : LawfulMonad Plan :=
  LawfulMonad.mk' Plan bind_pure_self (fun _ _ => rfl) bind_assoc

def perform (c : Call) : Plan c.Reply := .call c .done

def run {m : Type → Type} [Monad m] (answer : (c : Call) → m c.Reply) : Plan α → m α
  | .done a => pure a
  | .call c next => do (next (← answer c)).run answer

end Plan

/-- A plan that may fail. -/
structure Job (α : Type) where
  run : Plan (Except Fault α)

namespace Job

variable {α β : Type}

def fail (e : Fault) : Job α := ⟨.done (.error e)⟩

def bind (j : Job α) (f : α → Job β) : Job β where
  run := do
    match ← j.run with
    | .ok a => (f a).run
    | .error e => return .error e

instance : Monad Job where
  pure a := ⟨.done (.ok a)⟩
  bind := bind

instance : MonadLift Plan Job := ⟨fun p => ⟨do return .ok (← p)⟩⟩

@[simp] theorem run_pure (a : α) : (pure a : Job α).run = .done (.ok a) := rfl

theorem run_bind (j : Job α) (f : α → Job β) :
    (j >>= f).run = j.run >>= fun r =>
      match r with
      | .ok a => (f a).run
      | .error e => .done (.error e) := rfl

/-- Does a job and keeps its failure as a result. -/
def attempt (j : Job α) : Job (Except Fault α) := ⟨do return .ok (← j.run)⟩

/-- Does a job for what it does, whatever comes of it. -/
def tolerate (j : Job α) : Plan Unit := do
  let _ ← j.run

def ofExcept (r : Except Fault α) : Job α := ⟨.done r⟩

end Job

def connect (region : String) : Job Unit := ⟨Plan.perform (.connect region)⟩

def Hypervisor.send (region : String) (r : Hypervisor.Request) : Job r.Answer :=
  ⟨Plan.perform (.hypervisor region r)⟩

def Capacity.send (r : Capacity.Request) : Job r.Answer := ⟨Plan.perform (.capacity r)⟩

def Bootstrap.send (r : Bootstrap.Request) : Job r.Answer := ⟨Plan.perform (.bootstrap r)⟩

def writeStatus (template : String) (status : TemplateClass.Status) : Job Unit :=
  ⟨Plan.perform (.writeStatus template status)⟩

def Question.ask (q : Question) : Plan q.Answer := Plan.perform (.ask q)

def Memory.access (a : Memory.Access) : Plan a.Answer := Plan.perform (.memory a)

def Circumstance.learn (c : Circumstance) : Plan c.Answer := Plan.perform (.circumstance c)

/-- Holds the lock of a zone while a job is done, and lets go of it however the job ends. -/
def withZone {α : Type} (region zone : String) (j : Job α) : Job α where
  run := do
    Plan.perform (.enterZone region zone)
    let r ← j.run
    Plan.perform (.leaveZone region zone)
    return r

end NodeProvisioner
