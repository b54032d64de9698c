import NodeProvisioner.Proofs.Launch.Describing

/-! The machines behind the hypervisors, and whom each was launched for. A hypervisor is taken at
its word: it finds what is there, tells descriptions as they are, and gives an id to a new machine
only if the id is free. An id that has become free may be given anew, and machines may vanish at
any time. -/
namespace NodeProvisioner

abbrev PerMachine (β : Type) := String → MachineId → Option β

def PerMachine.set {β : Type} (f : PerMachine β) (region : String) (id : MachineId)
    (o : Option β) : PerMachine β :=
  fun r i => if r = region ∧ i = id then o else f r i

/-- A machine, as far as it says whose it is. -/
structure Guest where
  description : Option String := none

def Guest.nodeClaim (g : Guest) : Option String :=
  (Machine.provenance { description := g.description }).nodeClaim

def Change.description {β : Type} (c : Change) (told : String → β) (before : Option β) : Option β :=
  match c.set.get? "description" with
  | some d => some (told d)
  | none => if c.delete.contains "description" then none else before

abbrev Fleet := PerMachine Guest

namespace Fleet

def Within (f' f : Fleet) : Prop := ∀ region id g, f' region id = some g → f region id = some g

def Answers (f : Fleet) : Event → Prop
  | ⟨.hypervisor region (.findMachine id), .ok none⟩ => f region id = none
  | ⟨.hypervisor region (.findMachine id), .ok (some seen)⟩ =>
    seen.machine = id ∧ (f region id).isSome = true
  | ⟨.hypervisor region (.readMachine _ id), .ok m⟩ =>
    ∃ g, f region id = some g ∧ m.description = g.description
  | ⟨.hypervisor region (.clone q), .ok _⟩ => f region q.machine = none
  | _ => True

/-- What an event does to the machines. A fresh clone names no claim, and any machine may have
vanished in the meantime. -/
def Becomes (f : Fleet) (f' : Fleet) : Event → Prop
  | ⟨.hypervisor region (.clone q), .ok _⟩ =>
    ∃ g : Guest, g.nodeClaim = none ∧ f'.Within (f.set region q.machine (some g))
  | ⟨.hypervisor region (.configure _ machine change), .ok _⟩ =>
    f'.Within (f.set region machine
      ((f region machine).map fun g => ⟨change.description id g.description⟩))
  | _ => f'.Within f

end Fleet

structure Moment where
  fleet : Fleet
  event : Event

def Fleet.Serves (f : Fleet) : List Moment → Fleet → Prop
  | [], f' => f'.Within f
  | m :: ms, f' => m.fleet = f ∧ f.Answers m.event ∧
      ∃ next, f.Becomes next m.event ∧ Fleet.Serves next ms f'

abbrev Owners := PerMachine String

namespace Owners

/-- A clone is nobody's until it is described; then it is the claim's. -/
def note (name : String) (own : Owners) : Event → Owners
  | ⟨.hypervisor region (.clone q), .ok _⟩ => own.set region q.machine none
  | ⟨.hypervisor region (.configure _ id change), .ok _⟩ =>
    own.set region id (change.description (fun _ => name) (own region id))
  | _ => own

end Owners

def Call.isShaping : Call → Bool
  | .hypervisor _ (.clone _) => true
  | .hypervisor _ (.configure _ _ _) => true
  | _ => false

def Call.region? : Call → Option String
  | .hypervisor region _ => some region
  | _ => none

def Call.RegionPlain (c : Call) : Prop := ∀ region ∈ c.region?, '\n' ∉ region.toList

namespace Fleet
variable {settings : Settings} {f f' : Fleet} {own : Owners}

def owners (f : Fleet) : Owners := fun region id => (f region id).bind Guest.nodeClaim

def Agrees (f : Fleet) (own : Owners) : Prop :=
  ∀ region id g, f region id = some g → g.nodeClaim = own region id

theorem agrees_owners (f : Fleet) : f.Agrees f.owners := by
  intro region id g hg
  simp [owners, hg]

theorem Agrees.within (h : f.Agrees own) (hwithin : f'.Within f) : f'.Agrees own :=
  fun region id g hg => h region id g (hwithin region id g hg)

theorem Agrees.set (h : f.Agrees own) {region : String} {id : MachineId} {o : Option Guest}
    {owner : Option String} (ho : ∀ g ∈ o, g.nodeClaim = owner) :
    Fleet.Agrees (PerMachine.set f region id o) (PerMachine.set own region id owner) := by
  intro r i g hg
  unfold PerMachine.set at hg ⊢
  split at hg
  · next hhere =>
    rw [if_pos hhere]
    exact ho g hg
  · next hhere =>
    rw [if_neg hhere]
    exact h r i g hg

theorem nodeClaim_description {name : String} {change : Change} {g : Guest} {owner : Option String}
    (hg : g.nodeClaim = owner)
    (hname : ∀ d, change.set.get? "description" = some d →
      (Provenance.parse d).nodeClaim = some name) :
    Guest.nodeClaim ⟨change.description id g.description⟩ =
      change.description (fun _ => name) owner := by
  unfold Change.description
  cases hset : change.set.get? "description" with
  | some d => exact hname d hset
  | none =>
    dsimp only
    split
    · rfl
    · exact hg

theorem Agrees.note (h : f.Agrees own) {name : String} {e : Event}
    (hdescribes : ∀ region zone id change, e.call = .hypervisor region (.configure zone id change) →
      ∀ d, change.set.get? "description" = some d → (Provenance.parse d).nodeClaim = some name)
    (hstep : f.Becomes f' e) : f'.Agrees (own.note name e) := by
  unfold Becomes at hstep
  unfold Owners.note
  split at hstep
  · obtain ⟨g, hg, hwithin⟩ := hstep
    refine Agrees.within (h.set ?_) hwithin
    rintro _ ⟨⟩
    exact hg
  · next region zone id change answer =>
    refine Agrees.within (h.set ?_) hstep
    intro g' hg'
    obtain ⟨g, hg, rfl⟩ := Option.map_eq_some_iff.1 hg'
    exact nodeClaim_description (h region id g hg) (hdescribes region zone id change rfl)
  · exact h.within hstep

theorem becomes_within {e : Event} (hcall : e.call.isShaping = false) (hstep : f.Becomes f' e) :
    f'.Within f := by
  unfold Becomes at hstep
  split at hstep
  · cases hcall
  · cases hcall
  · exact hstep

theorem Agrees.serves {name : String} {ms : List Moment} (h : f.Agrees own)
    (hplain : ∀ m ∈ ms, m.event.call.RegionPlain)
    (hdescribes : ∀ m ∈ ms, m.event.call.Describes name) (hserve : f.Serves ms f') :
    f'.Agrees ((ms.map (·.event)).foldl (Owners.note name) own) := by
  induction ms generalizing f own with
  | nil => exact h.within hserve
  | cons m ms ih =>
    obtain ⟨-, -, next, hstep, hrest⟩ := hserve
    obtain ⟨hm, hms⟩ := List.forall_mem_cons.1 hdescribes
    obtain ⟨hregion, hplain⟩ := List.forall_mem_cons.1 hplain
    -- The record moves along with the machines, one moment at a time.
    refine ih (h.note ?_ hstep) hplain hms hrest
    intro region zone id change hcall
    rw [hcall] at hm hregion
    exact hm (hregion region rfl)

theorem Agrees.throughout {ms : List Moment} (h : f.Agrees own)
    (hcalls : ∀ m ∈ ms, m.event.call.isShaping = false) (hserve : f.Serves ms f') :
    (∀ m ∈ ms, m.fleet.Agrees own) ∧ f'.Agrees own := by
  induction ms generalizing f with
  | nil => exact ⟨by simp, h.within hserve⟩
  | cons m ms ih =>
    obtain ⟨rfl, -, next, hstep, hrest⟩ := hserve
    obtain ⟨hm, hms⟩ := List.forall_mem_cons.1 hcalls
    obtain ⟨hmoments, hend⟩ := ih (h.within (becomes_within hm hstep)) hms hrest
    exact ⟨List.forall_mem_cons.2 ⟨h, hmoments⟩, hend⟩

end Fleet

def Event.FindsExactly : Event → Prop
  | ⟨.hypervisor _ (.findMachine id), .ok (some seen)⟩ => seen.machine = id
  | _ => True

theorem Fleet.Serves.findsExactly {f f' : Fleet} {ms : List Moment} (h : f.Serves ms f') :
    ∀ m ∈ ms, m.event.FindsExactly := by
  induction ms generalizing f with
  | nil => simp
  | cons m ms ih =>
    obtain ⟨-, hanswer, next, -, hrest⟩ := h
    refine List.forall_mem_cons.2 ⟨?_, ih hrest⟩
    unfold Event.FindsExactly
    unfold Fleet.Answers at hanswer
    split at hanswer <;> simp_all

def Guest.machine (g : Guest) : Machine where
  description := g.description
  disks := .ofList [("scsi0", { volume := "local:1" })]

namespace Fleet

def serve (f : Fleet) : (c : Call) → c.Reply × Fleet
  | .hypervisor region (.findMachine id) =>
    (.ok ((f region id).map fun _ => { machine := id, zone := "z1" }), f)
  | .hypervisor region (.readMachine _ id) =>
    match f region id with
    | some g => (.ok g.machine, f)
    | none => (.error (.notFound "vm" (Text.numeral id.toNat)), f)
  | .hypervisor region (.clone q) =>
    match f region q.machine with
    | some _ => (.error (.transient "clone" "id in use"), f)
    | none => (.ok "clone", f.set region q.machine (some {}))
  | .hypervisor region (.configure _ id change) => (.ok (), f.set region id
      ((f region id).map fun g => ⟨change.description (fun d => d) g.description⟩))
  | .hypervisor region (.delete _ id) => (.ok "delete", f.set region id none)
  | c => (c.grant, f)

theorem within_refl (f : Fleet) : f.Within f := fun _ _ _ h => h

theorem serve_true (f : Fleet) (c : Call) :
    f.Answers ⟨c, (f.serve c).1⟩ ∧ f.Becomes (f.serve c).2 ⟨c, (f.serve c).1⟩ := by
  cases c with
  | hypervisor region q =>
    cases q with
    | findMachine id =>
      cases h : f region id with
      | none => simp [serve, h, Answers, Becomes, within_refl]
      | some g => simp [serve, h, Answers, Becomes, within_refl]
    | readMachine zone id =>
      cases h : f region id with
      | none => simp [serve, h, Answers, Becomes, within_refl]
      | some g => simp [serve, h, Answers, Becomes, within_refl, Guest.machine]
    | clone q =>
      cases h : f region q.machine with
      | none =>
        simp only [serve, h, Answers, Becomes, true_and]
        exact ⟨{}, rfl, within_refl _⟩
      | some g => simp [serve, h, Answers, Becomes, within_refl]
    | configure zone id change => exact ⟨trivial, within_refl _⟩
    | delete zone id =>
      refine ⟨trivial, fun r i g hg => ?_⟩
      simp only [serve, PerMachine.set] at hg
      split at hg
      · cases hg
      · exact hg
    | _ => exact ⟨trivial, within_refl _⟩
  | _ => exact ⟨trivial, within_refl _⟩

def play {α : Type} (f : Fleet) : Plan α → List Moment × Fleet × α
  | .done a => ([], f, a)
  | .call c next =>
    let r := f.serve c
    let rest := r.2.play (next r.1)
    (⟨f, ⟨c, r.1⟩⟩ :: rest.1, rest.2)

theorem play_runs {α : Type} (f : Fleet) (p : Plan α) :
    p.Yields ((f.play p).1.map (·.event)) (f.play p).2.2 ∧
      f.Serves (f.play p).1 (f.play p).2.1 := by
  induction p generalizing f with
  | done a => exact ⟨.done a, within_refl f⟩
  | call c next ih =>
    obtain ⟨hyields, hserves⟩ := ih (f.serve c).1 (f.serve c).2
    obtain ⟨hanswers, hbecomes⟩ := f.serve_true c
    exact ⟨.call _ hyields, rfl, hanswers, _, hbecomes, hserves⟩

end Fleet
end NodeProvisioner
