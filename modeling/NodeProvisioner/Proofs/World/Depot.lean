import Mathlib.Data.List.TakeWhile
import NodeProvisioner.Proofs.World.Estate

/-! A hypervisor that can be run, and on which all goes well: what it answers is what a site allows.
It goes through its cells to find what it is asked for. -/
namespace NodeProvisioner

/-- What is held, in cells that can be gone through. -/
structure Depot where
  estate : Estate
  cells : List Cell
  complete : ∀ c, estate.held c ≠ none → c ∈ cells

instance (tenant : Tenant) (name zone : String) : Decidable (tenant.IsTemplate name zone) :=
  decidable_of_iff (tenant.zone = zone ∧ tenant.options.get? "name" = some name ∧
      tenant.options.get? "template" = some "1")
    ⟨fun ⟨here, named, marked⟩ => ⟨here, named, marked⟩,
      fun ⟨here, named, marked⟩ => ⟨here, named, marked⟩⟩

instance (work : Work) (region zone : String) (task : TaskId) :
    Decidable (work.Is region zone task) :=
  decidable_of_iff (work.region = region ∧ work.zone = zone ∧ work.task = task)
    ⟨fun ⟨region, zone, task⟩ => ⟨region, zone, task⟩,
      fun ⟨region, zone, task⟩ => ⟨region, zone, task⟩⟩

namespace Depot

def empty : Depot where
  estate := { held := fun _ => none }
  cells := []
  complete _ h := absurd rfl h

def put (d : Depot) (c : Cell) (o : Option c.Content) : Depot where
  estate := d.estate.put c o
  cells := c :: d.cells
  complete other hother := by
    by_cases hcell : other = c
    · exact List.mem_cons.2 (.inl hcell)
    · have hsame := Function.update_of_ne hcell o d.estate.held
      exact List.mem_cons_of_mem _ (d.complete other (hsame ▸ hother))

def start (d : Depot) (work : Work) : Depot := { d with estate := d.estate.start work }

def aged (d : Depot) (span : Nat) : Depot := { d with estate := d.estate.aged span }

/-- The work takes effect, and the others go on. -/
def finish (d : Depot) (work : Work) (others : List Work) : Depot :=
  let done := d.put work.cell work.outcome
  { done with estate := { done.estate with running := others } }

def freeId? (d : Depot) (region : String) (floor : MachineId) : Option MachineId :=
  ((List.range (d.cells.length + 1)).map (floor + UInt32.ofNat ·)).find? fun id =>
    (d.estate.held (.machine region id)).isNone

def template? (d : Depot) (region zone name : String) : Cell → Option MachineId
  | .machine r id =>
    if r = region ∧ (d.estate.held (.machine r id)).any (·.IsTemplate name zone) then some id
    else none
  | .volume _ _ _ => none

def volume? (site : Site) (d : Depot) (region zone : String) : Cell → Option String
  | .volume r place name =>
    if (r = region ∧ place = site.home region zone name) ∧
      (d.estate.held (.volume r place name)).isSome then some name else none
  | .machine _ _ => none

def look (d : Depot) (region zone : String) (task : TaskId) : Depot :=
  let isOther (work : Work) : Bool := !decide (work.Is region zone task)
  match d.estate.running.dropWhile isOther with
  | [] => d
  | work :: after => d.finish work (d.estate.running.takeWhile isOther ++ after)

/-- Answers a request, unless it is foreign or finds no free id. -/
def respond (site : Site) (d : Depot) (region : String) :
    (r : Hypervisor.Request) → Option (r.Answer × Depot)
  | .nextId floor => (d.freeId? region floor).map fun id => (id, d)
  | .findMachine id => some ((d.estate.held (.machine region id)).map fun tenant =>
      { machine := id, zone := tenant.zone }, d)
  | .findTemplate zone name => some (d.cells.findSome? (d.template? region zone name), d)
  | .listTemplates => some ([], d)
  | .readMachine _ _ => some ({}, d)
  | .create zone id options => some ("create", d.start
      { region, zone, task := "create", cell := .machine region id
        outcome := some ⟨zone, options.set⟩ })
  | .delete zone id => some ("delete", d.start
      { region, zone, task := "delete", cell := .machine region id
        outcome := (d.estate.held (.machine region id)).filter fun tenant => tenant.zone != zone })
  | .listContent zone _ _ => some (d.cells.filterMap (d.volume? site region zone), d)
  | .download zone storage r => some ("download", d.start
      { region, zone, task := "download"
        cell := site.volume region zone (storage ++ ":" ++ r.content ++ "/" ++ r.fileName)
        outcome := some r.url })
  | .deleteVolume zone volume => some ("delete", d.start
      { region, zone, task := "delete", cell := site.volume region zone volume, outcome := none })
  | .taskStatus zone task => some ({ exit := some "OK" }, d.look region zone task)
  | _ => none

def serve (site : Site) (d : Depot) : (c : Call) → Option (c.Reply × Depot)
  | .hypervisor region r => (d.respond site region r).map fun (answer, d') => (.ok answer, d')
  | .ask q => some (site.facts q, d)
  | .circumstance (.pause span _) => some (false, d.aged span)
  | .connect _ => some (.ok (), d)
  | .writeStatus _ _ => some (.ok (), d)
  | .enterZone _ _ => some ((), d)
  | .leaveZone _ _ => some ((), d)
  | .memory a => some ((Call.memory a).grant, d)
  | .circumstance .jitter => some ((Call.circumstance .jitter).grant, d)
  | _ => none

section sound
variable {site : Site} {d d' : Depot} {region zone : String}

theorem template?_eq_some {name : String} {c : Cell} {id : MachineId} :
    d.template? region zone name c = some id ↔ c = .machine region id ∧
      ∃ tenant, d.estate.held (.machine region id) = some tenant ∧ tenant.IsTemplate name zone := by
  cases c with
  | volume => simp [template?]
  | machine r id' =>
    simp only [template?, Option.ite_none_right_eq_some, Option.any_eq_true, decide_eq_true_eq,
      Option.some.injEq, Cell.machine.injEq]
    constructor
    · rintro ⟨⟨rfl, hfound⟩, rfl⟩
      exact ⟨⟨rfl, rfl⟩, hfound⟩
    · rintro ⟨⟨rfl, rfl⟩, hfound⟩
      exact ⟨⟨rfl, hfound⟩, rfl⟩

theorem templateSought (d : Depot) (region zone name : String) : d.estate.TemplateSought region
    zone name (d.cells.findSome? (d.template? region zone name)) := by
  cases h : d.cells.findSome? (d.template? region zone name) with
  | some id =>
    obtain ⟨c, -, hc⟩ := List.exists_of_findSome?_eq_some h
    exact (template?_eq_some.1 hc).2
  | none =>
    intro id tenant hheld htemplate
    have hmem := d.complete (.machine region id) (by simp [hheld])
    have hnone := List.findSome?_eq_none_iff.1 h _ hmem
    rw [template?_eq_some.2 ⟨rfl, tenant, hheld, htemplate⟩] at hnone
    cases hnone

theorem mem_volumes {name : String} :
    name ∈ d.cells.filterMap (d.volume? site region zone) ↔
      d.estate.held (site.volume region zone name) ≠ none := by
  rw [List.mem_filterMap]
  constructor
  · rintro ⟨c, -, hc⟩
    cases c with
    | machine => cases hc
    | volume r place name' =>
      obtain ⟨⟨⟨rfl, rfl⟩, hheld⟩, hname⟩ := Option.ite_none_right_eq_some.1 hc
      cases hname
      exact Option.isSome_iff_ne_none.1 hheld
  · intro hheld
    refine ⟨_, d.complete _ hheld, if_pos ⟨⟨rfl, rfl⟩, Option.isSome_iff_ne_none.2 hheld⟩⟩

theorem step_look (zone : String) (task : TaskId) :
    site.Step d.estate ⟨.hypervisor region (.taskStatus zone task), .ok { exit := some "OK" }⟩
      (d.look region zone task).estate := by
  unfold look
  extract_lets isOther
  have hsplit := List.takeWhile_append_dropWhile (p := isOther) (l := d.estate.running)
  cases hdrop : d.estate.running.dropWhile isOther with
  | nil =>
    have hothers := List.dropWhile_eq_nil_iff.1 hdrop
    exact .past fun work hmem => by simpa [isOther] using hothers work hmem
  | cons work after =>
    have hfound := List.head?_dropWhile_not isOther d.estate.running
    rw [hdrop] at hsplit hfound
    exact .finished hsplit.symm (by simpa [isOther] using hfound)

theorem step_of_respond {r : Hypervisor.Request} {answer : r.Answer}
    (h : d.respond site region r = some (answer, d')) :
    site.Step d.estate ⟨.hypervisor region r, .ok answer⟩ d'.estate := by
  cases r with
  | nextId floor =>
    obtain ⟨id, hfree, hout⟩ := Option.map_eq_some_iff.1 h
    cases hout
    have hnone := List.find?_some hfree
    exact .nextId (Option.isNone_iff_eq_none.1 hnone)
  | findMachine id =>
    cases h
    cases hheld : d.estate.held (.machine region id) with
    | none => exact .missed hheld
    | some tenant => exact .found hheld rfl
  | findTemplate zone name =>
    cases h
    have hsought := templateSought d region zone name
    cases hfound : d.cells.findSome? (d.template? region zone name) with
    | none =>
      rw [hfound] at hsought
      exact .noTemplate hsought
    | some id =>
      rw [hfound] at hsought
      obtain ⟨tenant, hheld, htemplate⟩ := hsought
      exact .template hheld htemplate
  | listTemplates =>
    cases h
    exact .templates _ _
  | readMachine zone id =>
    cases h
    exact .machine _ _ _ _
  | listContent zone storage kind =>
    cases h
    exact .content fun file => mem_volumes
  | create zone id options =>
    cases h
    exact .create _ _ _ _ _
  | delete zone id =>
    cases h
    exact .delete _ _ _ _
  | download zone storage r =>
    cases h
    exact .download _ _ _ _ _ _
  | deleteVolume zone volume =>
    cases h
    exact .deleteVolume _ _ _ _
  | taskStatus zone task =>
    cases h
    exact step_look zone task
  | _ => cases h

theorem step_of_serve {c : Call} {reply : c.Reply} (h : d.serve site c = some (reply, d')) :
    site.Step d.estate ⟨c, reply⟩ d'.estate := by
  cases c with
  | hypervisor region r =>
    obtain ⟨⟨answer, next⟩, hrespond, hout⟩ := Option.map_eq_some_iff.1 h
    cases hout
    exact step_of_respond hrespond
  | circumstance c =>
    cases c with
    | jitter =>
      cases h
      exact .jitter _
    | pause span heeds =>
      cases h
      exact .pause _ _
    | cancelled => cases h
    | draws => cases h
  | connect region =>
    cases h
    exact .connect _
  | ask q =>
    cases h
    exact .ask _
  | writeStatus name status =>
    cases h
    exact .writeStatus _ _
  | memory a =>
    cases h
    exact .memory _ _
  | enterZone region zone =>
    cases h
    exact .enterZone _ _
  | leaveZone region zone =>
    cases h
    exact .leaveZone _ _
  | capacity => cases h
  | bootstrap => cases h

end sound

def answers : Call → Bool
  | .hypervisor _ (.nextId _) => false
  | c => !c.foreign

theorem serve_of_answers {c : Call} (h : answers c = true) (site : Site) (d : Depot) :
    ∃ reply d', d.serve site c = some (reply, d') := by
  rcases c with _ | ⟨region, r⟩ | r | _ | r | _ | _ | _ | _ | c
  case hypervisor =>
    cases r with
    | nextId | clone | configure | resizeDisk | start | stop | addFirewallRule
    | regenerateCloudInit | attachDocuments => cases h
    | _ => exact ⟨_, _, rfl⟩
  case circumstance =>
    cases c with
    | cancelled | draws => cases h
    | _ => exact ⟨_, _, rfl⟩
  case capacity => cases h
  case bootstrap => cases h
  all_goals exact ⟨_, _, rfl⟩

end Depot

namespace Plan
variable {α : Type} {site : Site}

def playIn (site : Site) (d : Depot) : Plan α → Option (Trace × α × Depot)
  | .done a => some ([], a, d)
  | .call c next => do
    let (reply, d') ← d.serve site c
    let (trace, a, d'') ← (next reply).playIn site d'
    return (⟨c, reply⟩ :: trace, a, d'')

theorem serves_of_playIn {p : Plan α} {d d' : Depot} {trace : Trace} {a : α}
    (h : p.playIn site d = some (trace, a, d')) :
    p.Yields trace a ∧ site.Serves d.estate trace d'.estate := by
  induction p generalizing d trace with
  | done a =>
    cases h
    exact ⟨.done a, rfl⟩
  | call c next ih =>
    obtain ⟨⟨reply, mid⟩, hserve, h⟩ := Option.bind_eq_some_iff.1 h
    obtain ⟨⟨rest, b, last⟩, hrest, h⟩ := Option.bind_eq_some_iff.1 h
    cases h
    obtain ⟨hyields, hserves⟩ := ih reply hrest
    exact ⟨.call reply hyields, mid.estate, Depot.step_of_serve hserve, hserves⟩

theorem Only.playIn {p : Plan α} (h : p.Only fun c => Depot.answers c = true) (site : Site)
    (d : Depot) : ∃ trace a d', p.playIn site d = some (trace, a, d') := by
  induction p generalizing d with
  | done a => exact ⟨[], a, d, rfl⟩
  | call c next ih =>
    have hcall := (ensures_call c next _).1 h
    have hc : Depot.answers c = true :=
      hcall c.grant _ _ (yields_play (fun _ => Call.grant) [] (next c.grant)) _ List.mem_cons_self
    obtain ⟨reply, mid, hserve⟩ := Depot.serve_of_answers hc site d
    have hnext : (next reply).Only fun c => Depot.answers c = true :=
      (hcall reply).mono fun _ _ hall => (List.forall_mem_cons.1 hall).2
    obtain ⟨trace, a, last, hrest⟩ := ih reply hnext mid
    exact ⟨⟨c, reply⟩ :: trace, a, last, by simp [Plan.playIn, hserve, hrest]⟩

end Plan

theorem Job.serves_of_playIn {α : Type} (site : Site) (d : Depot) (j : Job α)
    (good : α → Depot → Bool) (h : (match j.run.playIn site d with
      | some (_, .ok a, d') => good a d'
      | _ => false) = true) : ∃ trace a d', j.run.Yields trace (.ok a) ∧
    site.Serves d.estate trace d'.estate ∧ good a d' = true := by
  split at h
  · next trace a d' hplay =>
    obtain ⟨hyields, hserves⟩ := Plan.serves_of_playIn hplay
    exact ⟨trace, a, d', hyields, hserves, h⟩
  · cases h

end NodeProvisioner
