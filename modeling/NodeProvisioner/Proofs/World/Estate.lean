import Mathlib.Logic.Function.Basic
import NodeProvisioner.Proofs.World.Waiting
import NodeProvisioner.Template.Image

/-! Hypervisors on which all goes well. They hold machines and volumes, tell truly what they hold,
and every call succeeds. What a task is to do is done when a look finds it finished, which happens
before it has run longer than the site allows. Of calls that are not for templates nothing is
assumed: they may change everything. -/
namespace NodeProvisioner

/-- A machine that is held, with its disks: where it lies, and its options. -/
structure Tenant where
  zone : String
  options : Options

structure Tenant.IsTemplate (tenant : Tenant) (name zone : String) : Prop where
  here : tenant.zone = zone
  named : tenant.options.get? "name" = some name
  marked : tenant.options.get? "template" = some "1"

/-- What may be free or taken: a machine id, or the name of a volume at a place. -/
inductive Cell where
  | machine (region : String) (id : MachineId)
  | volume (region place name : String)
  deriving DecidableEq

@[reducible] def Cell.Content : Cell → Type
  | .machine _ _ => Tenant
  | .volume _ _ _ => String

/-- A task under way: what it will have made of a cell when it is finished. -/
structure Work where
  region : String
  zone : String
  task : TaskId
  cell : Cell
  outcome : Option cell.Content
  age : Nat := 0

structure Work.Is (work : Work) (region zone : String) (task : TaskId) : Prop where
  region : work.region = region
  zone : work.zone = zone
  task : work.task = task

structure Estate where
  held : (c : Cell) → Option c.Content
  running : List Work := []

namespace Estate

def put (w : Estate) (c : Cell) (o : Option c.Content) : Estate where
  held := Function.update w.held c o

def start (w : Estate) (work : Work) : Estate := { w with running := w.running ++ [work] }

def aged (w : Estate) (span : Nat) : Estate :=
  { w with running := w.running.map fun work => { work with age := work.age + span } }

end Estate

/-- Makes or removes something else than templates and their images, or asks for something else. -/
def Call.foreign : Call → Bool
  | .connect _ | .ask _ | .writeStatus _ _ | .memory _ | .enterZone _ _ | .leaveZone _ _
  | .circumstance .jitter | .circumstance (.pause _ _) => false
  | .hypervisor _ r =>
    match r with
    | .nextId _ | .findMachine _ | .findTemplate _ _ | .listTemplates | .readMachine _ _
    | .create _ _ _ | .delete _ _ | .listContent _ _ _ | .download _ _ _ | .deleteVolume _ _
    | .taskStatus _ _ => false
    | _ => true
  | _ => true

/-- A layout of storages, and what else stays as it is. -/
structure Site where
  facts : (q : Question) → q.Answer
  /-- Where a volume lies that a zone knows by the name. Zones that share a storage have one place
  for its volumes. -/
  home (region zone volume : String) : String
  /-- How long a task may take. -/
  limit : Nat

namespace Site

def volume (site : Site) (region zone name : String) : Cell :=
  .volume region (site.home region zone name) name

inductive Step (site : Site) (w : Estate) : Event → Estate → Prop where
  | connect (region : String) : Step site w ⟨.connect region, .ok ()⟩ w
  | ask (q : Question) : Step site w ⟨.ask q, site.facts q⟩ w
  | writeStatus (name : String) (status : TemplateClass.Status) :
      Step site w ⟨.writeStatus name status, .ok ()⟩ w
  | memory (a : Memory.Access) (reply : a.Answer) : Step site w ⟨.memory a, reply⟩ w
  | enterZone (region zone : String) : Step site w ⟨.enterZone region zone, ()⟩ w
  | leaveZone (region zone : String) : Step site w ⟨.leaveZone region zone, ()⟩ w
  | jitter (j : Jitter) : Step site w ⟨.circumstance .jitter, j⟩ w
  | pause (span : Nat) (heeds : Bool) :
      Step site w ⟨.circumstance (.pause span heeds), false⟩ (w.aged span)
  | nextId {region : String} {floor id : MachineId} (h : w.held (.machine region id) = none) :
      Step site w ⟨.hypervisor region (.nextId floor), .ok id⟩ w
  | found {region : String} {id : MachineId} {tenant : Tenant} {seen : Location}
      (h : w.held (.machine region id) = some tenant) (hzone : seen.zone = tenant.zone) :
      Step site w ⟨.hypervisor region (.findMachine id), .ok (some seen)⟩ w
  | missed {region : String} {id : MachineId} (h : w.held (.machine region id) = none) :
      Step site w ⟨.hypervisor region (.findMachine id), .ok none⟩ w
  | template {region zone name : String} {id : MachineId} {tenant : Tenant}
      (h : w.held (.machine region id) = some tenant) (htemplate : tenant.IsTemplate name zone) :
      Step site w ⟨.hypervisor region (.findTemplate zone name), .ok (some id)⟩ w
  | noTemplate {region zone name : String} (h : ∀ id tenant,
      w.held (.machine region id) = some tenant → ¬ tenant.IsTemplate name zone) :
      Step site w ⟨.hypervisor region (.findTemplate zone name), .ok none⟩ w
  | templates (region : String) (listed : List Location) :
      Step site w ⟨.hypervisor region .listTemplates, .ok listed⟩ w
  | machine (region zone : String) (id : MachineId) (m : Machine) :
      Step site w ⟨.hypervisor region (.readMachine zone id), .ok m⟩ w
  | content {region zone storage kind : String} {present : List String}
      (h : ∀ file, storage ++ ":" ++ kind ++ "/" ++ file ∈ present ↔
        w.held (site.volume region zone (storage ++ ":" ++ kind ++ "/" ++ file)) ≠ none) :
      Step site w ⟨.hypervisor region (.listContent zone storage kind), .ok present⟩ w
  | create (region zone : String) (id : MachineId) (options : Change) (task : TaskId) :
      Step site w ⟨.hypervisor region (.create zone id options), .ok task⟩ (w.start
        { region, zone, task, cell := .machine region id, outcome := some ⟨zone, options.set⟩ })
  /-- A machine of another zone is not deleted. -/
  | delete (region zone : String) (id : MachineId) (task : TaskId) :
      Step site w ⟨.hypervisor region (.delete zone id), .ok task⟩ (w.start
        { region, zone, task, cell := .machine region id
          outcome := (w.held (.machine region id)).filter fun tenant => tenant.zone != zone })
  | download (region zone storage : String) (r : DownloadRequest) (task : TaskId)
      (content : String) :
      Step site w ⟨.hypervisor region (.download zone storage r), .ok task⟩ (w.start
        { region, zone, task
          cell := site.volume region zone (storage ++ ":" ++ r.content ++ "/" ++ r.fileName)
          outcome := some content })
  | deleteVolume (region zone volume : String) (task : TaskId) :
      Step site w ⟨.hypervisor region (.deleteVolume zone volume), .ok task⟩ (w.start
        { region, zone, task, cell := site.volume region zone volume, outcome := none })
  | busy {region zone : String} {task : TaskId} {work : Work} (exit : Option String)
      (h : work ∈ w.running) (hwork : work.Is region zone task) (hage : work.age < site.limit) :
      Step site w ⟨.hypervisor region (.taskStatus zone task), .ok { running := true, exit }⟩ w
  | finished {region zone : String} {task : TaskId} {work : Work} {before after : List Work}
      (h : w.running = before ++ work :: after) (hwork : work.Is region zone task) :
      Step site w ⟨.hypervisor region (.taskStatus zone task), .ok { exit := some "OK" }⟩
        { held := Function.update w.held work.cell work.outcome, running := before ++ after }
  | past {region zone : String} {task : TaskId}
      (h : ∀ work ∈ w.running, ¬ work.Is region zone task) :
      Step site w ⟨.hypervisor region (.taskStatus zone task), .ok { exit := some "OK" }⟩ w
  | foreign {c : Call} (h : c.foreign = true) (reply : c.Reply) (w' : Estate) :
      Step site w ⟨c, reply⟩ w'

/-- A run in which every call is answered well, from what was held to what is held. -/
def Serves (site : Site) (w : Estate) : Trace → Estate → Prop
  | [], w' => w' = w
  | e :: trace, w' => ∃ next, site.Step w e next ∧ site.Serves next trace w'

theorem serves_append {site : Site} {w w' : Estate} {trace trace' : Trace} :
    site.Serves w (trace ++ trace') w' ↔
      ∃ mid, site.Serves w trace mid ∧ site.Serves mid trace' w' := by
  induction trace generalizing w with
  | nil => simp [Serves]
  | cons e trace ih =>
    simp only [List.cons_append, Serves, ih]
    constructor
    · rintro ⟨next, hstep, mid, htrace, htrace'⟩
      exact ⟨mid, ⟨next, hstep, htrace⟩, htrace'⟩
    · rintro ⟨mid, ⟨next, hstep, htrace⟩, htrace'⟩
      exact ⟨next, hstep, mid, htrace, htrace'⟩

theorem Serves.tells {site : Site} {w w' : Estate} {trace : Trace} (h : site.Serves w trace w') :
    ∀ q answer, ⟨.ask q, answer⟩ ∈ trace → answer = site.facts q := by
  induction trace generalizing w with
  | nil => exact fun _ _ hmem => by cases hmem
  | cons e trace ih =>
    obtain ⟨next, hstep, hrest⟩ := h
    intro q answer hmem
    rcases List.mem_cons.1 hmem with rfl | hmem
    · cases hstep with
      | ask => rfl
      | foreign h => cases h
    · exact ih hrest q answer hmem

end Site

/-- Changes nothing of what is held, and looks at no task. -/
def Call.idle (c : Call) : Bool :=
  !c.foreign && match c with
  | .hypervisor _ (.create _ _ _) | .hypervisor _ (.delete _ _) | .hypervisor _ (.download _ _ _)
  | .hypervisor _ (.deleteVolume _ _) | .hypervisor _ (.taskStatus _ _)
  | .circumstance (.pause _ _) => false
  | _ => true

theorem Site.Step.eq_of_idle {site : Site} {w w' : Estate} {e : Event} (h : site.Step w e w')
    (hidle : e.call.idle = true) : w' = w := by
  cases h with
  | foreign h => simp [Call.idle, h] at hidle
  | create | delete | download | deleteVolume | busy | finished | past | pause => cases hidle
  | _ => rfl

namespace Plan
variable {α β : Type} {site : Site} {w : Estate}

/-- Wherever calls are answered well, what the plan gives and what is held then satisfy `post`. -/
def Leads (site : Site) (w : Estate) (p : Plan α) (post : α → Estate → Prop) : Prop :=
  p.Ensures fun trace a => ∀ w', site.Serves w trace w' → post a w'

theorem Leads.mono {p : Plan α} {post post' : α → Estate → Prop} (h : p.Leads site w post)
    (himp : ∀ a w', post a w' → post' a w') : p.Leads site w post' :=
  Ensures.mono h fun _ a hpost w' hserves => himp a w' (hpost w' hserves)

theorem leads_pure {a : α} {post : α → Estate → Prop} (h : post a w) :
    (pure a : Plan α).Leads site w post := by
  refine (ensures_pure _ _).2 ?_
  rintro _ rfl
  exact h

theorem leads_perform {c : Call} {post : c.Reply → Estate → Prop}
    (h : ∀ reply w', site.Step w ⟨c, reply⟩ w' → post reply w') :
    (perform c).Leads site w post := by
  refine (ensures_perform c _).2 fun reply w' hserves => ?_
  obtain ⟨_, hstep, rfl⟩ := hserves
  exact h reply _ hstep

theorem Leads.bind {p : Plan α} {f : α → Plan β} {post : β → Estate → Prop}
    (h : p.Leads site w fun a w' => (f a).Leads site w' post) : (p >>= f).Leads site w post := by
  refine (ensures_bind p f _).2 (Ensures.mono h fun trace a hf => ?_)
  intro trace' b hrun w' hserves
  obtain ⟨mid, htrace, htrace'⟩ := Site.serves_append.1 hserves
  exact hf mid htrace trace' b hrun w' htrace'

theorem Only.leads {p : Plan α} (h : p.Only fun c => c.idle = true) :
    p.Leads site w fun _ w' => w' = w := by
  refine Ensures.mono h fun trace a hidle => ?_
  clear h
  induction trace with
  | nil => exact fun _ hserves => hserves
  | cons e trace ih =>
    rintro w' ⟨next, hstep, hrest⟩
    obtain ⟨he, htrace⟩ := List.forall_mem_cons.1 hidle
    rw [hstep.eq_of_idle he] at hrest
    exact ih htrace w' hrest

end Plan

namespace Job
variable {α β : Type} {site : Site} {w : Estate} {good : α → Estate → Prop}
  {good' : β → Estate → Prop} {bad : Estate → Prop}

/-- Wherever calls are answered well, the job ends in a `good` way or fails in a `bad` one. -/
def Leads (site : Site) (w : Estate) (j : Job α) (good : α → Estate → Prop)
    (bad : Estate → Prop) : Prop :=
  j.run.Leads site w fun r w' =>
    match r with
    | .ok a => good a w'
    | .error _ => bad w'

theorem Leads.mono {j : Job α} {good₂ : α → Estate → Prop} {bad₂ : Estate → Prop}
    (h : j.Leads site w good bad) (hgood : ∀ a w', good a w' → good₂ a w')
    (hbad : ∀ w', bad w' → bad₂ w') : j.Leads site w good₂ bad₂ := by
  refine Plan.Leads.mono h fun r w' hr => ?_
  cases r with
  | ok a => exact hgood a w' hr
  | error e => exact hbad w' hr

theorem leads_pure {a : α} (h : good a w) : (pure a : Job α).Leads site w good bad :=
  Plan.leads_pure h

theorem leads_fail {e : Fault} (h : bad w) : (Job.fail e : Job α).Leads site w good bad :=
  Plan.leads_pure h

theorem leads_lift {p : Plan α} (h : p.Leads site w good) :
    (liftM p : Job α).Leads site w good fun _ => False :=
  Plan.Leads.bind (h.mono fun _ _ ha => Plan.leads_pure ha)

theorem Leads.bind {j : Job α} {f : α → Job β} (h : j.Leads site w good bad)
    (h' : ∀ a w', good a w' → (f a).Leads site w' good' bad) :
    (j >>= f).Leads site w good' bad := by
  unfold Leads
  rw [run_bind]
  refine Plan.Leads.bind (Plan.Leads.mono h fun r w' hr => ?_)
  cases r with
  | ok a => exact h' a w' hr
  | error e => exact Plan.leads_pure hr

theorem Leads.andThen {j : Job α} {f : α → Job β} (h : j.Leads site w good fun _ => False)
    (h' : ∀ a w', good a w' → (f a).Leads site w' good' bad) :
    (j >>= f).Leads site w good' bad :=
  Leads.bind (h.mono (fun _ _ ha => ha) fun _ => False.elim) h'

theorem Leads.run_ok {j : Job α} (h : j.Leads site w good fun _ => False) :
    j.run.Leads site w fun r w' => ∃ a, r = .ok a ∧ good a w' := by
  refine Plan.Leads.mono h fun r w' hr => ?_
  cases r with
  | ok a => exact ⟨a, rfl, hr⟩
  | error e => exact hr.elim

theorem Leads.attempt {j : Job α} (h : j.Leads site w good fun _ => False) :
    j.attempt.Leads site w (fun r w' => ∃ a, r = .ok a ∧ good a w') fun _ => False :=
  Plan.Leads.bind (h.run_ok.mono fun _ _ hr => Plan.leads_pure hr)

theorem Only.leads {j : Job α} (h : j.Only fun c => c.idle = true) :
    j.run.Leads site w fun _ w' => w' = w := Plan.Only.leads h

end Job

section requests
variable {site : Site} {w : Estate}

theorem leads_connect {region : String} :
    (connect region).Leads site w (fun _ w' => w' = w) fun _ => False := by
  refine Plan.leads_perform fun reply w' hstep => ?_
  cases hstep with
  | connect => rfl
  | foreign h => cases h

theorem leads_writeStatus {name : String} {status : TemplateClass.Status} :
    (writeStatus name status).Leads site w (fun _ w' => w' = w) fun _ => False := by
  refine Plan.leads_perform fun reply w' hstep => ?_
  cases hstep with
  | writeStatus => rfl
  | foreign h => cases h

theorem leads_pause {span : Nat} {heeds : Bool} : (Circumstance.pause span heeds).learn.Leads site w
    fun cut w' => cut = false ∧ w' = w.aged span := by
  refine Plan.leads_perform fun reply w' hstep => ?_
  cases hstep with
  | pause => exact ⟨rfl, rfl⟩
  | foreign h => cases h

theorem withZone_leads {α : Type} {region zone : String} {j : Job α} {good : α → Estate → Prop}
    {bad : Estate → Prop} (h : j.Leads site w good bad) :
    (withZone region zone j).Leads site w good bad := by
  have hlock (c : Call) (hc : c.idle = true) (w : Estate) :
      (Plan.perform c).Leads site w fun _ w' => w' = w := (Plan.only_perform hc).leads
  refine Plan.Leads.bind ((hlock (.enterZone region zone) rfl w).mono ?_)
  rintro _ _ rfl
  refine Plan.Leads.bind (Plan.Leads.mono h fun r w' hr => ?_)
  refine Plan.Leads.bind ((hlock (.leaveZone region zone) rfl w').mono ?_)
  rintro _ _ rfl
  exact Plan.leads_pure hr

theorem leads_nextId {region : String} {floor : MachineId} :
    (Hypervisor.send region (.nextId floor)).Leads site w
      (fun id w' => w' = w ∧ w.held (.machine region id) = none)
      fun _ => False := by
  refine Plan.leads_perform fun reply w' hstep => ?_
  cases hstep with
  | nextId h => exact ⟨rfl, h⟩
  | foreign h => cases h

theorem leads_findMachine {region : String} {id : MachineId} :
    (Hypervisor.send region (.findMachine id)).Leads site w
      (fun found w' => w' = w ∧
        found.map (·.zone) = (w.held (.machine region id)).map (·.zone))
      fun _ => False := by
  refine Plan.leads_perform fun reply w' hstep => ?_
  cases hstep with
  | found h hzone => exact ⟨rfl, by simp [h, hzone]⟩
  | missed h => exact ⟨rfl, by simp [h]⟩
  | foreign h => cases h

def Estate.TemplateSought (w : Estate) (region zone name : String) : Option MachineId → Prop
  | some id => ∃ tenant, w.held (.machine region id) = some tenant ∧ tenant.IsTemplate name zone
  | none => ∀ id tenant, w.held (.machine region id) = some tenant → ¬ tenant.IsTemplate name zone

def Estate.SoleTemplate (w : Estate) (region zone name : String) (id : MachineId) : Prop :=
  ∀ id' tenant, w.held (.machine region id') = some tenant → tenant.IsTemplate name zone → id' = id

theorem leads_findTemplate {region zone name : String} :
    (Hypervisor.send region (.findTemplate zone name)).Leads site w
      (fun found w' => w' = w ∧ w.TemplateSought region zone name found)
      fun _ => False := by
  refine Plan.leads_perform fun reply w' hstep => ?_
  cases hstep with
  | template h htemplate => exact ⟨rfl, _, h, htemplate⟩
  | noTemplate h => exact ⟨rfl, h⟩
  | foreign h => cases h

theorem leads_listContent {region zone storage : String} :
    (Hypervisor.send region (.listContent zone storage Image.importContent)).Leads site w
      (fun present w' => w' = w ∧ ∀ file, Image.volume storage file ∈ present ↔
        w.held (site.volume region zone (Image.volume storage file)) ≠ none)
      fun _ => False := by
  refine Plan.leads_perform fun reply w' hstep => ?_
  cases hstep with
  | content h => exact ⟨rfl, h⟩
  | foreign h => cases h

theorem leads_create {region zone : String} {id : MachineId} {options : Change} :
    (Hypervisor.send region (.create zone id options)).Leads site w (fun task w' => w' = w.start
      { region, zone, task, cell := .machine region id, outcome := some ⟨zone, options.set⟩ })
      fun _ => False := by
  refine Plan.leads_perform fun reply w' hstep => ?_
  cases hstep with
  | create => rfl
  | foreign h => cases h

theorem leads_delete {region zone : String} {id : MachineId} :
    (Hypervisor.send region (.delete zone id)).Leads site w (fun task w' => w' = w.start
      { region, zone, task, cell := .machine region id
        outcome := (w.held (.machine region id)).filter fun tenant => tenant.zone != zone })
      fun _ => False := by
  refine Plan.leads_perform fun reply w' hstep => ?_
  cases hstep with
  | delete => rfl
  | foreign h => cases h

theorem leads_download {region zone storage : String} {r : DownloadRequest} :
    (Hypervisor.send region (.download zone storage r)).Leads site w (fun task w' =>
      ∃ content, w' = w.start { region, zone, task
                                cell := site.volume region zone
                                  (storage ++ ":" ++ r.content ++ "/" ++ r.fileName)
                                outcome := some content })
      fun _ => False := by
  refine Plan.leads_perform fun reply w' hstep => ?_
  cases hstep with
  | download _ _ _ _ _ content => exact ⟨content, rfl⟩
  | foreign h => cases h

theorem leads_deleteVolume {region zone volume : String} :
    (Hypervisor.send region (.deleteVolume zone volume)).Leads site w (fun task w' => w' = w.start
      { region, zone, task, cell := site.volume region zone volume, outcome := none })
      fun _ => False := by
  refine Plan.leads_perform fun reply w' hstep => ?_
  cases hstep with
  | deleteVolume => rfl
  | foreign h => cases h

end requests

/-! ### Tasks -/

structure Estate.Busy (w : Estate) (region zone : String) (task : TaskId) (work : Work) : Prop where
  running : w.running = [work]
  isTask : work.Is region zone task

theorem Estate.busy_start {w : Estate} (hidle : w.running = []) (work : Work) :
    (w.start work).Busy work.region work.zone work.task work where
  running := by simp [Estate.start, hidle]
  isTask := ⟨rfl, rfl, rfl⟩

theorem Estate.Busy.aged {w : Estate} {region zone : String} {task : TaskId} {work : Work}
    (h : w.Busy region zone task work) (span : Nat) :
    (w.aged span).Busy region zone task { work with age := work.age + span } where
  running := by simp [Estate.aged, h.running]
  isTask := ⟨h.isTask.region, h.isTask.zone, h.isTask.task⟩

namespace Task
variable {site : Site} {w : Estate} {region zone : String} {task : TaskId} {work : Work}

/-- A look finds the task finished, which takes effect then, or not yet too old. -/
theorem leads_look (h : w.Busy region zone task work) :
    (look region zone task).Leads site w (fun found w' =>
      match found with
      | some status => status.isSuccess = true ∧ w' = w.put work.cell work.outcome
      | none => w' = w ∧ work.age < site.limit) fun _ => False := by
  refine Job.Leads.andThen (Plan.leads_perform fun reply w' hstep => ?_) fun _ _ h => h
  cases hstep with
  | busy exit hmem _ hage =>
    rw [h.running] at hmem
    obtain rfl := List.mem_singleton.1 hmem
    exact Job.leads_pure ⟨rfl, hage⟩
  | @finished _ _ _ work' before after hrunning _ =>
    have hsole : before = [] ∧ work' = work ∧ after = [] := by
      rw [h.running] at hrunning
      cases before with
      | nil =>
        cases hrunning
        exact ⟨rfl, rfl, rfl⟩
      | cons _ before => cases before <;> cases hrunning
    obtain ⟨rfl, rfl, rfl⟩ := hsole
    exact Job.leads_pure ⟨rfl, rfl⟩
  | past hpast =>
    exact absurd h.isTask (hpast work (h.running ▸ List.mem_singleton_self work))
  | foreign h => cases h

theorem leads_finish {p : Patience} {heeds : Bool} (h : w.Busy region zone task work)
    (hage : work.age = 0) (hlimit : site.limit ≤ p.timeout) :
    (finish p heeds region zone task).Leads site w (fun status w' =>
      status.isSuccess = true ∧ w' = w.put work.cell work.outcome) fun _ => False := by
  have hfrom (operation : String) (elapsed delay : Nat) {w : Estate} {work : Work}
      (h : w.Busy region zone task work) (hage : work.age = elapsed) :
      (Waiting.lookFrom p operation heeds (look region zone task) elapsed delay).Leads site w
        (fun status w' => status.isSuccess = true ∧ w' = w.put work.cell work.outcome)
        fun _ => False := by
    fun_induction Waiting.lookFrom p operation heeds (look region zone task) elapsed delay
      generalizing w work with
    | case1 elapsed delay ih =>
      refine (leads_look h).andThen fun found w' hfound => ?_
      cases found with
      | some status => exact Job.leads_pure hfound
      | none =>
        obtain ⟨rfl, hyoung⟩ := hfound
        have htime : ¬ p.timeout ≤ elapsed := by omega
        rw [dif_neg htime]
        have hjitter : Circumstance.jitter.learn.Only fun c => c.idle = true :=
          Plan.only_perform rfl
        refine (Job.leads_lift hjitter.leads).andThen ?_
        rintro j _ rfl
        refine (Job.leads_lift leads_pause).andThen ?_
        rintro _ _ ⟨rfl, rfl⟩
        have hlater := h.aged (Waiting.nap j delay (p.timeout - elapsed))
        have hrest := ih htime j hlater (congrArg (· + _) hage)
        exact hrest
  exact hfrom _ _ _ h hage

theorem leads_succeed {p : Patience} {heeds : Bool} (h : w.Busy region zone task work)
    (hage : work.age = 0) (hlimit : site.limit ≤ p.timeout) :
    (succeed p heeds region zone task).Leads site w (fun _ w' =>
      w' = w.put work.cell work.outcome) fun _ => False := by
  refine (leads_finish h hage hlimit).andThen ?_
  rintro status _ ⟨hsuccess, rfl⟩
  rw [if_pos hsuccess]
  exact Job.leads_pure rfl

end Task
end NodeProvisioner
