import NodeProvisioner.World.Plan

/-! Runs of plans. A run is known by its trace: the calls in order, each with the reply it got.
Nothing is assumed of the replies, so a law on all traces of a plan holds however the others
behave, and whenever the caller cancels. -/
namespace NodeProvisioner

structure Event where
  call : Call
  reply : call.Reply

/-- The calls of a run with their replies, the first one first. -/
abbrev Trace := List Event

def Trace.calls (t : Trace) : List Call := t.map (·.call)

/-- The replies are those of `answer`, which may go by all that went before. -/
def Trace.AnsweredBy (answer : Trace → (c : Call) → c.Reply) : Trace → Trace → Prop
  | _, [] => True
  | past, e :: t => e.reply = answer past e.call ∧ AnsweredBy answer (past ++ [e]) t

theorem Trace.answeredBy_append {answer : Trace → (c : Call) → c.Reply} {past t t' : Trace} :
    AnsweredBy answer past (t ++ t') ↔
      AnsweredBy answer past t ∧ AnsweredBy answer (past ++ t) t' := by
  induction t generalizing past with
  | nil => simp [AnsweredBy]
  | cons e t ih => simp [AnsweredBy, ih, and_assoc]

/-- A reply for every call, where all goes well: one region with one zone, and a template in it. -/
def Call.grant : (c : Call) → c.Reply
  | .connect _ => .ok ()
  | .hypervisor _ r =>
    match r with
    | .nextId floor => .ok floor
    | .findMachine id => .ok (some { machine := id, zone := "z1" })
    | .findTemplate _ _ => .ok none
    | .listTemplates => .ok []
    | .readMachine _ _ => .ok { disks := .ofList [("scsi0", { volume := "local:1" })] }
    | .clone _ => .ok "clone"
    | .create _ _ _ => .ok "create"
    | .configure _ _ _ => .ok ()
    | .resizeDisk _ _ _ _ => .ok ()
    | .start _ _ => .ok "start"
    | .stop _ _ => .ok "stop"
    | .delete _ _ => .ok "delete"
    | .addFirewallRule _ _ _ => .ok ()
    | .regenerateCloudInit _ _ => .ok ()
    | .attachDocuments _ _ _ _ => .ok ()
    | .listContent _ _ _ => .ok []
    | .download _ _ _ => .ok "download"
    | .deleteVolume _ _ => .ok "delete"
    | .taskStatus _ _ => .ok { exit := some "OK" }
  | .capacity r =>
    match r with
    | .network _ _ => .ok []
    | .allocate _ _ wanted => .ok wanted
    | .release _ _ _ => .ok ()
    | .occupyAddress _ _ _ _ _ => .ok ""
    | .refresh _ _ => .ok ()
  | .ask q =>
    match q with
    | .clusterRegions => ["r1"]
    | .capacityRegions => ["r1"]
    | .zones _ => ["z1"]
    | .zonesWithRoom _ _ => ["z1"]
    | .loads _ => fun _ => default
    | .storage _ _ => none
  | .bootstrap r =>
    match r with
    | .issueToken _ _ => .ok { id := "abcdef", secret := "0123456789abcdef" }
    | .revokeToken _ => .ok ()
    | .render _ => .ok default
    | .clusterCa => .ok ""
  | .writeStatus _ _ => .ok ()
  | .memory a =>
    match a with
    | .inventory => .publish ∅ "r1" [{
        name := "noble", region := "r1", zone := "z1", machine := 9000, usability := .available }]
    | .publish _ _ => ()
    | .claimId _ _ => true
    | .forgetId _ _ => ()
  | .enterZone _ _ => ()
  | .leaveZone _ _ => ()
  | .circumstance c =>
    match c with
    | .jitter => ⟨1, 1, by decide, by decide⟩
    | .pause _ _ => false
    | .cancelled => false
    | .draws => id

namespace Plan
variable {α β : Type}

/-- The plan can end with the result after exactly these calls and replies. -/
inductive Yields : Plan α → Trace → α → Prop where
  | done (a : α) : Yields (.done a) [] a
  | call {c : Call} {next : c.Reply → Plan α} {t : Trace} {a : α} (r : c.Reply)
      (rest : Yields (next r) t a) : Yields (.call c next) (⟨c, r⟩ :: t) a

def play (answer : Trace → (c : Call) → c.Reply) (past : Trace) : Plan α → Trace × α
  | .done a => ([], a)
  | .call c next =>
    let r := answer past c
    let rest := (next r).play answer (past ++ [⟨c, r⟩])
    (⟨c, r⟩ :: rest.1, rest.2)

theorem yields_play (answer : Trace → (c : Call) → c.Reply) (past : Trace) (p : Plan α) :
    p.Yields (p.play answer past).1 (p.play answer past).2 := by
  induction p generalizing past with
  | done a => exact .done a
  | call c next ih => exact .call _ (ih _ _)

theorem answeredBy_play (answer : Trace → (c : Call) → c.Reply) (past : Trace) (p : Plan α) :
    Trace.AnsweredBy answer past (p.play answer past).1 := by
  induction p generalizing past with
  | done a => trivial
  | call c next ih => exact ⟨rfl, ih _ _⟩

theorem Yields.play_eq {answer : Trace → (c : Call) → c.Reply} {past t : Trace} {p : Plan α} {a : α}
    (h : p.Yields t a) (ht : Trace.AnsweredBy answer past t) : p.play answer past = (t, a) := by
  induction h generalizing past with
  | done a => rfl
  | @call c next t a r _ ih =>
    obtain ⟨hreply, hrest⟩ := ht
    have hr : answer past c = r := hreply.symm
    simp only [play, hr, ih hrest]

theorem reply_of_mem_play (answer : (c : Call) → c.Reply) (past : Trace) (p : Plan α) :
    ∀ e ∈ (p.play (fun _ => answer) past).1, e.reply = answer e.call := by
  induction p generalizing past with
  | done a => exact List.forall_mem_nil _
  | call c next ih => exact List.forall_mem_cons.2 ⟨rfl, ih _ _⟩

/-- No run goes on where another one of the same plan has ended. -/
theorem Yields.prefix_free {p : Plan α} {t t' s s' : Trace} {a a' : α} (h : p.Yields t a)
    (h' : p.Yields t' a') (heq : t ++ s = t' ++ s') : t = t' ∧ a = a' ∧ s = s' := by
  induction h generalizing t' with
  | done a =>
    cases h'
    exact ⟨rfl, rfl, heq⟩
  | call r _ ih =>
    cases h' with
    | call r' rest' =>
      obtain ⟨hevent, htail⟩ := List.cons_eq_cons.1 heq
      cases hevent
      obtain ⟨rfl, ha, hs⟩ := ih rest' htail
      exact ⟨rfl, ha, hs⟩

theorem Yields.bind {p : Plan α} {f : α → Plan β} {t t' : Trace} {a : α} {b : β}
    (h : p.Yields t a) (h' : (f a).Yields t' b) : (p >>= f).Yields (t ++ t') b := by
  induction h with
  | done a => exact h'
  | call r _ ih => exact .call r (ih h')

/-- Whatever the replies are, the calls made and the result satisfy `post`. -/
def Ensures (p : Plan α) (post : Trace → α → Prop) : Prop := ∀ t a, p.Yields t a → post t a

theorem Ensures.mono {p : Plan α} {post post' : Trace → α → Prop} (h : p.Ensures post)
    (himp : ∀ t a, post t a → post' t a) : p.Ensures post' :=
  fun t a ht => himp t a (h t a ht)

theorem Ensures.and {p : Plan α} {post post' : Trace → α → Prop} (h : p.Ensures post)
    (h' : p.Ensures post') : p.Ensures fun t a => post t a ∧ post' t a :=
  fun t a ht => ⟨h t a ht, h' t a ht⟩

@[simp] theorem ensures_done (a : α) (post : Trace → α → Prop) :
    (Plan.done a).Ensures post ↔ post [] a := by
  constructor
  · intro h
    exact h [] a (.done a)
  · intro h t b ht
    cases ht
    exact h

@[simp] theorem ensures_pure (a : α) (post : Trace → α → Prop) :
    (pure a : Plan α).Ensures post ↔ post [] a := ensures_done a post

@[simp] theorem ensures_call (c : Call) (next : c.Reply → Plan α) (post : Trace → α → Prop) :
    (Plan.call c next).Ensures post ↔ ∀ r, (next r).Ensures fun t => post (⟨c, r⟩ :: t) := by
  constructor
  · intro h r t a ht
    exact h _ a (.call r ht)
  · intro h t a ht
    cases ht with
    | call r rest => exact h r _ a rest

@[simp] theorem ensures_perform (c : Call) (post : Trace → c.Reply → Prop) :
    (perform c).Ensures post ↔ ∀ r, post [⟨c, r⟩] r := by
  simp [perform]

theorem ensures_bind (p : Plan α) (f : α → Plan β) (post : Trace → β → Prop) :
    (p >>= f).Ensures post ↔
      p.Ensures fun t a => (f a).Ensures fun t' => post (t ++ t') := by
  induction p generalizing post with
  | done a =>
    rw [ensures_done]
    rfl
  | call c next ih => simp only [call_bind, ensures_call, ih, List.cons_append]

theorem ensures_map (p : Plan α) (f : α → β) (post : Trace → β → Prop) :
    (f <$> p).Ensures post ↔ p.Ensures fun t a => post t (f a) := by
  rw [map_eq_pure_bind, ensures_bind]
  simp only [ensures_pure, List.append_nil]

/-- Every call that the plan can make is allowed. -/
def Only (allowed : Call → Prop) (p : Plan α) : Prop :=
  p.Ensures fun t _ => ∀ e ∈ t, allowed e.call

section only
variable {allowed : Call → Prop}

theorem only_pure (a : α) : (pure a : Plan α).Only allowed := by
  simp [Only]

theorem only_perform {c : Call} (h : allowed c) : (perform c).Only allowed := by
  simp [Only, h]

theorem Only.bind {p : Plan α} {f : α → Plan β} (h : p.Only allowed)
    (h' : ∀ a, (f a).Only allowed) : (p >>= f).Only allowed := by
  refine (ensures_bind p f _).2 (h.mono fun t a ht => (h' a).mono fun t' _ ht' => ?_)
  exact List.forall_mem_append.2 ⟨ht, ht'⟩

theorem Only.mono {allowed' : Call → Prop} {p : Plan α} (h : p.Only allowed)
    (himp : ∀ c, allowed c → allowed' c) : p.Only allowed' :=
  Ensures.mono h fun _ _ hall e he => himp _ (hall e he)

/-- In a run whose replies are as given, every call is allowed. -/
def OnlyWhen (given : Event → Prop) (allowed : Call → Prop) (p : Plan α) : Prop :=
  p.Ensures fun t _ => (∀ e ∈ t, given e) → ∀ e ∈ t, allowed e.call

theorem Only.when {given : Event → Prop} {p : Plan α} (h : p.Only allowed) :
    p.OnlyWhen given allowed :=
  Ensures.mono h fun _ _ ht _ => ht

theorem OnlyWhen.bind {given : Event → Prop} {p : Plan α} {f : α → Plan β}
    (h : p.OnlyWhen given allowed) (h' : ∀ a, (f a).OnlyWhen given allowed) :
    (p >>= f).OnlyWhen given allowed := by
  refine (ensures_bind p f _).2 (h.mono fun t a ht => (h' a).mono fun t' _ ht' hgiven => ?_)
  obtain ⟨hleft, hright⟩ := List.forall_mem_append.1 hgiven
  exact List.forall_mem_append.2 ⟨ht hleft, ht' hright⟩

end only
end Plan

namespace Job
variable {α β : Type}

theorem pure_bind (a : α) (f : α → Job β) : (pure a : Job α) >>= f = f a := rfl

theorem bind_assoc {γ : Type} (j : Job α) (f : α → Job β) (g : β → Job γ) :
    j >>= f >>= g = j >>= fun a => f a >>= g := by
  refine congrArg Job.mk ((Plan.bind_assoc _ _ _).trans ?_)
  refine congrArg (j.run >>= ·) (funext fun r => ?_)
  cases r <;> rfl

/-- Whatever the replies are, the calls made and the result satisfy `post`. -/
def Ensures (j : Job α) (post : Trace → Except Fault α → Prop) : Prop := j.run.Ensures post

theorem Ensures.mono {j : Job α} {post post' : Trace → Except Fault α → Prop}
    (h : j.Ensures post) (himp : ∀ t r, post t r → post' t r) : j.Ensures post' :=
  Plan.Ensures.mono h himp

@[simp] theorem ensures_pure (a : α) (post : Trace → Except Fault α → Prop) :
    (pure a : Job α).Ensures post ↔ post [] (.ok a) := Plan.ensures_done _ post

@[simp] theorem ensures_fail (e : Fault) (post : Trace → Except Fault α → Prop) :
    (Job.fail e : Job α).Ensures post ↔ post [] (.error e) := Plan.ensures_done _ post

@[simp] theorem ensures_ofExcept (r : Except Fault α) (post : Trace → Except Fault α → Prop) :
    (Job.ofExcept r).Ensures post ↔ post [] r := Plan.ensures_done _ post

@[simp] theorem ensures_lift (p : Plan α) (post : Trace → Except Fault α → Prop) :
    (liftM p : Job α).Ensures post ↔ p.Ensures fun t a => post t (.ok a) :=
  Plan.ensures_map p Except.ok post

theorem ensures_attempt (j : Job α) (post : Trace → Except Fault (Except Fault α) → Prop) :
    j.attempt.Ensures post ↔ j.Ensures fun t r => post t (.ok r) :=
  Plan.ensures_map j.run Except.ok post

theorem ensures_bind (j : Job α) (f : α → Job β) (post : Trace → Except Fault β → Prop) :
    (j >>= f).Ensures post ↔
      j.Ensures fun t r =>
        match r with
        | .ok a => (f a).Ensures fun t' => post (t ++ t')
        | .error e => post t (.error e) := by
  unfold Ensures
  rw [run_bind, Plan.ensures_bind]
  constructor <;> intro h t r ht
  · cases r with
    | ok a => exact h t _ ht
    | error e => simpa using h t _ ht
  · cases r with
    | ok a => exact h t _ ht
    | error e => simpa using h t _ ht

theorem Ensures.bind {j : Job α} {f : α → Job β} {mid : Trace → Except Fault α → Prop}
    {post : Trace → Except Fault β → Prop} (h : j.Ensures mid)
    (hok : ∀ t a, mid t (.ok a) → (f a).Ensures fun t' => post (t ++ t'))
    (herror : ∀ t e, mid t (.error e) → post t (.error e)) : (j >>= f).Ensures post := by
  refine (ensures_bind j f post).2 (h.mono fun t r hr => ?_)
  cases r with
  | ok a => exact hok t a hr
  | error e => exact herror t e hr

theorem Ensures.after {j : Job α} {f : α → Job β} {post : Trace → Except Fault β → Prop}
    (hok : ∀ t a, (f a).Ensures fun t' => post (t ++ t'))
    (herror : ∀ t e, post t (.error e)) : (j >>= f).Ensures post := by
  have h : j.Ensures fun _ _ => True := fun _ _ _ => trivial
  exact h.bind (fun t a _ => hok t a) fun t e _ => herror t e

theorem ensures_perform_bind (c : Call) (f : c.Reply → Job β)
    (post : Trace → Except Fault β → Prop) :
    (liftM (Plan.perform c) >>= f : Job β).Ensures post ↔
      ∀ r, (f r).Ensures fun t => post (⟨c, r⟩ :: t) := by
  simp only [ensures_bind, ensures_lift, Plan.ensures_perform, List.singleton_append]

theorem yields_of_play (answer : Trace → (c : Call) → c.Reply) {j : Job α} {f : α → β} {b : β}
    (h : (j.run.play answer []).2.toOption.map f = some b) :
    ∃ t a, j.run.Yields t (.ok a) ∧ f a = b := by
  have hrun := Plan.yields_play answer [] j.run
  cases hresult : (j.run.play answer []).2 with
  | error e =>
    rw [hresult] at h
    cases h
  | ok a =>
    rw [hresult] at h hrun
    cases h
    exact ⟨_, a, hrun, rfl⟩

theorem yields_of_replies (answer : (c : Call) → c.Reply) (j : Job α) (good : Trace → α → Bool)
    (h : (match j.run.play (fun _ => answer) [] with
      | (t, .ok a) => good t a
      | (_, .error _) => false) = true) :
    ∃ t a, j.run.Yields t (.ok a) ∧ good t a = true ∧ ∀ e ∈ t, e.reply = answer e.call := by
  have hrun := Plan.yields_play (fun _ => answer) [] j.run
  have hreplies := Plan.reply_of_mem_play answer [] j.run
  split at h
  · next t a hplay =>
    rw [hplay] at hrun hreplies
    exact ⟨t, a, hrun, h, hreplies⟩
  · cases h

theorem fails_of_play (answer : Trace → (c : Call) → c.Reply) (j : Job α)
    (good : Trace → Fault → Bool) (h : (match j.run.play answer [] with
      | (t, .error e) => good t e
      | (_, .ok _) => false) = true) : ∃ t e, j.run.Yields t (.error e) ∧ good t e = true := by
  have hrun := Plan.yields_play answer [] j.run
  split at h
  · next t e hplay =>
    rw [hplay] at hrun
    exact ⟨t, e, hrun, h⟩
  · cases h

/-- Whatever the replies are, what the job gives satisfies `good`, unless it fails. -/
def Returns (good : α → Prop) (j : Job α) : Prop := j.Ensures fun _ r => ∀ a, r = .ok a → good a

section returns
variable {good : α → Prop} {good' : β → Prop}

theorem returns_pure {a : α} (h : good a) : (pure a : Job α).Returns good := by
  refine (ensures_pure _ _).2 ?_
  rintro _ ⟨⟩
  exact h

theorem returns_fail (e : Fault) : (Job.fail e : Job α).Returns good :=
  (ensures_fail _ _).2 fun _ => nofun

theorem Returns.bind {j : Job α} {f : α → Job β} (h : j.Returns good)
    (h' : ∀ a, good a → (f a).Returns good') : (j >>= f).Returns good' := by
  refine Ensures.bind h (fun _ a ha => h' a (ha a rfl)) fun _ _ _ => ?_
  exact fun _ => nofun

theorem Returns.after {j : Job α} {f : α → Job β} (h : ∀ a, (f a).Returns good') :
    (j >>= f).Returns good' :=
  Ensures.after (fun _ a => h a) fun _ _ _ => nofun

theorem Returns.attempt {j : Job α} (h : j.Returns good) :
    j.attempt.Returns fun r => ∀ a, r = .ok a → good a := by
  refine (ensures_attempt _ _).2 (Ensures.mono h fun _ r hr => ?_)
  rintro _ ⟨⟩
  exact hr

end returns

/-- Every call that the job can make is allowed. -/
def Only (allowed : Call → Prop) (j : Job α) : Prop := j.run.Only allowed

section only
variable {allowed : Call → Prop}

theorem only_pure (a : α) : (pure a : Job α).Only allowed := Plan.only_pure _

theorem only_fail (e : Fault) : (Job.fail e : Job α).Only allowed := Plan.only_pure _

theorem only_lift {p : Plan α} (h : p.Only allowed) : (liftM p : Job α).Only allowed :=
  Plan.Only.bind h fun _ => Plan.only_pure _

theorem Only.mono {allowed' : Call → Prop} {j : Job α} (h : j.Only allowed)
    (himp : ∀ c, allowed c → allowed' c) : j.Only allowed' := Plan.Only.mono h himp

theorem Only.attempt {j : Job α} (h : j.Only allowed) : j.attempt.Only allowed :=
  Plan.Only.bind h fun _ => Plan.only_pure _

theorem Only.tolerate {j : Job α} (h : j.Only allowed) : j.tolerate.Only allowed :=
  Plan.Only.bind h fun _ => Plan.only_pure _

theorem Only.bind {j : Job α} {f : α → Job β} (h : j.Only allowed)
    (h' : ∀ a, (f a).Only allowed) : (j >>= f).Only allowed := by
  unfold Only
  rw [run_bind]
  apply Plan.Only.bind h
  intro r
  cases r with
  | ok a => exact h' a
  | error e => exact Plan.only_pure _

theorem Only.bind_of {j : Job α} {f : α → Job β} {known : α → Prop} (h : j.Only allowed)
    (hknown : j.Returns known)
    (h' : ∀ a, known a → (f a).Only allowed) : (j >>= f).Only allowed := by
  refine Ensures.bind (Plan.Ensures.and h hknown) ?_ fun t e ht => ht.1
  intro t a ht
  refine Plan.Ensures.mono (h' a (ht.2 a rfl)) fun t' _ ht' => ?_
  exact List.forall_mem_append.2 ⟨ht.1, ht'⟩

/-- In a run whose replies are as given, every call is allowed. -/
def OnlyWhen (given : Event → Prop) (allowed : Call → Prop) (j : Job α) : Prop :=
  j.run.OnlyWhen given allowed

section onlyWhen
variable {given : Event → Prop}

theorem Only.when {j : Job α} (h : j.Only allowed) : j.OnlyWhen given allowed :=
  Plan.Only.when h

theorem OnlyWhen.attempt {j : Job α} (h : j.OnlyWhen given allowed) :
    j.attempt.OnlyWhen given allowed :=
  Plan.OnlyWhen.bind h fun _ => (Plan.only_pure _).when

theorem OnlyWhen.tolerate {j : Job α} (h : j.OnlyWhen given allowed) :
    j.tolerate.OnlyWhen given allowed :=
  Plan.OnlyWhen.bind h fun _ => (Plan.only_pure _).when

theorem OnlyWhen.bind {j : Job α} {f : α → Job β} (h : j.OnlyWhen given allowed)
    (h' : ∀ a, (f a).OnlyWhen given allowed) : (j >>= f).OnlyWhen given allowed := by
  unfold OnlyWhen
  rw [run_bind]
  apply Plan.OnlyWhen.bind h
  intro r
  cases r with
  | ok a => exact h' a
  | error e => exact (Plan.only_pure _).when

end onlyWhen
end only
end Job

section requests
variable {allowed : Call → Prop}

@[simp] theorem Hypervisor.ensures_send (region : String) (r : Hypervisor.Request)
    (post : Trace → Except Fault r.Answer → Prop) :
    (Hypervisor.send region r).Ensures post ↔ ∀ a, post [⟨.hypervisor region r, a⟩] a :=
  Plan.ensures_perform (.hypervisor region r) post

@[simp] theorem Capacity.ensures_send (r : Capacity.Request)
    (post : Trace → Except Fault r.Answer → Prop) :
    (Capacity.send r).Ensures post ↔ ∀ a, post [⟨.capacity r, a⟩] a :=
  Plan.ensures_perform (.capacity r) post

@[simp] theorem Bootstrap.ensures_send (r : Bootstrap.Request)
    (post : Trace → Except Fault r.Answer → Prop) :
    (Bootstrap.send r).Ensures post ↔ ∀ a, post [⟨.bootstrap r, a⟩] a :=
  Plan.ensures_perform (.bootstrap r) post

theorem only_connect {region : String} (h : allowed (.connect region)) :
    (connect region).Only allowed := Plan.only_perform h

theorem Hypervisor.only_send {region : String} {r : Hypervisor.Request}
    (h : allowed (.hypervisor region r)) : (Hypervisor.send region r).Only allowed :=
  Plan.only_perform h

theorem Capacity.only_send {r : Capacity.Request} (h : allowed (.capacity r)) :
    (Capacity.send r).Only allowed := Plan.only_perform h

theorem Bootstrap.only_send {r : Bootstrap.Request} (h : allowed (.bootstrap r)) :
    (Bootstrap.send r).Only allowed := Plan.only_perform h

theorem Memory.only_access {a : Memory.Access} (h : allowed (.memory a)) :
    (Memory.access a).Only allowed := Plan.only_perform h

theorem Circumstance.only_learn {c : Circumstance} (h : allowed (.circumstance c)) :
    c.learn.Only allowed := Plan.only_perform h

theorem withZone_only {α : Type} {region zone : String} {j : Job α}
    (henter : allowed (.enterZone region zone)) (hleave : allowed (.leaveZone region zone))
    (h : j.Only allowed) : (withZone region zone j).Only allowed :=
  (Plan.only_perform henter).bind fun _ => Plan.Only.bind h fun _ =>
    (Plan.only_perform hleave).bind fun _ => Plan.only_pure _

theorem withZone_ensures {α : Type} {region zone : String} {j : Job α}
    {post : Trace → Except Fault α → Prop} (h : j.Ensures fun t r =>
      post (⟨.enterZone region zone, ()⟩ :: (t ++ [⟨.leaveZone region zone, ()⟩])) r) :
    (withZone region zone j).Ensures post := by
  refine (Plan.ensures_bind _ _ _).2
    ((Plan.ensures_perform (.enterZone region zone) _).2 fun _ => ?_)
  refine (Plan.ensures_bind _ _ _).2 (Plan.Ensures.mono h fun t r hr => ?_)
  refine (Plan.ensures_bind _ _ _).2
    ((Plan.ensures_perform (.leaveZone region zone) _).2 fun _ => ?_)
  exact (Plan.ensures_pure _ _).2 hr

end requests
end NodeProvisioner
