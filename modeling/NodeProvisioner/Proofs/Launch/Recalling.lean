import NodeProvisioner.Proofs.Identity.ProviderId
import NodeProvisioner.Proofs.Launch.Fleet
import NodeProvisioner.Proofs.Launch.GivingBack
import NodeProvisioner.Proofs.Launch.Retelling

/-! A launch records the machine that it made a node of, and whoever looks for the machine by that
record comes to its region and asks for its id there. -/
namespace NodeProvisioner

/-! ### What is recorded -/

/-- A node that the job tells of goes with one of its events. -/
def Job.Shows {α : Type} (told : α → NodeClaim → Prop) (good : Event → NodeClaim → Prop)
    (j : Job α) : Prop :=
  j.Ensures fun t r => ∀ a node, r = .ok a → told a node → ∃ e ∈ t, good e node

namespace Job
variable {α β : Type} {told : α → NodeClaim → Prop} {told' : β → NodeClaim → Prop}
  {good : Event → NodeClaim → Prop}

/-- What the second job tells of was told by the first, or goes with an event of its own. -/
theorem Shows.bind {j : Job α} {f : α → Job β} (h : j.Shows told good)
    (h' : ∀ a, (f a).Ensures fun t r => ∀ b node, r = .ok b → told' b node →
      told a node ∨ ∃ e ∈ t, good e node) : (j >>= f).Shows told' good := by
  refine Ensures.bind h ?_ fun _ _ _ _ _ => nofun
  intro t a hfirst
  refine (h' a).mono fun t' r hsecond b node hr hb => ?_
  rcases hsecond b node hr hb with ha | ⟨e, he, hgood⟩
  · obtain ⟨e, he, hgood⟩ := hfirst a node rfl ha
    exact ⟨e, List.mem_append_left t' he, hgood⟩
  · exact ⟨e, List.mem_append_right t he, hgood⟩

theorem Shows.after {j : Job α} {f : α → Job β} (h : ∀ a, (f a).Shows told' good) :
    (j >>= f).Shows told' good := by
  have hfirst : j.Shows (fun _ _ => False) good := fun _ _ _ _ _ _ => False.elim
  refine hfirst.bind fun a => (h a).mono fun t r hr b node hb htold => ?_
  exact .inr (hr b node hb htold)

theorem Shows.through {j : Job α} {f : α → Job β} (h : j.Shows told good)
    (h' : ∀ a, (f a).Returns fun b => ∀ node, told' b node → told a node) :
    (j >>= f).Shows told' good :=
  h.bind fun a => (h' a).mono fun _ _ hr b node hb htold => .inl (hr b hb node htold)

theorem shows_fail (e : Fault) : (Job.fail e : Job α).Shows told good :=
  (ensures_fail _ _).2 fun _ _ => nofun

end Job

def Event.Makes (e : Event) (node : NodeClaim) : Prop :=
  ∃ (c : Candidate) (t : TemplateEntry) (machine : MachineId) (clone : Machine)
      (token : Option String) (change : Change),
    e = ⟨.hypervisor c.region (.configure c.zone machine change), .ok ()⟩ ∧
      node = c.claim.launched (c.facts t machine clone token)

theorem Candidate.launch_shows (settings : Settings) (c : Candidate) :
    (c.launch settings).Shows Eq Event.Makes := by
  unfold launch
  apply Job.Shows.after
  intro inventory
  dsimp only
  split
  · exact Job.shows_fail _
  · next t _ =>
    refine Job.Shows.after fun _ => Job.Shows.after fun machine => ?_
    have hprovision : (liftM ((provision settings c t machine).run {}) : Job _).Shows
        (fun r node => r.1 = .ok node) Event.Makes := by
      refine (Job.ensures_lift _ _).2 ((provision_launches settings c t machine {}).mono ?_)
      rintro trace _ hgives r node ⟨⟩ hnode
      obtain ⟨granted, clone, token, hlaunched⟩ := hgives node hnode
      exact ⟨_, hlaunched.shaped, c, t, machine, clone, token, _, rfl, hlaunched.node⟩
    apply hprovision.through
    rintro ⟨result, stack⟩
    refine Job.Ensures.mono (conclude_returns settings c machine result stack) ?_
    rintro _ _ h node hnode _ rfl
    exact h node hnode

theorem Candidate.attempt_shows (settings : Settings) (c : Candidate) :
    (c.launch settings).attempt.Shows (fun r node => r = .ok node) Event.Makes := by
  refine (Job.ensures_attempt _ _).2 ((c.launch_shows settings).mono ?_)
  rintro t _ hr _ node ⟨⟩ hnode
  exact hr node node hnode rfl

namespace Search
variable {settings : Settings} {claim : NodeClaim} {cls : NodeClass}

abbrev Finding (j : Job Progress) : Prop :=
  j.Shows (fun p node => p = .found node) Event.Makes

theorem missed_finding (attempts : List String) : Finding (pure (.missed attempts)) :=
  (Job.ensures_pure _ _).2 fun _ _ h => by
    cases h
    exact nofun

theorem tryEach_finding {α : Type} {step : α → List String → Job Progress}
    (h : ∀ x attempts, Finding (step x attempts)) (xs : List α) (attempts : List String) :
    Finding (tryEach step xs attempts) := by
  induction xs generalizing attempts with
  | nil => exact missed_finding attempts
  | cons x xs ih =>
    apply (h x attempts).bind
    intro p
    cases p with
    | found node =>
      refine (Job.ensures_pure _ _).2 ?_
      rintro _ _ ⟨⟩ h
      exact .inl h
    | missed attempts =>
      refine (ih attempts).mono fun t r hr p node hp htold => ?_
      exact .inr (hr p node hp htold)

theorem tryZone_finding (shape : InstanceType) (region zone : String) (attempts : List String) :
    Finding (tryZone settings claim cls shape region zone attempts) := by
  have hlaunch (c : Candidate) {f : Except Fault NodeClaim → Job Progress}
      (hok : ∀ node, f (.ok node) = pure (.found node))
      (herror : ∀ e, ∃ attempts, f (.error e) = pure (.missed attempts)) :
      Finding ((c.launch settings).attempt >>= f) := by
    apply (c.attempt_shows settings).through
    intro r
    cases r with
    | ok node =>
      rw [hok]
      apply Job.returns_pure
      rintro _ ⟨⟩
      rfl
    | error e =>
      obtain ⟨attempts, h⟩ := herror e
      rw [h]
      exact Job.returns_pure fun _ => nofun
  unfold tryZone
  apply Job.Shows.after
  intro cut
  dsimp only
  split
  · exact Job.Shows.after fun _ => hlaunch _ (fun _ => rfl) fun _ => ⟨_, rfl⟩
  · exact hlaunch _ (fun _ => rfl) fun _ => ⟨_, rfl⟩

theorem tryRegion_finding (shape : InstanceType) (region : String) (attempts : List String) :
    Finding (tryRegion settings claim cls shape region attempts) := by
  unfold tryRegion
  apply Job.Shows.after
  intro zones
  cases zones with
  | nil => exact missed_finding _
  | cons z zs =>
    apply Job.Shows.after
    intro ordered
    exact tryEach_finding (tryZone_finding shape region) ordered attempts

theorem tryShape_finding (shape : InstanceType) (attempts : List String) :
    Finding (tryShape settings claim cls shape attempts) := by
  unfold tryShape
  apply Job.Shows.after
  intro regions
  exact tryEach_finding (tryRegion_finding shape) regions attempts

end Search

theorem NodeClaim.create_shows (settings : Settings) (claim : NodeClaim) (cls : NodeClass)
    (types : List InstanceType) : (claim.create settings cls types).Shows Eq Event.Makes := by
  unfold create
  apply (Search.tryEach_finding Search.tryShape_finding _ _).through
  intro p
  cases p with
  | found node =>
    apply Job.returns_pure
    rintro _ rfl
    rfl
  | missed attempts => exact Job.returns_fail _

/-! ### What is recalled -/

def Hypervisor.Request.About (machine : MachineId) : Hypervisor.Request → Prop
  | .findMachine id => id = machine
  | .readMachine _ id => id = machine
  | .stop _ id => id = machine
  | .delete _ id => id = machine
  | .taskStatus _ _ => True
  | _ => False

def Call.On (region : String) (machine : MachineId) : Call → Prop
  | .connect r => r = region
  | .hypervisor r q => r = region ∧ q.About machine
  | .capacity (.release r _ granted) => r = region ∧ granted.machine = machine
  | .capacity (.refresh r _) => r = region
  | .bootstrap (.revokeToken _) => True
  | .memory (.forgetId r id) => r = region ∧ id = machine
  | .circumstance _ => True
  | _ => False

/-- Goes to the region at once and asks for the machine there; then all else is about that one, as
long as the hypervisor tells of no other. -/
structure ActsOn (region : String) (machine : MachineId) (t : Trace) : Prop where
  begins : (∃ e, t = [⟨.connect region, .error e⟩]) ∨ ∃ r rest,
    t = ⟨.connect region, .ok ()⟩ :: ⟨.hypervisor region (.findMachine machine), r⟩ :: rest
  only : (∀ e ∈ t, e.FindsExactly) → ∀ e ∈ t, e.call.On region machine

namespace NodeClaim
variable {settings : Settings} {claim : NodeClaim} {region id : String} {machine : MachineId}
  {p : ProviderId}

theorem lookup_actsOn {α : Type} {f : Option Location → Job α}
    (hnone : (f none).Only (Call.On region machine))
    (hsome : ∀ seen, seen.machine = machine → (f (some seen)).Only (Call.On region machine)) :
    (do
      connect region
      f (← Hypervisor.send region (.findMachine machine))).Ensures fun t _ =>
        ActsOn region machine t := by
  have hconnect : (Call.connect region).On region machine := rfl
  have hfind : (Call.hypervisor region (.findMachine machine)).On region machine := ⟨rfl, rfl⟩
  rw [Job.ensures_bind]
  refine (Plan.ensures_perform (.connect region) _).2 fun r => ?_
  cases r with
  | error e => exact ⟨.inl ⟨e, rfl⟩, by simp [hconnect]⟩
  | ok u =>
    refine (Job.ensures_bind _ _ _).2 ((Hypervisor.ensures_send _ _ _).2 fun r => ?_)
    rcases r with e | _ | seen
    · exact ⟨.inr ⟨_, _, rfl⟩, by simp [hconnect, hfind]⟩
    · refine Job.Ensures.mono hnone fun t r ht => ⟨.inr ⟨_, _, rfl⟩, fun _ => ?_⟩
      simpa [hconnect, hfind] using ht
    -- From here on the id that is told counts, and no longer the one that was asked for.
    · intro t r hrun
      refine ⟨.inr ⟨_, _, rfl⟩, fun hfinds => ?_⟩
      have hseen : seen.machine = machine :=
        hfinds ⟨.hypervisor region (.findMachine machine), .ok (some seen)⟩ (by simp)
      simpa [hconnect, hfind] using hsome seen hseen t r hrun

theorem giveBack_on (region : String) (seen : Location) (m : Machine) :
    (giveBack claim region seen m).Only (Call.On region seen.machine) := by
  refine (giveBack_calls m).mono fun t _ ht e he => ?_
  have hcall : e.call ∈ claim.tidyingUp region seen m := ht ▸ List.mem_map_of_mem he
  unfold tidyingUp at hcall
  simp only [List.cons_append, List.mem_cons, List.mem_append, List.mem_map, List.not_mem_nil,
    or_false] at hcall
  rcases hcall with h | ⟨token, -, h⟩ | h | h
  · rw [h]
    exact ⟨rfl, rfl⟩
  · rw [← h]
    trivial
  · rw [h]
    exact ⟨rfl, rfl⟩
  · rw [h]
    rfl

theorem Names.identify (h : claim.Names id p region) :
    claim.identify = .ok (id, p, region) := by
  unfold NodeClaim.identify
  simp only [h.providerId, h.parsed, regionOf, h.region, bind, Except.bind, pure, Except.pure]

theorem delete_actsOn (h : claim.Names id p region) :
    (claim.delete settings).Ensures fun t _ => ActsOn region p.machine t := by
  unfold delete
  refine (Job.ensures_bind _ _ _).2 ((Job.ensures_ofExcept _ _).2 ?_)
  rw [h.identify]
  apply lookup_actsOn
  · exact Job.only_fail _
  · intro seen hseen
    have hremove : (removeMachine settings region seen).Only (Call.On region p.machine) := by
      apply removeMachine_only
      · exact ⟨rfl, hseen⟩
      · exact ⟨rfl, hseen⟩
      · rintro task c (rfl | rfl | ⟨span, heeds, rfl⟩) <;> simp [Call.On, Hypervisor.Request.About]
    refine (Hypervisor.only_send ⟨rfl, hseen⟩).bind fun m => hremove.bind fun _ => ?_
    exact Job.only_lift (hseen ▸ giveBack_on region seen m)

theorem get_actsOn (hparse : ProviderId.parse id = .ok p) (hregion : p.region = some region) :
    (NodeClaim.get id).Ensures fun t _ => ActsOn region p.machine t := by
  unfold NodeClaim.get
  refine (Job.ensures_bind _ _ _).2 ((Job.ensures_ofExcept _ _).2 ?_)
  rw [hparse]
  simp only [hregion]
  unfold findIn
  apply lookup_actsOn
  · exact Job.only_fail _
  · intro seen hseen
    exact (Hypervisor.only_send ⟨rfl, hseen⟩).bind fun m => Job.only_pure _

/-- The node is known as this machine of the region, which got its shape in the run. -/
structure RecordedAs (node : NodeClaim) (region : String) (machine : MachineId) (t : Trace) :
    Prop where
  providerId : node.providerId = some (ProviderId.make region machine)
  label : node.label Label.region = some region
  shaped : ∃ zone change, ⟨.hypervisor region (.configure zone machine change), .ok ()⟩ ∈ t

theorem create_records {settings : Settings} {cls : NodeClass} {types : List InstanceType}
    {t : Trace} {node : NodeClaim} (h : (claim.create settings cls types).run.Yields t (.ok node)) :
    ∃ region machine, node.RecordedAs region machine t := by
  obtain ⟨_, hmem, c, entry, machine, clone, token, change, rfl, rfl⟩ :=
    create_shows settings claim cls types t _ h node node rfl rfl
  refine ⟨c.region, machine, ?_, ?_, c.zone, change, hmem⟩
  · simp [NodeClaim.providerId, launched, Candidate.facts, ProviderId.make, ProviderId.scheme]
  · exact (launched_labels c entry machine clone token).region

theorem RecordedAs.names {node : NodeClaim} {t : Trace} (h : node.RecordedAs region machine t)
    (hregion : Installation.Name region) :
    node.Names (ProviderId.make region machine) ⟨some region, machine⟩ region :=
  ⟨h.providerId, ProviderId.parse_make hregion machine, rfl⟩

end NodeClaim

open Installation (Name)

/-- Identities are read back from what is written for them if their names are names, and never as
others; texts are read if they spell an identity, which is then written in a form that is read as
the same. So the deletion and the lookup of a node that was launched act on the machine and in the
region that the launch recorded. -/
theorem NodeClaim.identities_recalled :
    (∀ region machine p, ProviderId.parse (ProviderId.make region machine) = .ok p ↔
      Name region ∧ p = ⟨some region, machine⟩) ∧
    (∀ i j, Installation.parse (Installation.render i) = .ok j ↔
      Name i.region ∧ Name i.zone ∧ j = i) ∧
    (∀ s p, ProviderId.parse s = .ok p ↔ ProviderId.Spells s p) ∧
    (∀ s i, Installation.parse s = .ok i ↔ Installation.Spells s i) ∧
    (∀ s p, ProviderId.parse s = .ok p → ProviderId.parse p.render = .ok p) ∧
    (∀ s i, Installation.parse s = .ok i → Installation.parse i.render = .ok i) ∧
    ∀ settings claim cls types t node,
      (NodeClaim.create settings claim cls types).run.Yields t (.ok node) →
        ∃ region machine, node.RecordedAs region machine t ∧ (Name region →
          (∀ settings' t' r, (node.delete settings').run.Yields t' r →
            ActsOn region machine t') ∧
          ∀ t' r, (NodeClaim.get (ProviderId.make region machine)).run.Yields t' r →
            ActsOn region machine t') := by
  refine ⟨fun _ _ _ => ProviderId.parse_make_iff, fun _ _ => Installation.parse_render_iff,
    fun _ _ => ProviderId.parse_eq_ok, fun _ _ => Installation.parse_eq_ok,
    fun _ _ => ProviderId.parse_render_of_parse, fun _ _ => Installation.parse_render_of_parse, ?_⟩
  intro settings claim cls types t node h
  obtain ⟨region, machine, hrecorded⟩ := create_records h
  refine ⟨region, machine, hrecorded, fun hregion => ?_⟩
  have hnames := hrecorded.names hregion
  constructor
  · intro settings' t' r h'
    exact delete_actsOn hnames t' r h'
  · intro t' r h'
    exact get_actsOn hnames.parsed rfl t' r h'

/-- A launch where all goes well, and the deletion and lookup of what it returned. -/
theorem NodeClaim.identities_recalled_granted :
    (ProviderId.parse "proxmox://r1/+01042" = .ok ⟨some "r1", 1042⟩ ∧
      ProviderId.parse "proxmox://r1/1042" = .ok ⟨some "r1", 1042⟩) ∧
    (Installation.parse "r1/z1/09000" = .ok ⟨"r1", "z1", 9000⟩ ∧
      Installation.parse "r1/z1/9000" = .ok ⟨"r1", "z1", 9000⟩) ∧
    ∃ t node machine, (NodeClaim.create {} Candidate.fractional.claim
        Candidate.fractional.cls [{ Candidate.fractional.shape with
          offerings := [{ price := default, available := true }] }]).run.Yields t (.ok node) ∧
      node.RecordedAs "r1" machine t ∧
      (∃ t' r, (node.delete {}).run.Yields t' r ∧ ActsOn "r1" machine t') ∧
      ∃ t' r, (NodeClaim.get (ProviderId.make "r1" machine)).run.Yields t' r ∧
        ActsOn "r1" machine t' := by
  obtain ⟨-, -, -, -, hid, hinstallation, hcreate⟩ := identities_recalled
  have hread : ProviderId.parse "proxmox://r1/+01042" = .ok ⟨some "r1", 1042⟩ := by decide +kernel
  have hread' : Installation.parse "r1/z1/09000" = .ok ⟨"r1", "z1", 9000⟩ := by decide +kernel
  refine ⟨⟨hread, hid _ _ hread⟩, ⟨hread', hinstallation _ _ hread'⟩, ?_⟩
  obtain ⟨t, node, hrun, hlabel, -⟩ := Job.yields_of_replies Call.grant
    (NodeClaim.create {} Candidate.fractional.claim Candidate.fractional.cls
      [{ Candidate.fractional.shape with
        offerings := [{ price := default, available := true }] }])
    (fun _ node => node.label Label.region == some "r1") (by decide +kernel)
  obtain ⟨region, machine, hrecorded, hacts⟩ := hcreate _ _ _ _ t node hrun
  have hregion : region = "r1" := by
    have hsame := hrecorded.label.symm.trans (beq_iff_eq.1 hlabel)
    exact Option.some.inj hsame
  subst hregion
  obtain ⟨hdeletes, hgets⟩ := hacts ⟨by decide, by decide⟩
  have hdelete := Plan.yields_play (fun _ => Call.grant) [] (node.delete {}).run
  have hget := Plan.yields_play (fun _ => Call.grant) []
    (NodeClaim.get (ProviderId.make "r1" machine)).run
  exact ⟨t, node, machine, hrun, hrecorded, ⟨_, _, hdelete, hdeletes {} _ _ hdelete⟩,
    _, _, hget, hgets _ _ hget⟩

end NodeProvisioner
