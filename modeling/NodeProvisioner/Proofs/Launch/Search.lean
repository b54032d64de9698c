import NodeProvisioner.Proofs.Launch.Satisfaction

/-! The way of a search. What is asked and answered determines one list of steps, which is gone
through from its start: a launch that fails does not end it, and one that succeeds does. -/
namespace NodeProvisioner.Search

inductive Step where
  /-- The capacity is asked where to go on. -/
  | asked (questions : Trace)
  /-- A region is left out for want of a zone. -/
  | noRoom (shape : InstanceType) (region : String)
  | candidate (c : Candidate)

inductive Each {α : Type} (steps : α → List Step → Prop) : List α → List Step → Prop where
  | nil : Each steps [] []
  | cons {x : α} {xs : List α} {s s' : List Step} (h : steps x s) (hrest : Each steps xs s') :
      Each steps (x :: xs) (s ++ s')

namespace Each
variable {α : Type}

theorem exists_of_forall {steps : α → List Step → Prop} (h : ∀ x, ∃ s, steps x s) (xs : List α) :
    ∃ s, Each steps xs s := by
  induction xs with
  | nil => exact ⟨[], .nil⟩
  | cons x xs ih =>
    obtain ⟨s, hs⟩ := h x
    obtain ⟨s', hs'⟩ := ih
    exact ⟨s ++ s', .cons hs hs'⟩

theorem eq_map {step : α → Step} {xs : List α} {s : List Step}
    (h : Each (fun x s => s = [step x]) xs s) : s = xs.map step := by
  induction h with
  | nil => rfl
  | cons h _ ih =>
    rw [h, ih]
    rfl

end Each

/-- The zones that are candidates, with the question that tells them: those that the claim names and
the region has, else those with room. -/
inductive Surveyed (rs : Requirements) (shape : InstanceType) (region : String) :
    Trace → List String → Prop where
  | named {named : List String} (h : Placement.namedZones? rs = some named)
      (known : List String) :
      Surveyed rs shape region [⟨.ask (.zones region), known⟩] (named.filter known.contains)
  | withRoom (h : Placement.namedZones? rs = none) (zones : List String) :
      Surveyed rs shape region [⟨.ask (.zonesWithRoom region shape.capacity), zones⟩] zones

section steps
variable (claim : NodeClaim) (cls : NodeClass)

inductive RegionSteps (shape : InstanceType) (region : String) : List Step → Prop where
  | full {t : Trace} (h : Surveyed claim.requirements shape region t []) :
      RegionSteps shape region [.asked t, .noRoom shape region]
  /-- Every zone is a candidate once, in the order of the placement. -/
  | roomy {t : Trace} {zones ordered : List String}
      (h : Surveyed claim.requirements shape region t zones) (hroom : zones ≠ [])
      (load : String → Binary64) (draw : Nat → Nat)
      (horder : ordered = Placement.orderZones cls.spec.zoneBalance load draw zones)
      (hperm : ordered.Perm zones) :
      RegionSteps shape region (
        .asked (t ++ [⟨.ask (.loads region), load⟩, ⟨.circumstance .draws, draw⟩]) ::
          ordered.map fun zone => .candidate { claim, cls, shape, region, zone })

inductive ShapeSteps (shape : InstanceType) : List Step → Prop where
  | regions (all : List String) {s : List Step}
      (h : Each (RegionSteps claim cls shape) (Placement.regions cls claim.requirements all) s) :
      ShapeSteps shape (.asked [⟨.ask .capacityRegions, all⟩] :: s)

/-- The steps of a whole search: the shapes that have a price in turn. -/
abbrev Route (types : List InstanceType) : List Step → Prop :=
  Each (ShapeSteps claim cls) (Placement.priced types claim.requirements)

end steps

def goOn : Event := ⟨.circumstance .cancelled, false⟩

def stopNow : Event := ⟨.circumstance .cancelled, true⟩

section runs
variable {settings : Settings}

/-- A run through all of the steps, none of which leads to a node, with what is noted of them. -/
inductive Passed (settings : Settings) : List Step → Trace → List String → Prop where
  | nil : Passed settings [] [] []
  | asked (t : Trace) {s : List Step} {t' : Trace} {notes : List String}
      (hrest : Passed settings s t' notes) : Passed settings (.asked t :: s) (t ++ t') notes
  | noRoom (shape : InstanceType) (region : String) {s : List Step} {t : Trace}
      {notes : List String} (hrest : Passed settings s t notes) :
      Passed settings (.noRoom shape region :: s) t (noRoom shape region :: notes)
  | failed {c : Candidate} {launch : Trace} {e : Fault} {s : List Step} {t : Trace}
      {notes : List String} (h : (c.launch settings).run.Yields launch (.error e))
      (hrest : Passed settings s t notes) :
      Passed settings (.candidate c :: s) (goOn :: (launch ++ t)) (failure c e :: notes)

/-- A run along the steps, from their start on, after the attempts that were noted. -/
inductive Goes (settings : Settings) (attempts : List String) :
    List Step → Trace → Except Fault Progress → Prop where
  /-- The first launch that succeeds is the end of it. -/
  | found {before after : List Step} {c : Candidate} {t launch : Trace} {notes : List String}
      {node : NodeClaim} (hbefore : Passed settings before t notes)
      (h : (c.launch settings).run.Yields launch (.ok node)) :
      Goes settings attempts (before ++ .candidate c :: after) (t ++ goOn :: launch)
        (.ok (.found node))
  /-- No launch begins once the caller has cancelled. -/
  | cancelled {before after : List Step} {c : Candidate} {t : Trace} {notes : List String}
      (hbefore : Passed settings before t notes) :
      Goes settings attempts (before ++ .candidate c :: after) (t ++ [stopNow])
        (.error cancelled)
  | missed {s : List Step} {t : Trace} {notes : List String} (h : Passed settings s t notes) :
      Goes settings attempts s t (.ok (.missed (attempts ++ notes)))

theorem Passed.append {s s' : List Step} {t t' : Trace} {notes notes' : List String}
    (h : Passed settings s t notes) (h' : Passed settings s' t' notes') :
    Passed settings (s ++ s') (t ++ t') (notes ++ notes') := by
  induction h with
  | nil => exact h'
  | asked t _ ih =>
    rw [List.append_assoc]
    exact .asked t ih
  | noRoom shape region _ ih => exact .noRoom shape region ih
  | failed h _ ih => simpa only [List.cons_append, List.append_assoc] using Passed.failed h ih

namespace Goes
variable {attempts notes : List String} {s s' : List Step} {t t' : Trace}
  {r : Except Fault Progress}

theorem after (h : Goes settings (attempts ++ notes) s' t' r)
    (hbefore : Passed settings s t notes) : Goes settings attempts (s ++ s') (t ++ t') r := by
  cases h with
  | found hpassed h =>
    rw [← List.append_assoc, ← List.append_assoc]
    exact .found (hbefore.append hpassed) h
  | cancelled hpassed =>
    rw [← List.append_assoc, ← List.append_assoc]
    exact .cancelled (hbefore.append hpassed)
  | missed h =>
    rw [List.append_assoc]
    exact .missed (hbefore.append h)

theorem asked (h : Goes settings attempts s' t' r) (t : Trace) :
    Goes settings attempts (.asked t :: s') (t ++ t') r := by
  have hpassed : Passed settings [.asked t] t [] := by simpa using Passed.asked t .nil
  exact after (by simpa using h) hpassed

theorem ended (h : Goes settings attempts s t r) (hend : ∀ attempts', r ≠ .ok (.missed attempts'))
    (s' : List Step) : Goes settings attempts (s ++ s') t r := by
  cases h with
  | found hpassed h =>
    rw [List.append_assoc]
    exact .found hpassed h
  | cancelled hpassed =>
    rw [List.append_assoc]
    exact .cancelled hpassed
  | missed h => exact absurd rfl (hend _)

end Goes

/-- Whatever the replies are, the job goes along steps as told. -/
def Along (settings : Settings) (steps : List Step → Prop) (attempts : List String)
    (j : Job Progress) : Prop :=
  j.Ensures fun t r => ∃ s, steps s ∧ Goes settings attempts s t r

theorem Along.exists_steps {steps : List Step → Prop} {attempts : List String} {j : Job Progress}
    (h : Along settings steps attempts j) : ∃ s, steps s := by
  obtain ⟨s, hs, -⟩ := h _ _ (Plan.yields_play (fun _ => Call.grant) [] j.run)
  exact ⟨s, hs⟩

theorem tryEach_along {α : Type} {step : α → List String → Job Progress}
    {steps : α → List Step → Prop}
    (h : ∀ x attempts, Along settings (steps x) attempts (step x attempts)) (xs : List α)
    (attempts : List String) :
    Along settings (Each steps xs) attempts (tryEach step xs attempts) := by
  induction xs generalizing attempts with
  | nil =>
    refine (Job.ensures_pure _ _).2 ⟨[], .nil, ?_⟩
    have hmissed : Goes settings attempts [] [] (.ok (.missed (attempts ++ []))) := .missed .nil
    rwa [List.append_nil] at hmissed
  | cons x xs ih =>
    -- A search that ends here asks nothing about the others, so any steps will do for them.
    obtain ⟨rest, hrest⟩ := Each.exists_of_forall (fun x => (h x []).exists_steps) xs
    refine (h x attempts).bind ?_ ?_
    · rintro t (node | attempts') ⟨s, hs, hgoes⟩
      · refine (Job.ensures_pure _ _).2 ⟨s ++ rest, .cons hs hrest, ?_⟩
        simpa using hgoes.ended nofun rest
      · cases hgoes with
        | missed hpassed =>
          refine Job.Ensures.mono (ih _) fun t' r ⟨s', hs', hgoes'⟩ => ?_
          exact ⟨s ++ s', .cons hs hs', hgoes'.after hpassed⟩
    · rintro t e ⟨s, hs, hgoes⟩
      exact ⟨s ++ rest, .cons hs hrest, hgoes.ended nofun rest⟩

variable {claim : NodeClaim} {cls : NodeClass} {shape : InstanceType} {region : String}

theorem tryZone_along (zone : String) (attempts : List String) :
    Along settings (fun s => s = [.candidate { claim, cls, shape, region, zone }]) attempts
      (tryZone settings claim cls shape region zone attempts) := by
  refine (Job.ensures_perform_bind (.circumstance .cancelled) _ _).2 fun r => ?_
  cases r with
  | true => exact (Job.ensures_fail _ _).2 ⟨_, rfl, @Goes.cancelled _ _ [] [] _ [] [] .nil⟩
  | false =>
    refine (Job.ensures_bind _ _ _).2 ((Job.ensures_attempt _ _).2 fun launch r hlaunch => ?_)
    cases r with
    | ok node =>
      refine (Job.ensures_pure _ _).2 ⟨_, rfl, ?_⟩
      rw [List.append_nil]
      exact @Goes.found _ attempts [] [] _ [] launch [] node .nil hlaunch
    | error e =>
      refine (Job.ensures_pure _ _).2 ⟨_, rfl, ?_⟩
      exact .missed (.failed hlaunch .nil)

theorem candidateZones_surveyed :
    (candidateZones claim.requirements region shape).Ensures
      (Surveyed claim.requirements shape region) := by
  unfold candidateZones
  split
  · next named h =>
    refine (Plan.ensures_bind _ _ _).2 ((Plan.ensures_perform (.ask _) _).2 fun known => ?_)
    exact (Plan.ensures_pure _ _).2 (.named h known)
  · next h => exact (Plan.ensures_perform (.ask _) _).2 fun zones => .withRoom h zones

theorem tryRegion_along (region : String) (attempts : List String) :
    Along settings (RegionSteps claim cls shape region) attempts
      (tryRegion settings claim cls shape region attempts) := by
  refine (Job.ensures_bind _ _ _).2 ((Job.ensures_lift _ _).2 ?_)
  refine candidateZones_surveyed.mono fun t zones hsurveyed => ?_
  cases zones with
  | nil =>
    refine (Job.ensures_pure _ _).2 ⟨_, .full hsurveyed, ?_⟩
    exact .asked (.missed (.noRoom shape region .nil)) t
  | cons z zs =>
    have hordered : (orderedZones cls region (z :: zs)).Ensures fun t ordered => ∃ load draw,
        t = [⟨.ask (.loads region), load⟩, ⟨.circumstance .draws, draw⟩] ∧
          ordered = Placement.orderZones cls.spec.zoneBalance load draw (z :: zs) := by
      refine (Plan.ensures_bind _ _ _).2 ((Plan.ensures_perform (.ask _) _).2 fun load => ?_)
      refine (Plan.ensures_bind _ _ _).2
        ((Plan.ensures_perform (.circumstance _) _).2 fun draw => ?_)
      exact (Plan.ensures_pure _ _).2 ⟨load, draw, rfl, rfl⟩
    refine (Job.ensures_bind _ _ _).2 ((Job.ensures_lift _ _).2 (hordered.mono ?_))
    rintro t' ordered ⟨load, draw, rfl, horder⟩
    refine Job.Ensures.mono (tryEach_along tryZone_along ordered attempts) ?_
    rintro t' r ⟨s, hs, hgoes⟩
    have hperm : ordered.Perm (z :: zs) := horder ▸ Placement.orderZones_perm _ _ _ _
    refine ⟨_, .roomy hsurveyed (List.cons_ne_nil _ _) load draw horder hperm, ?_⟩
    rw [hs.eq_map] at hgoes
    rw [← List.append_assoc]
    exact hgoes.asked _

theorem tryShape_along (shape : InstanceType) (attempts : List String) :
    Along settings (ShapeSteps claim cls shape) attempts
      (tryShape settings claim cls shape attempts) := by
  refine (Job.ensures_bind _ _ _).2 ((Job.ensures_lift _ _).2 ?_)
  refine (Plan.ensures_bind _ _ _).2 ((Plan.ensures_perform (.ask _) _).2 fun all => ?_)
  refine (Plan.ensures_pure _ _).2 ?_
  refine Job.Ensures.mono (tryEach_along tryRegion_along _ attempts) ?_
  rintro t r ⟨s, hs, hgoes⟩
  exact ⟨_, .regions all hs, hgoes.asked _⟩

def Progress.conclude : Progress → Except Fault NodeClaim
  | .found node => .ok node
  | .missed attempts => .error (.insufficientCapacity attempts)

end runs
end NodeProvisioner.Search

namespace NodeProvisioner.NodeClaim
open Search

theorem create_ensures (settings : Settings) (claim : NodeClaim) (cls : NodeClass)
    (types : List InstanceType) :
    (claim.create settings cls types).Ensures fun t r =>
      ∃ steps progress, Route claim cls types steps ∧
        Goes settings ((Placement.unpriced types claim.requirements).map noOffering) steps t
          progress ∧ r = progress.bind Progress.conclude := by
  refine (tryEach_along tryShape_along _ _).bind ?_ ?_
  · rintro t progress ⟨steps, hsteps, hgoes⟩
    cases progress with
    | found node =>
      exact (Job.ensures_pure _ _).2 ⟨steps, _, hsteps, by simpa using hgoes, rfl⟩
    | missed attempts =>
      exact (Job.ensures_fail _ _).2 ⟨steps, _, hsteps, by simpa using hgoes, rfl⟩
  · rintro t e ⟨steps, hsteps, hgoes⟩
    exact ⟨steps, _, hsteps, hgoes, rfl⟩

/-- A creation goes along its route: to the first launch that succeeds, to where the caller has
cancelled, or to the end. At the end it tells of every attempt: first of the shapes that no offering
fits, then of the steps in turn. -/
theorem create_goes {settings : Settings} {claim : NodeClaim} {cls : NodeClass}
    {types : List InstanceType} {t : Trace} {r : Except Fault NodeClaim}
    (h : (claim.create settings cls types).run.Yields t r) :
    ∃ steps progress, Route claim cls types steps ∧
      Goes settings ((Placement.unpriced types claim.requirements).map noOffering) steps t
        progress ∧ r = progress.bind Progress.conclude :=
  create_ensures settings claim cls types t r h

def bareRegion : (c : Call) → c.Reply
  | .ask .capacityRegions => ["r0", "r1"]
  | c => c.grant

theorem create_goes_on :
    ∃ t node, ((claimOf []).create {} (classIn none) [shapeWith ∅]).run.Yields t (.ok node) ∧
      node.label Label.region = some "r1" ∧
      ∃ steps progress, Route (claimOf []) (classIn none) [shapeWith ∅] steps ∧
        Goes {} ((Placement.unpriced [shapeWith ∅] (claimOf []).requirements).map noOffering) steps
          t progress ∧ .ok node = progress.bind Progress.conclude := by
  have hplay : (((claimOf []).create {} (classIn none) [shapeWith ∅]).run.play
      (fun _ => bareRegion) []).2.toOption.map (fun node => node.label Label.region) =
      some (some "r1") := by decide +kernel
  obtain ⟨t, node, hrun, hregion⟩ := Job.yields_of_play _ hplay
  exact ⟨t, node, hrun, hregion, create_goes hrun⟩

end NodeProvisioner.NodeClaim
