import Mathlib.Data.List.Induction
import NodeProvisioner.Proofs.Launch.Growing
import NodeProvisioner.Proofs.Launch.Networking
import NodeProvisioner.Proofs.Launch.Retelling
import NodeProvisioner.Proofs.Launch.Satisfaction
import NodeProvisioner.Proofs.Machine.Writing

/-! The tags of a node: which ones are written, what is read of the joined text, and that nothing
later in a launch touches them. -/
namespace NodeProvisioner

namespace Shape
open Blueprint (templateTag)

/-- The tags of a node: its cluster, and behind it what is asked for besides, each at the place
where it is asked for first. -/
structure Tagged (clusterName : String) (requested tags : List String) : Prop where
  eq : tags =
    clusterName :: (requested.filter fun t => t ≠ templateTag ∧ t ≠ clusterName).eraseDups
  notTemplate : templateTag ∉ tags
  kept : ∀ t ∈ requested, t ≠ templateTag → t ∈ tags
  once : tags.Nodup

section addTags
variable {tags : List String}

theorem addTags_concat (tags more : List String) (t : String) :
    addTags tags (more ++ [t]) =
      if t = templateTag ∨ t ∈ addTags tags more then addTags tags more
      else addTags tags more ++ [t] := by
  simp [addTags]

theorem mem_addTags {tag : String} {more : List String} :
    tag ∈ addTags tags more ↔ tag ∈ tags ∨ tag ∈ more ∧ tag ≠ templateTag := by
  induction more using List.reverseRecOn with
  | nil => simp [addTags]
  | append_singleton more t ih =>
    rw [addTags_concat]
    split <;> grind

/-- Taken one after the other, the tags are those of the whole list, each at its first place. -/
theorem addTags_eq (tags more : List String) : addTags tags more =
    tags ++ ((more.filter (· ≠ templateTag)).removeAll tags).eraseDups := by
  induction more using List.reverseRecOn with
  | nil => simp [addTags, List.removeAll]
  | append_singleton more t ih =>
    have hmore : (((more ++ [t]).filter (· ≠ templateTag)).removeAll tags).eraseDups =
        ((more.filter (· ≠ templateTag)).removeAll tags).eraseDups ++
          if t = templateTag ∨ t ∈ addTags tags more then [] else [t] := by
      simp only [mem_addTags, List.removeAll, List.filter_append, List.eraseDups_append]
      by_cases htemplate : t = templateTag
      · simp [htemplate]
      · by_cases htags : t ∈ tags <;> by_cases hmore : t ∈ more <;>
          simp [htemplate, htags, hmore, List.eraseDups_cons]
    rw [addTags_concat, hmore, ← List.append_assoc, ← ih]
    split
    · rw [List.append_nil]
    · rfl

theorem nodup_addTags (h : tags.Nodup) (more : List String) : (addTags tags more).Nodup := by
  induction more using List.reverseRecOn with
  | nil => exact h
  | append_singleton more t ih =>
    rw [addTags_concat]
    split
    · exact ih
    · next hnew =>
      rw [← List.concat_eq_append]
      exact ih.concat (not_or.1 hnew).2

end addTags

section tags
variable {clusterName : String} {clsTags : List String} {clone : Machine} {granted : Reservation}
  {p : Provenance} (hcluster : Setting.Tag clusterName) (hne : clusterName ≠ templateTag)
  (hclone : ∀ t ∈ clone.tags, Setting.Tag t) (hcls : ∀ t ∈ clsTags, Setting.Tag t)

include hne in
theorem tagged_tags (clone cls : List String) :
    Tagged clusterName (clone ++ cls) (tags clusterName clone cls) where
  eq := by
    unfold tags
    rw [addTags_eq, List.removeAll, List.filter_filter]
    simp [Bool.and_comm]
  notTemplate := by
    unfold tags
    rw [mem_addTags]
    simp [hne.symm]
  kept t ht htemplate := mem_addTags.2 (.inr ⟨ht, htemplate⟩)
  once := nodup_addTags (List.nodup_singleton clusterName) _

theorem tags_written : ("tags", Setting.writeTags (tags clusterName clone.tags clsTags)) ∈
    written clusterName clsTags clone granted p := by
  simp [written]

include hcluster hclone hcls in
theorem readTags_tags : Setting.readTags (Setting.writeTags (tags clusterName clone.tags clsTags)) =
    tags clusterName clone.tags clsTags := by
  apply Setting.readTags_writeTags
  intro t ht
  rcases mem_addTags.1 ht with h | ⟨h, -⟩
  · rwa [List.mem_singleton.1 h]
  · exact (List.mem_append.1 h).elim (hclone t) (hcls t)

end tags
end Shape

theorem Machine.decides_tags : Decides "tags" Setting.readTags (·.tags) := by
  refine .of_key (fun m s h => ?_) fun {m v s} h _ => ?_
  · cases s <;> first | rfl | exact absurd rfl h
  · cases h
    rfl

/-! ### Changes in a launch -/

def Call.change? : Call → Option Change
  | .hypervisor _ (.configure _ _ change) => some change
  | _ => none

theorem Call.eq_configure_of_change? {call : Call} {change : Change}
    (h : call.change? = some change) :
    ∃ region zone machine, call = .hypervisor region (.configure zone machine change) := by
  unfold change? at h
  split at h
  · cases h
    exact ⟨_, _, _, rfl⟩
  · cases h

/-- If the call changes the option of the key, it gives it this value. -/
def Call.Conforms (key value : String) (call : Call) : Prop :=
  ∀ change, call.change? = some change →
    change.set.get? key = some value ∨ (change.set.get? key = none ∧ change.delete = ∅)

theorem Call.conforms_of_none {key value : String} {call : Call} (h : call.change? = none) :
    call.Conforms key value := by
  intro change hchange
  rw [h] at hchange
  cases hchange

def Event.changeOf? (region : String) (machine : MachineId) : Event → Option Change
  | ⟨.hypervisor region' (.configure _ machine' change), .ok _⟩ =>
    if region' = region ∧ machine' = machine then some change else none
  | _ => none

theorem Event.change?_call {region : String} {machine : MachineId} {e : Event} {change : Change}
    (h : e.changeOf? region machine = some change) : e.call.change? = some change := by
  unfold changeOf? at h
  split at h
  · split at h
    · exact h
    · cases h
  · cases h

/-- The options of the machine after its configuration was changed as these calls say. -/
def Trace.optionsAfter (region : String) (machine : MachineId) (t : Trace) (o : Options) :
    Options :=
  (t.filterMap (Event.changeOf? region machine)).foldl (fun o change => change.applyTo o) o

section optionsAfter
variable {region : String} {machine : MachineId} {key value : String} {t : Trace}

theorem Trace.optionsAfter_cons (e : Event) (t : Trace) (o : Options) :
    Trace.optionsAfter region machine (e :: t) o = t.optionsAfter region machine
      (match e.changeOf? region machine with | some change => change.applyTo o | none => o) := by
  unfold optionsAfter
  rw [List.filterMap_cons]
  split <;> simp [*]

theorem Trace.get?_optionsAfter (h : ∀ e ∈ t, e.call.Conforms key value) {o : Options}
    (ho : o.get? key = some value) : (t.optionsAfter region machine o).get? key = some value := by
  induction t generalizing o with
  | nil => exact ho
  | cons e t ih =>
    obtain ⟨he, ht⟩ := List.forall_mem_cons.1 h
    rw [optionsAfter_cons]
    refine ih ht ?_
    split
    · next change hchange =>
      rcases he change (Event.change?_call hchange) with hset | ⟨hset, hdelete⟩
      · exact Change.get?_applyTo_of_set hset o
      · rw [Change.get?_applyTo_of_unnamed hset hdelete, ho]
    · exact ho

theorem Trace.get?_optionsAfter_of_mem (h : ∀ e ∈ t, e.call.Conforms key value) {e : Event}
    (he : e ∈ t) {change : Change} (hchange : e.changeOf? region machine = some change)
    (hvalue : change.set.get? key = some value) (o : Options) :
    (t.optionsAfter region machine o).get? key = some value := by
  induction t generalizing o with
  | nil => cases he
  | cons e' t ih =>
    obtain ⟨-, ht⟩ := List.forall_mem_cons.1 h
    rw [optionsAfter_cons]
    rcases List.mem_cons.1 he with rfl | he
    · rw [hchange]
      exact get?_optionsAfter ht (Change.get?_applyTo_of_set hvalue o)
    · exact ih ht he _

end optionsAfter

theorem Networking.configure_conforms {t : Target} {m : Machine} {key value : String}
    (hnic : ∀ index, key ≠ Setting.numbered "net" index)
    (haddressing : ∀ index, key ≠ Setting.numbered "ipconfig" index) :
    (configure t m).Only (Call.Conforms key value) := by
  intro trace r hrun event hevent change hchange
  obtain ⟨call, reply⟩ := event
  obtain ⟨region, zone, machine, rfl⟩ := Call.eq_configure_of_change? hchange
  obtain ⟨network, xs, -, -, rfl⟩ := (configure_ran t m trace r hrun).of_configure hevent
  refine .inr ⟨?_, delete_change xs⟩
  by_contra hset
  obtain ⟨v, hv⟩ := Option.ne_none_iff_exists'.1 hset
  obtain ⟨x, -, hx⟩ := List.mem_flatMap.1 ((Change.mem_of_get?_putAll hv).resolve_right nofun)
  rcases Outcome.mem_orders.1 hx with h | h
  · exact hnic x.index rfl
  · exact haddressing x.index rfl

namespace Candidate
open Undoable (only_lift only_pure)
variable {settings : Settings} {c : Candidate} {t : TemplateEntry} {machine : MachineId}
  {clone : Machine}

theorem succeed_conforms {p : Patience} {heeds : Bool} {region zone : String} {task : TaskId}
    {key value : String} : (Task.succeed p heeds region zone task).Only (Call.Conforms key value) :=
  Task.succeed_only (Call.conforms_of_none rfl) (Call.conforms_of_none rfl)
    fun _ => Call.conforms_of_none rfl

theorem shapeClone_conforms (granted : Reservation) :
    (shapeClone settings c t machine granted clone).Only (Call.Conforms "tags"
      (Setting.writeTags (Shape.tags settings.clusterName clone.tags c.cls.spec.tags))) := by
  refine shapeClone_only ?_ (fun _ _ _ _ => Call.conforms_of_none rfl)
    (Networking.configure_conforms (Setting.ne_numbered (by decide))
      (Setting.ne_numbered (by decide))) fun _ => Call.conforms_of_none rfl
  rintro change ⟨⟩
  exact .inl (Shape.options_get? Shape.tags_written)

theorem provision_conforms : (provision settings c t machine).OnlyWhen (Event.ReadsAs clone)
    (Call.Conforms "tags"
      (Setting.writeTags (Shape.tags settings.clusterName clone.tags c.cls.spec.tags))) := by
  unfold provision
  refine Undoable.OnlyWhen.bind (cloneTemplate_only (Call.conforms_of_none rfl)
    (Call.conforms_of_none rfl) fun _ => succeed_conforms).when fun granted => ?_
  refine Undoable.OnlyWhen.read (Call.conforms_of_none rfl) (Undoable.Only.when ?_)
  refine (only_lift (shapeClone_conforms granted)).bind fun views => ?_
  refine (describe_only clone views (fun _ => Call.conforms_of_none rfl)
    fun _ => Call.conforms_of_none rfl).bind fun node => ?_
  refine (only_lift (Hypervisor.only_send (Call.conforms_of_none rfl))).bind fun task => ?_
  exact (only_lift succeed_conforms).bind fun _ => only_pure node

/-- A launch that succeeds has provisioned a machine, and changes no configuration besides. -/
theorem launch_provisions : (c.launch settings).Ensures fun trace r => ∀ node, r = .ok node →
    ∃ t machine before provisioned after stack, trace = before ++ (provisioned ++ after) ∧
      ((provision settings c t machine).run {}).Yields provisioned (.ok node, stack) ∧
      ∀ e ∈ before ++ after, e.call.change? = none := by
  unfold launch
  refine (Job.ensures_bind _ _ _).2 ((Job.ensures_lift _ _).2
    ((Plan.ensures_perform (.memory _) _).2 fun inventory => ?_))
  dsimp only
  split
  · exact (Job.ensures_fail _ _).2 fun _ => nofun
  next t _ =>
  refine (Job.ensures_bind _ _ _).2 ((Plan.ensures_perform (.connect _) _).2 fun r => ?_)
  rcases r with e | _
  · exact fun _ => nofun
  have hallocate : (MachineIds.allocate c.region settings.machineIdFloor).Only
      fun call => call.change? = none :=
    MachineIds.allocateFrom_only (fun _ => rfl) (fun _ => rfl) _ _
  refine Job.Ensures.bind hallocate (fun allocated machine hallocated => ?_) fun _ _ _ _ => nofun
  refine (Job.ensures_bind _ _ _).2 ((Job.ensures_lift _ _).2 fun provisioned out hrun => ?_)
  obtain ⟨result, stack⟩ := out
  intro after r hafter node hnode
  have hresult := conclude_returns settings c machine result stack after r hafter
  obtain rfl : result = .ok node := hresult node hnode
  have hrefresh : (conclude settings c machine (.ok node) stack).Only
      fun call => call.change? = none := by
    refine Job.Only.bind (Job.only_lift (Job.Only.tolerate ?_)) fun _ => Job.only_pure node
    exact Capacity.only_send rfl
  refine ⟨t, machine, [⟨.memory .inventory, inventory⟩, ⟨.connect c.region, .ok ()⟩] ++ allocated,
    provisioned, after, stack, by simp, hrun, ?_⟩
  simp only [List.forall_mem_append]
  exact ⟨⟨by simp [Call.change?], hallocated⟩, hrefresh _ _ hafter⟩

theorem launch_tags : (c.launch settings).Ensures fun trace r => ∀ node, r = .ok node →
    (∀ e ∈ trace, e.ReadsAs clone) → ∃ t machine token,
      node = c.claim.launched (c.facts t machine clone token) ∧
      ∀ o, (trace.optionsAfter c.region machine o).get? "tags" = some
        (Setting.writeTags (Shape.tags settings.clusterName clone.tags c.cls.spec.tags)) := by
  intro trace r hlaunch node hnode hreads
  obtain ⟨t, machine, before, provisioned, after, stack, rfl, hrun, hothers⟩ :=
    launch_provisions trace r hlaunch node hnode
  simp only [List.forall_mem_append] at hreads hothers
  obtain ⟨granted, clone', token, hlaunched⟩ :=
    provision_launches settings c t machine {} provisioned _ hrun node rfl
  obtain rfl : clone' = clone := hreads.2.1 _ hlaunched.read
  have hconforms := provision_conforms {} provisioned _ hrun hreads.2.1
  refine ⟨t, machine, token, hlaunched.node, fun o => ?_⟩
  refine Trace.get?_optionsAfter_of_mem ?_
    (List.mem_append_right before (List.mem_append_left after hlaunched.shaped)) (if_pos ⟨rfl, rfl⟩)
    (Shape.options_get? Shape.tags_written) o
  simp only [List.forall_mem_append]
  exact ⟨fun e he => Call.conforms_of_none (hothers.1 e he), hconforms,
    fun e he => Call.conforms_of_none (hothers.2 e he)⟩

end Candidate

/-- What a shape writes is read back as the cluster's name and behind it, each once and in the order
in which they are asked for first, all other tags but that of templates. These are the tags that a
launched node has at the end. -/
theorem Shape.tags_read {clusterName : String} {clsTags : List String} {clone : Machine}
    (hcluster : Setting.Tag clusterName) (hne : clusterName ≠ Blueprint.templateTag)
    (hclone : ∀ t ∈ clone.tags, Setting.Tag t) (hcls : ∀ t ∈ clsTags, Setting.Tag t) :
    (∀ (granted : Reservation) (p : Provenance), ∃ m,
      Machine.ofOptions (options clusterName clsTags clone granted p).set = .ok m ∧
        Tagged clusterName (clone.tags ++ clsTags) m.tags) ∧
    ∀ (settings : Settings) (c : Candidate) (trace : Trace) (node : NodeClaim),
      settings.clusterName = clusterName → c.cls.spec.tags = clsTags →
      (c.launch settings).run.Yields trace (.ok node) → (∀ e ∈ trace, e.ReadsAs clone) →
        ∃ t machine token, node = c.claim.launched (c.facts t machine clone token) ∧
          ∀ o, ∃ text, (trace.optionsAfter c.region machine o).get? "tags" = some text ∧
            Tagged clusterName (clone.tags ++ clsTags) (Setting.readTags text) := by
  have hread := readTags_tags hcluster hclone hcls
  have htagged := tagged_tags hne clone.tags clsTags
  constructor
  · intro granted p
    have hreadable : Options.Readable (options clusterName clsTags clone granted p).set :=
      options_readable
    obtain ⟨m, hm⟩ := Machine.readable_iff.1 hreadable
    refine ⟨m, hm, ?_⟩
    rwa [Machine.decides_tags.part_of_get? hm (options_get? tags_written), hread]
  · rintro settings c trace node rfl rfl hrun hreads
    obtain ⟨t, machine, token, hnode, htags⟩ := Candidate.launch_tags trace _ hrun node rfl hreads
    refine ⟨t, machine, token, hnode, fun o => ⟨_, htags o, ?_⟩⟩
    rwa [hread]

def Candidate.tagged : Candidate where
  claim := { name := some "a", spec := { nodeClass := { name := "default" } } }
  cls := { name := some "default", spec := {
    template := "noble", bootDevice := { size := 30 }, tags := ["gpu", "kubernetes", "debian"] } }
  shape := { name := "m.large", capacity := {} }
  region := "r1"
  zone := "z1"

def taggedTemplate : Machine where
  tags := ["debian", "kpve-template", "gpu"]
  disks := .ofList [("scsi0", { volume := "local:1" })]

def readingTagged : (c : Call) → c.Reply
  | .hypervisor _ (.readMachine _ _) => .ok taggedTemplate
  | c => c.grant

theorem Shape.tags_read_overlapping :
    ∃ trace node machine text, (Candidate.tagged.launch {}).run.Yields trace (.ok node) ∧
      (trace.optionsAfter "r1" machine ∅).get? "tags" = some text ∧
      Setting.readTags text = ["kubernetes", "debian", "gpu"] := by
  obtain ⟨trace, node, hrun, -, hreplies⟩ := Job.yields_of_replies readingTagged
    (Candidate.tagged.launch {}) (fun _ _ => true) (by decide +kernel)
  have hreads : ∀ e ∈ trace, e.ReadsAs taggedTemplate := by
    intro e he
    have hreply := hreplies e he
    unfold Event.ReadsAs
    split
    · exact Except.ok.inj hreply
    · trivial
  obtain ⟨-, hlaunch⟩ := @tags_read "kubernetes" ["gpu", "kubernetes", "debian"] taggedTemplate
    (by decide) (by decide) (by decide) (by decide)
  obtain ⟨t, machine, token, -, htags⟩ :=
    hlaunch {} Candidate.tagged trace node rfl rfl hrun hreads
  obtain ⟨text, htext, htagged⟩ := htags ∅
  exact ⟨trace, node, machine, text, hrun, htext, by rw [htagged.eq]; decide⟩

end NodeProvisioner
