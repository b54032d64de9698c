import NodeProvisioner.Proofs.Template.Installing
import NodeProvisioner.Proofs.World.Waiting

/-! Removing a template class entry by entry. Every recorded entry is tried, whatever came of those
before it. An entry is forgotten only after its machine and its images have been seen to be gone,
and what stays recorded is what the next try needs. -/
namespace NodeProvisioner

/-! ### Seeing that something is gone -/

/-- The machine was not found, or it was found and deleted, which was waited for. -/
inductive MachineGone (region : String) (machine : MachineId) : Trace → Prop where
  | missing : MachineGone region machine [⟨.hypervisor region (.findMachine machine), .ok none⟩]
  | deleted {seen : Location} {task : TaskId} {wait : Trace}
      (hwait : Task.Awaited region seen.zone task wait) : MachineGone region machine
        (⟨.hypervisor region (.findMachine machine), .ok (some seen)⟩ ::
          ⟨.hypervisor region (.delete seen.zone machine), .ok task⟩ :: wait)

/-- The image was not listed, or it was deleted, which was waited for. -/
inductive ImageGone (region zone storage file : String) : Trace → Prop where
  | unlisted {present : List String} (h : storage ++ ":import/" ++ file ∉ present) :
      ImageGone region zone storage file
        [⟨.hypervisor region (.listContent zone storage "import"), .ok present⟩]
  | deleted {present : List String} {task : TaskId} {wait : Trace}
      (hwait : Task.Awaited region zone task wait) : ImageGone region zone storage file
        (⟨.hypervisor region (.listContent zone storage "import"), .ok present⟩ ::
          ⟨.hypervisor region (.deleteVolume zone (storage ++ ":import/" ++ file)), .ok task⟩ ::
            wait)

inductive StoragesAsked (region : String) : List String → Trace → List Storage → Prop where
  | nil : StoragesAsked region [] [] []
  | cons {id : String} {ids : List String} {rest : Trace} {storages : List Storage}
      (found : Option Storage) (hrest : StoragesAsked region ids rest storages) :
      StoragesAsked region (id :: ids) (⟨.ask (.storage region id), found⟩ :: rest)
        (found.toList ++ storages)

/-- The machine of an entry is gone, and so is an image file from all storages that can hold images
for its zone. -/
structure EntryGone (t : TemplateClass) (file : String) (i : Installation) (trace : Trace) :
    Prop where
  machine : ∃ part, part <:+: trace ∧ MachineGone i.region i.machine part
  images : ∃ asked storages, asked <:+: trace ∧
    StoragesAsked i.region t.spec.storageIds asked storages ∧
    ∀ storage ∈ importStoragesInZone i.zone storages, ∃ part, part <:+: trace ∧
      ImageGone i.region i.zone storage file part

theorem EntryGone.mono {t : TemplateClass} {file : String} {i : Installation}
    {trace trace' : Trace} (h : EntryGone t file i trace) (hpart : trace <:+: trace') :
    EntryGone t file i trace' where
  machine := by
    obtain ⟨part, hinfix, hgone⟩ := h.machine
    exact ⟨part, hinfix.trans hpart, hgone⟩
  images := by
    obtain ⟨asked, storages, hinfix, hasked, himages⟩ := h.images
    refine ⟨asked, storages, hinfix.trans hpart, hasked, fun storage hstorage => ?_⟩
    obtain ⟨part, hinfix, hgone⟩ := himages storage hstorage
    exact ⟨part, hinfix.trans hpart, hgone⟩

namespace TemplateClass
variable {settings : Settings} {t : TemplateClass} {i : Installation}

theorem storagesOf_asked (region : String) (ids : List String) :
    (storagesOf region ids).Ensures (StoragesAsked region ids) := by
  induction ids with
  | nil => exact (Plan.ensures_pure _ _).2 .nil
  | cons id ids ih =>
    refine (Plan.ensures_bind _ _ _).2
      ((Plan.ensures_perform (.ask (.storage region id)) _).2 fun found => ?_)
    refine (Plan.ensures_bind _ _ _).2 (ih.mono fun rest storages hrest => ?_)
    exact (Plan.ensures_pure _ _).2 (by simpa using hrest.cons found)

theorem removeMachine_gone : (removeMachine settings i).Ensures fun trace r =>
    r = .ok () → MachineGone i.region i.machine trace := by
  refine (Job.ensures_bind _ _ _).2 ((Hypervisor.ensures_send _ _ _).2 fun reply => ?_)
  rcases reply with e | _ | seen
  · exact nofun
  · exact (Job.ensures_pure _ _).2 fun _ => .missing
  · refine (Job.ensures_bind _ _ _).2 ((Hypervisor.ensures_send _ _ _).2 fun reply => ?_)
    cases reply with
    | error e => exact nofun
    | ok task => exact Task.succeed_awaited.mono fun wait r hwait hr => .deleted (hwait hr)

theorem removeImages_gone {file region zone : String} (storages : List String) :
    (removeImages settings file region zone storages).Ensures fun trace r => r = .ok () →
      ∀ storage ∈ storages, ∃ part, part <:+: trace ∧ ImageGone region zone storage file part := by
  induction storages with
  | nil => exact (Job.ensures_pure _ _).2 fun _ => List.forall_mem_nil _
  | cons storage storages ih =>
    have hall {here rest : Trace} (hgone : ImageGone region zone storage file here)
        (hrest : ∀ s ∈ storages, ∃ part, part <:+: rest ∧ ImageGone region zone s file part) :
        ∀ s ∈ storage :: storages, ∃ part, part <:+: here ++ rest ∧
          ImageGone region zone s file part := by
      refine List.forall_mem_cons.2 ⟨⟨here, (List.prefix_append here rest).isInfix, hgone⟩, ?_⟩
      intro s hs
      obtain ⟨part, hpart, hlater⟩ := hrest s hs
      exact ⟨part, hpart.trans (List.suffix_append here rest).isInfix, hlater⟩
    refine (Job.ensures_bind _ _ _).2 ((Hypervisor.ensures_send _ _ _).2 fun reply => ?_)
    cases reply with
    | error e => exact nofun
    | ok present =>
      dsimp only
      split
      · refine (Job.ensures_bind _ _ _).2 ((Hypervisor.ensures_send _ _ _).2 fun reply => ?_)
        cases reply with
        | error e => exact nofun
        | ok task =>
          refine Task.succeed_awaited.bind (fun wait _ hwait => ?_) fun _ _ _ => nofun
          refine ih.mono fun rest r hrest hr => ?_
          have hdeleted := @ImageGone.deleted _ _ storage file present task wait (hwait rfl)
          rw [← Image.volume_eq] at hdeleted
          have hgone := hall hdeleted (hrest hr)
          exact hgone
      · next habsent =>
        have hunlisted : storage ++ ":import/" ++ file ∉ present := by
          simpa [Image.volume_eq] using habsent
        exact ih.mono fun rest r hrest hr => hall (.unlisted hunlisted) (hrest hr)

theorem removeEntry_gone : (t.removeEntry settings i).Ensures fun trace r =>
    r = .ok () → EntryGone t t.removedImage i trace := by
  refine Job.Ensures.after (fun connected _ => withZone_ensures ?_) fun _ _ => nofun
  refine removeMachine_gone.bind (fun machine _ hmachine => ?_) fun _ _ _ => nofun
  refine (Job.ensures_bind _ _ _).2 ((Job.ensures_lift _ _).2
    ((storagesOf_asked _ _).mono fun asked storages hasked => ?_))
  refine (removeImages_gone _).mono fun images r himages hr => ?_
  have hinside : EntryGone t t.removedImage i (machine ++ (asked ++ images)) := by
    have hasked' : asked <:+: machine ++ (asked ++ images) := ⟨machine, images, by simp⟩
    refine ⟨⟨machine, (List.prefix_append _ _).isInfix, hmachine rfl⟩,
      asked, storages, hasked', hasked, fun storage hs => ?_⟩
    obtain ⟨part, hpart, hgone⟩ := himages hr storage hs
    refine ⟨part, hpart.trans ?_, hgone⟩
    exact ((List.suffix_append _ _).trans (List.suffix_append _ _)).isInfix
  refine hinside.mono ?_
  exact (List.prefix_append _ _).isInfix.trans
    ((List.suffix_cons _ _).trans (List.suffix_append _ _)).isInfix

end TemplateClass

/-! ### The tour of the entries -/

/-- What was done for recorded entries in turn. An entry that cannot be read has failed; of all
others `tried` says what was done for them and what came of it. -/
inductive EntriesTried (tried : Installation → Trace → Except Fault Unit → Prop) :
    List String → Trace → List EntryOutcome → Prop where
  | nil : EntriesTried tried [] [] []
  | unreadable {entry : String} {entries : List String} {rest : Trace} {os : List EntryOutcome}
      {u : Unreadable} (h : Installation.parse entry = .error u)
      (hrest : EntriesTried tried entries rest os) :
      EntriesTried tried (entry :: entries) rest
        ({ entry, installation := none, result := .error u.fault } :: os)
  | tried {entry : String} {entries : List String} {here rest : Trace} {os : List EntryOutcome}
      {i : Installation} {result : Except Fault Unit} (h : Installation.parse entry = .ok i)
      (hhere : tried i here result) (hrest : EntriesTried tried entries rest os) :
      EntriesTried tried (entry :: entries) (here ++ rest)
        ({ entry, installation := some i, result } :: os)

namespace EntryOutcome

theorem forEach_tried {job : Installation → Job Unit}
    {tried : Installation → Trace → Except Fault Unit → Prop} (h : ∀ i, (job i).Ensures (tried i))
    (entries : List String) : (forEach job entries).Ensures (EntriesTried tried entries) := by
  induction entries with
  | nil => exact (Plan.ensures_pure _ _).2 .nil
  | cons entry entries ih =>
    refine (Plan.ensures_bind _ _ _).2 ?_
    unfold of
    split
    · next i hparse =>
      refine (Plan.ensures_bind _ _ _).2 (Plan.Ensures.mono (h i) fun here result hhere => ?_)
      refine (Plan.ensures_pure _ _).2 ((Plan.ensures_bind _ _ _).2 (ih.mono ?_))
      intro rest os hrest
      exact (Plan.ensures_pure _ _).2 (by simpa using hrest.tried hparse hhere)
    · next u hparse =>
      refine (Plan.ensures_pure _ _).2 ((Plan.ensures_bind _ _ _).2 (ih.mono ?_))
      intro rest os hrest
      exact (Plan.ensures_pure _ _).2 (by simpa using hrest.unreadable hparse)

end EntryOutcome

def EntryOutcome.failed (os : List EntryOutcome) : List String :=
  (os.filter (!·.result.isOk)).map (·.entry)

theorem EntryOutcome.remaining_eq (os : List EntryOutcome) : remaining os = failed os := by
  refine congrArg (List.map _) (List.filter_congr fun o _ => ?_)
  cases o.result <;> rfl

namespace TemplateClass
variable {settings : Settings} {t : TemplateClass} {file : String}

/-- What is recorded after a removal: the entries that failed, with the image file that was being
removed. -/
def statusLeft (file : String) (os : List EntryOutcome) : Status where
  imageId := if EntryOutcome.failed os = [] then none else some file
  zones := EntryOutcome.failed os

structure EntryTried (settings : Settings) (t : TemplateClass) (file : String) (i : Installation)
    (here : Trace) (result : Except Fault Unit) : Prop where
  run : (t.removeEntry settings i).run.Yields here result
  gone : result = .ok () → EntryGone t file i here

/-- A removal that tries every recorded entry, with what it stores and answers after that. -/
structure Forgotten (settings : Settings) (t : TemplateClass) (file : String) (trace : Trace)
    (r : Except Fault Unit) (os : List EntryOutcome) : Prop where
  /-- The image file is the recorded one, if there is one, and else the one of the class. -/
  image : file = (t.status.bind (·.imageId)).getD (Image.fileName t.displayName t.spec.image)
  /-- All entries are tried before anything is stored. -/
  tried : ∃ toured answer renewed,
    trace = toured ++ ⟨.writeStatus t.displayName (statusLeft file os), answer⟩ :: renewed ∧
      EntriesTried (EntryTried settings t file) (t.status.elim [] (·.zones)) toured os
  written : trace.calls.filter Call.writesStatus = [.writeStatus t.displayName (statusLeft file os)]
  ok_iff : r = .ok () ↔ EntryOutcome.failed os = [] ∧
    ⟨.writeStatus t.displayName (statusLeft file os), .ok ()⟩ ∈ trace

theorem removedImage_eq (t : TemplateClass) : t.removedImage =
    (t.status.bind (·.imageId)).getD (Image.fileName t.displayName t.spec.image) := by
  unfold removedImage currentStatus
  cases t.status <;> rfl

theorem forgotten_of_parts {toured renewed : Trace} {answer : Except Fault Unit}
    {r : Except Fault Unit} {os : List EntryOutcome}
    (htried : EntriesTried (EntryTried settings t t.removedImage) t.currentStatus.zones toured os)
    (htoured : ∀ e ∈ toured, e.call.Unwritten) (hrenewed : ∀ e ∈ renewed, e.call.Unwritten)
    (hr : r = .ok () ↔ EntryOutcome.failed os = [] ∧ answer = .ok ()) :
    Forgotten settings t t.removedImage (toured ++
      ⟨.writeStatus t.displayName (statusLeft t.removedImage os), answer⟩ :: renewed) r os where
  image := t.removedImage_eq
  tried := by
    refine ⟨toured, answer, renewed, rfl, ?_⟩
    have hzones : t.status.elim [] (·.zones) = t.currentStatus.zones := by
      unfold currentStatus
      cases t.status <;> rfl
    rwa [hzones]
  written := by
    have htoured' := filter_writesStatus_eq_nil htoured
    have hrenewed' := filter_writesStatus_eq_nil hrenewed
    simp only [Trace.calls, List.map_append, List.map_cons, List.filter_append] at *
    rw [htoured', List.nil_append, List.filter_cons_of_pos rfl, hrenewed']
  ok_iff := by
    generalize statusLeft t.removedImage os = status
    have habsent {trace : Trace} (h : ∀ e ∈ trace, e.call.Unwritten) :
        (⟨.writeStatus t.displayName status, .ok ()⟩ : Event) ∉ trace :=
      fun hmem => by simpa [Call.writesStatus] using (h _ hmem).notWriting
    have hanswer : (⟨.writeStatus t.displayName status, .ok ()⟩ : Event) =
        ⟨.writeStatus t.displayName status, answer⟩ ↔ answer = .ok () := by
      simp [eq_comm]
    simp only [List.mem_append, List.mem_cons, habsent htoured, habsent hrenewed, hanswer,
      false_or, or_false]
    exact hr

theorem delete_forgotten : (t.delete settings).Ensures fun trace r =>
    ∃ os, Forgotten settings t t.removedImage trace r os := by
  have hentry (i : Installation) : (t.removeEntry settings i).Ensures
      (EntryTried settings t t.removedImage i) :=
    fun here result hrun => ⟨hrun, removeEntry_gone here result hrun⟩
  have hrenew := renew_only Sync.region_unwritten
  unfold delete
  refine (Job.ensures_bind _ _ _).2 ((Job.ensures_lift _ _).2 (Plan.Ensures.mono
    (Plan.Ensures.and (EntryOutcome.forEach_tried hentry _)
      (EntryOutcome.forEach_only (removeEntry_unwritten settings t) _)) ?_))
  rintro toured os ⟨htried, htoured⟩
  have hstatus : ({
      imageId := if (EntryOutcome.remaining os).isEmpty then none else some t.removedImage
      zones := EntryOutcome.remaining os } : Status) = statusLeft t.removedImage os := by
    simp only [EntryOutcome.remaining_eq, statusLeft, List.isEmpty_iff]
  dsimp only
  rw [hstatus]
  refine (Job.ensures_bind _ _ _).2
    ((Plan.ensures_perform (.writeStatus _ _) _).2 fun answer => ?_)
  cases answer with
  | error e => exact ⟨os, forgotten_of_parts htried htoured (List.forall_mem_nil _) (by simp)⟩
  | ok _ =>
    refine (Job.ensures_bind _ _ _).2 ((Job.ensures_lift _ _).2
      (Plan.Ensures.mono (hrenew _) fun renewed _ hrenewed => ?_))
    refine (Job.ensures_ofExcept _ _).2 ⟨os, ?_⟩
    have hjoined : Fault.joined t.context (EntryOutcome.faults os) = .ok () ↔
        EntryOutcome.failed os = [] := by
      rw [Fault.joined_eq_ok, EntryOutcome.faults_eq_nil, ← EntryOutcome.remaining_eq,
        EntryOutcome.remaining_eq_nil]
    rw [List.append_nil]
    exact forgotten_of_parts htried htoured hrenewed (by simpa using hjoined)

/-- A removal tries every recorded entry and stores once what is left: the entries that failed, and
with them the image file, so that the next try removes the same one. Only what is seen to be gone is
forgotten, and the removal succeeds if nothing is left and that is stored. -/
theorem delete_forgets {trace : Trace} {r : Except Fault Unit}
    (h : (t.delete settings).run.Yields trace r) : ∃ file os, Forgotten settings t file trace r os ∧
      (EntryOutcome.failed os ≠ [] → ∀ again : TemplateClass,
        again.status = some (statusLeft file os) → ∀ trace' r',
          (again.delete settings).run.Yields trace' r' →
            ∃ os', Forgotten settings again file trace' r' os') := by
  obtain ⟨os, hos⟩ := delete_forgotten trace r h
  refine ⟨t.removedImage, os, hos, fun hfailed again hagain trace' r' h' => ?_⟩
  have hsame : again.removedImage = t.removedImage := by
    rw [removedImage_eq, hagain]
    simp [statusLeft, hfailed]
  exact hsame ▸ delete_forgotten trace' r' h'

def nobleBefore : TemplateClass where
  name := noble.name
  spec := noble.spec
  status := some
    { imageId := some "noble-3e6bf5364e.raw", zones := ["r1/z1/9000", "r1/z2/9001", "r1/z2"] }

/-- The earlier image is there, and the zone that cannot be reached keeps its entry. -/
def imageInOneZone : (c : Call) → c.Reply
  | .hypervisor _ (.listContent "z2" _ _) => .ok ["local:import/noble-3e6bf5364e.raw"]
  | c => oneZoneDown c

theorem delete_forgets_oneZoneDown : ∃ trace e,
    (nobleBefore.delete {}).run.Yields trace (.error e) ∧
    trace.statusWrites = [("noble",
      { imageId := some "noble-3e6bf5364e.raw", zones := ["r1/z1/9000", "r1/z2"] })] ∧
    trace.calls.filterMap Call.deletedVolume? = ["local:import/noble-3e6bf5364e.raw"] ∧
    ∃ file os, Forgotten {} nobleBefore file trace (.error e) os ∧
      (EntryOutcome.failed os ≠ [] → ∀ again : TemplateClass,
        again.status = some (statusLeft file os) → ∀ trace' r',
          (again.delete {}).run.Yields trace' r' →
            ∃ os', Forgotten {} again file trace' r' os') := by
  obtain ⟨trace, e, hrun, hgood⟩ := Job.fails_of_play (fun _ => imageInOneZone)
    (nobleBefore.delete {})
    (fun trace _ => trace.statusWrites == [("noble",
        { imageId := some "noble-3e6bf5364e.raw", zones := ["r1/z1/9000", "r1/z2"] })] &&
      trace.calls.filterMap Call.deletedVolume? == ["local:import/noble-3e6bf5364e.raw"])
    (by decide +kernel)
  rw [Bool.and_eq_true, beq_iff_eq, beq_iff_eq] at hgood
  exact ⟨trace, e, hrun, hgood.1, hgood.2, delete_forgets hrun⟩

end TemplateClass
end NodeProvisioner
