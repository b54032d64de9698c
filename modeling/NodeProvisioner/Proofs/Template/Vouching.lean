import NodeProvisioner.Proofs.Template.InPlace

/-! What stands behind each template machine that is created: in the same visit to its zone, the
image that it is made from was listed, or was downloaded with the checksum of the class to a good
end. A download that ends badly leaves the zone without a machine. -/
namespace NodeProvisioner

def Call.downloads : Call → Bool
  | .hypervisor _ (.download _ _ _) => true
  | _ => false

def Call.creates : Call → Bool
  | .hypervisor _ (.create _ _ _) => true
  | _ => false

abbrev Event.listing (region zone storage : String) (reply : Except Fault (List String)) : Event :=
  ⟨.hypervisor region (.listContent zone storage "import"), reply⟩

abbrev Event.download (region zone storage : String) (request : DownloadRequest)
    (reply : Except Fault TaskId) : Event :=
  ⟨.hypervisor region (.download zone storage request), reply⟩

abbrev Event.create (region zone : String) (machine : MachineId) (options : Change)
    (reply : Except Fault TaskId) : Event :=
  ⟨.hypervisor region (.create zone machine options), reply⟩

namespace Trace
variable {kind : Call → Bool} {front back before after : Trace} {e : Event}

theorem split_behind (hfront : ∀ e ∈ front, kind e.call = false) (he : kind e.call = true)
    (h : front ++ back = before ++ e :: after) :
    ∃ between, before = front ++ between ∧ back = between ++ e :: after := by
  rcases List.append_eq_append_iff.1 h with ⟨between, hbefore, hback⟩ | ⟨between, rfl, hafter⟩
  · exact ⟨between, hbefore, hback⟩
  · cases between with
    | nil => exact ⟨[], by simp, hafter.symm⟩
    | cons e' between =>
      cases hafter
      have hearly := hfront e (List.mem_append_right before List.mem_cons_self)
      rw [he] at hearly
      cases hearly

theorem split_sole {e' : Event} (hfront : ∀ e ∈ front, kind e.call = false)
    (hback : ∀ e ∈ back, kind e.call = false) (he : kind e.call = true)
    (h : front ++ e' :: back = before ++ e :: after) : e' = e ∧ back = after := by
  obtain ⟨between, -, hsplit⟩ := split_behind hfront he h
  cases between with
  | nil =>
    cases hsplit
    exact ⟨rfl, rfl⟩
  | cons e'' between =>
    cases hsplit
    have hlate := hback e (List.mem_append_right between List.mem_cons_self)
    rw [he] at hlate
    cases hlate

end Trace

/-- The machine boots from a disk that is imported from the volume. -/
structure Change.ImportsFrom (c : Change) (volume : String) : Prop where
  boots : c.set.get? "boot" = some "order=scsi0"
  imports : ∃ disk : Disk, c.set.get? "scsi0" = some disk.render ∧
    disk.options.get? "import-from" = some volume

theorem Blueprint.options_importsFrom (cls : String) (spec : TemplateClass.Spec)
    (roles : StorageRoles) (file : String) :
    (options cls spec roles file).ImportsFrom (roles.imports.id ++ ":import/" ++ file) where
  boots := get?_options_of_fixed (by simp [fixedOptions, bootSlot]) spec
  imports := by
    refine ⟨bootDisk roles file, get?_options_of_fixed (by simp [fixedOptions, bootSlot]) spec, ?_⟩
    simp [bootDisk, Image.volume_eq, KeyMap.ofList, KeyMap.get?_insert]

namespace Installing

/-! ### Exit texts -/

/-- The text speaks of a checksum, in any case of letters. -/
def SpeaksOfChecksum (exit : String) : Prop :=
  ∃ part, part <:+: exit.toList ∧ part.map Char.toLower = "checksum".toList

theorem mentionsChecksum_iff {exit : String} :
    mentionsChecksum exit = true ↔ SpeaksOfChecksum exit := by
  have hlower : (Image.lower exit).toList = exit.toList.map Char.toLower := String.toList_ofList
  unfold mentionsChecksum SpeaksOfChecksum
  rw [Text.includes_iff, hlower, List.infix_map_iff]
  simp only [eq_comm]

/-- How a zone fails whose download ended with the exit text. -/
structure Unverified (t : TemplateClass) (exit : String) (e : Fault) : Prop where
  validation : (∃ message, e = .validation t.displayName message (some "spec.image.checksum")) ↔
    SpeaksOfChecksum exit
  infrastructure : (∃ context message retryable, e = .infrastructure context message retryable) ↔
    ¬ SpeaksOfChecksum exit

theorem unverified_downloadFailure (t : TemplateClass) (volume exit : String) :
    Unverified t exit (downloadFailure t volume exit) := by
  unfold downloadFailure
  by_cases h : mentionsChecksum exit = true
  · rw [if_pos h]
    refine ⟨⟨fun _ => mentionsChecksum_iff.1 h, fun _ => ⟨_, rfl⟩⟩, ⟨fun he => ?_, fun hnot => ?_⟩⟩
    · obtain ⟨_, _, _, he⟩ := he
      cases he
    · exact absurd (mentionsChecksum_iff.1 h) hnot
  · rw [if_neg h]
    rw [mentionsChecksum_iff] at h
    refine ⟨⟨fun he => ?_, fun hspeaks => absurd hspeaks h⟩, ⟨fun _ => h, fun _ => ⟨_, _, _, rfl⟩⟩⟩
    obtain ⟨_, he⟩ := he
    cases he

/-! ### The image of a zone -/

structure Requests (t : TemplateClass) (request : DownloadRequest) : Prop where
  url : request.url = t.spec.image.url
  content : request.content = "import"
  fileName : request.fileName = t.imageFile
  checksum : request.checksum = t.spec.image.checksum
  /-- An algorithm is named only together with a checksum. -/
  algorithm : request.checksumAlgorithm =
    if t.spec.image.checksum.isSome then some t.spec.image.checksumAlgorithm.word else none

theorem requests_downloadRequest (t : TemplateClass) : Requests t (downloadRequest t) where
  url := rfl
  content := rfl
  fileName := rfl
  checksum := rfl
  algorithm := by
    unfold downloadRequest
    cases t.spec.image.checksum <;> rfl

/-- By then the class's image is on the storage: it was listed, or its download was waited for and
has succeeded. -/
inductive ImageReady (t : TemplateClass) (region zone storage : String) (before : Trace) :
    Prop where
  | listed {present : List String} (h : .listing region zone storage (.ok present) ∈ before)
      (hmem : storage ++ ":import/" ++ t.imageFile ∈ present)
  | downloaded {request : DownloadRequest} {task : TaskId} {wait : Trace}
      (hrequest : Requests t request)
      (h : .download region zone storage request (.ok task) :: wait <:+: before)
      (hwait : Task.Awaited region zone task wait)

theorem ImageReady.mono {t : TemplateClass} {region zone storage : String} {before before' : Trace}
    (h : ImageReady t region zone storage before) (hpart : before <:+: before') :
    ImageReady t region zone storage before' := by
  cases h with
  | listed h hmem => exact .listed (hpart.mem h) hmem
  | downloaded hrequest h hwait => exact .downloaded hrequest (h.trans hpart) hwait

def downloadResult (t : TemplateClass) (storage : String) :
    Except Fault TaskStatus → Except Fault Unit
  | .ok status =>
    if status.isSuccess then .ok ()
    else .error (downloadFailure t (Image.volume storage t.imageFile) (status.exit.getD ""))
  | .error e => .error e

inductive ImageSeen (settings : Settings) (t : TemplateClass) (region zone storage : String) :
    Trace → Except Fault Unit → Prop where
  | unlisted (e : Fault) : ImageSeen settings t region zone storage
      [.listing region zone storage (.error e)] (.error e)
  | listed {present : List String} (h : storage ++ ":import/" ++ t.imageFile ∈ present) :
      ImageSeen settings t region zone storage
        [.listing region zone storage (.ok present)] (.ok ())
  | refused (present : List String) (e : Fault) : ImageSeen settings t region zone storage
      [.listing region zone storage (.ok present),
        .download region zone storage (downloadRequest t) (.error e)] (.error e)
  | awaited (present : List String) {task : TaskId} {wait : Trace} {r : Except Fault TaskStatus}
      (h : (Task.finish settings.taskPatience true region zone task).run.Yields wait r) :
      ImageSeen settings t region zone storage
        (.listing region zone storage (.ok present) ::
          .download region zone storage (downloadRequest t) (.ok task) :: wait)
        (downloadResult t storage r)

section zone
variable {settings : Settings} {t : TemplateClass} {region zone storage : String}
  {roles : StorageRoles}

theorem ensureImage_seen : (ensureImage settings t region zone roles).Ensures
    (ImageSeen settings t region zone roles.imports.id) := by
  refine (Job.ensures_bind _ _ _).2 ((Hypervisor.ensures_send _ _ _).2 fun reply => ?_)
  cases reply with
  | error e => exact .unlisted e
  | ok present =>
    dsimp only
    split
    · next hpresent =>
      exact (Job.ensures_pure _ _).2 (.listed (by simpa [Image.volume_eq] using hpresent))
    refine (Job.ensures_bind _ _ _).2 ((Hypervisor.ensures_send _ _ _).2 fun reply => ?_)
    cases reply with
    | error e => exact .refused present e
    | ok task =>
      refine (Job.ensures_bind _ _ _).2 fun wait r hwait => ?_
      have hseen : ImageSeen settings t region zone roles.imports.id _
          (downloadResult t roles.imports.id r) := .awaited present hwait
      cases r with
      | error e => exact hseen
      | ok status =>
        unfold downloadResult at hseen
        dsimp only at hseen ⊢
        by_cases hsuccess : status.isSuccess = true
        · rw [if_pos hsuccess] at hseen ⊢
          refine (Job.ensures_pure _ _).2 ?_
          rwa [List.append_nil]
        · rw [if_neg hsuccess] at hseen ⊢
          refine (Job.ensures_fail _ _).2 ?_
          rwa [List.append_nil]

theorem ImageSeen.ready {trace : Trace}
    (h : ImageSeen settings t region zone storage trace (.ok ())) :
    ImageReady t region zone storage trace := by
  generalize hr : (.ok () : Except Fault Unit) = r at h
  cases h with
  | unlisted | refused => cases hr
  | listed h => exact .listed List.mem_cons_self h
  | @awaited _ _ _ r hwait =>
    cases r with
    | error e => cases hr
    | ok status =>
      unfold downloadResult at hr
      dsimp only at hr
      split at hr
      · next hsuccess =>
        exact .downloaded (requests_downloadRequest t) (List.suffix_cons _ _).isInfix
          (Task.awaited_of_isSuccess hwait hsuccess)
      · cases hr

theorem Waits.kind {task : TaskId} {c : Call} (h : c.Waits region zone task) :
    c.downloads = false ∧ c.creates = false := by
  rcases h with rfl | rfl | ⟨span, heeds, rfl⟩ <;> exact ⟨rfl, rfl⟩

theorem ImageSeen.uncreated {trace : Trace} {r : Except Fault Unit}
    (h : ImageSeen settings t region zone storage trace r) :
    ∀ e ∈ trace, e.call.creates = false := by
  cases h with
  | unlisted | listed | refused => simp [Call.creates]
  | @awaited _ _ wait _ hwait =>
    have hwaits : ∀ e ∈ wait, e.call.creates = false :=
      fun e he => (Waits.kind (Task.finish_waits _ _ hwait e he)).2
    exact List.forall_mem_cons.2 ⟨rfl, List.forall_mem_cons.2 ⟨rfl, hwaits⟩⟩

theorem ImageSeen.eq_failure {image front back before wait after : Trace} {r : Except Fault Unit}
    {storage' : String} {request : DownloadRequest} {task : TaskId} {status : TaskStatus}
    (h : ImageSeen settings t region zone storage image r)
    (hfront : ∀ e ∈ front, e.call.downloads = false)
    (hback : ∀ e ∈ back, e.call.downloads = false)
    (hsplit : front ++ (image ++ back) =
      before ++ .download region zone storage' request (.ok task) :: (wait ++ after))
    (hwait : (Task.finish settings.taskPatience true region zone task).run.Yields wait
      (.ok status)) : r = downloadResult t storage (.ok status) := by
  obtain ⟨between, -, hsplit⟩ := Trace.split_behind hfront rfl hsplit
  have hlisting (reply : Except Fault (List String)) :
      ∀ e ∈ [Event.listing region zone storage reply], e.call.downloads = false :=
    fun _ he => List.mem_singleton.1 he ▸ rfl
  have hunlisted {reply : Except Fault (List String)} (h : [Event.listing region zone storage reply]
      ++ back = between ++ .download region zone storage' request (.ok task) :: (wait ++ after)) :
      False := by
    obtain ⟨_, -, rfl⟩ := Trace.split_behind (hlisting reply) rfl h
    cases hback _ (List.mem_append_right _ List.mem_cons_self)
  cases h with
  | unlisted e => exact (hunlisted hsplit).elim
  | listed => exact (hunlisted hsplit).elim
  | refused present e =>
    obtain ⟨hevent, -⟩ := Trace.split_sole (hlisting (.ok present)) hback rfl hsplit
    cases hevent
  | @awaited present _ wait' r' hwait' =>
    have hrest : ∀ e ∈ wait' ++ back, e.call.downloads = false :=
      List.forall_mem_append.2
        ⟨fun e he => (Waits.kind (Task.finish_waits _ _ hwait' e he)).1, hback⟩
    obtain ⟨hevent, hafter⟩ := Trace.split_sole (hlisting (.ok present)) hrest rfl hsplit
    cases hevent
    obtain ⟨-, rfl, -⟩ := hwait'.prefix_free hwait hafter
    rfl

/-! ### One visit to a zone -/

/-- Downloads nothing, and creates machines only in the zone and from the class's image. -/
structure Builds (t : TemplateClass) (region zone : String) (roles : StorageRoles) (c : Call) :
    Prop where
  notDownloading : c.downloads = false
  creation : ∀ region' zone' machine options,
    c = .hypervisor region' (.create zone' machine options) → region' = region ∧ zone' = zone ∧
      options.ImportsFrom (roles.imports.id ++ ":import/" ++ t.imageFile)

theorem builds_of_aside {c : Call} (h : c.installs = false) : Builds t region zone roles c := by
  refine ⟨?_, ?_⟩
  · unfold Call.downloads
    split
    · cases h
    · rfl
  · rintro region' zone' machine options rfl
    cases h

theorem succeed_builds {task : TaskId} :
    (Task.succeed settings.taskPatience true region zone task).Only (Builds t region zone roles) :=
  Task.succeed_only (builds_of_aside rfl) (builds_of_aside rfl) fun _ => builds_of_aside rfl

theorem ensureMachine_builds :
    (ensureMachine settings t region zone roles).Only (Builds t region zone roles) := by
  have hcreation (machine : MachineId) : Builds t region zone roles (.hypervisor region
      (.create zone machine (Blueprint.options t.displayName t.spec roles t.imageFile))) := by
    refine ⟨rfl, ?_⟩
    rintro _ _ _ _ ⟨⟩
    exact ⟨rfl, rfl, Blueprint.options_importsFrom _ _ _ _⟩
  have hcleanUp (machine : MachineId) :
      (cleanUp settings region zone machine).Only (Builds t region zone roles) := by
    refine Plan.Only.bind (Hypervisor.only_send (builds_of_aside rfl)) fun reply => ?_
    cases reply with
    | ok task => exact succeed_builds.tolerate
    | error e => exact Plan.only_pure _
  have hcreate : (createMachine settings t region zone roles).Only
      (Builds t region zone roles) := by
    refine (MachineIds.allocateFrom_only (fun _ => builds_of_aside rfl)
      (fun _ => builds_of_aside rfl) _ _).bind fun machine =>
        (Hypervisor.only_send (hcreation machine)).bind fun task =>
          succeed_builds.attempt.bind fun reply => ?_
    cases reply with
    | ok _ => exact Job.only_pure _
    | error e => exact (Job.only_lift (hcleanUp machine)).bind fun _ => Job.only_fail _
  refine (Hypervisor.only_send (builds_of_aside rfl)).bind fun found => ?_
  cases found with
  | some machine => exact Job.only_pure _
  | none => exact hcreate

/-- The ways in which a visit to a zone can go: it needs the connection, then the image, and only
then is anything built. -/
inductive ZoneSeen (settings : Settings) (t : TemplateClass) (region zone : String)
    (roles : StorageRoles) : Trace → Except Fault MachineId → Prop where
  | unconnected (e : Fault) :
      ZoneSeen settings t region zone roles [⟨.connect region, .error e⟩] (.error e)
  | imageless {image : Trace} {e : Fault}
      (h : ImageSeen settings t region zone roles.imports.id image (.error e)) :
      ZoneSeen settings t region zone roles ([⟨.connect region, .ok ()⟩,
        ⟨.enterZone region zone, ()⟩] ++ (image ++ [⟨.leaveZone region zone, ()⟩])) (.error e)
  | built {image rest : Trace} (r : Except Fault MachineId)
      (h : ImageSeen settings t region zone roles.imports.id image (.ok ()))
      (hrest : ∀ e ∈ rest, Builds t region zone roles e.call) :
      ZoneSeen settings t region zone roles
        ([⟨.connect region, .ok ()⟩, ⟨.enterZone region zone, ()⟩] ++ (image ++ rest)) r

theorem inZone_seen : (inZone settings t region zone roles).Ensures
    (ZoneSeen settings t region zone roles) := by
  have hrenew : (Sync.region region).tolerate.Only (Builds t region zone roles) :=
    (Sync.region_only (fun _ _ => builds_of_aside rfl) (fun _ => builds_of_aside rfl)
      (builds_of_aside rfl) (builds_of_aside rfl) fun _ => builds_of_aside rfl).tolerate
  have hleave : ∀ e ∈ [(⟨.leaveZone region zone, ()⟩ : Event)],
      Builds t region zone roles e.call := List.forall_mem_singleton.2 (builds_of_aside rfl)
  refine (Job.ensures_bind _ _ _).2 ((Plan.ensures_perform (.connect region) _).2 fun reply => ?_)
  cases reply with
  | error e => exact .unconnected e
  | ok _ =>
    refine (Job.ensures_bind _ _ _).2 (withZone_ensures ?_)
    refine ensureImage_seen.bind (fun image _ himage => ?_) fun image e himage => ?_
    · refine Plan.Ensures.mono ensureMachine_builds fun machine r hmachine => ?_
      cases r with
      | error e =>
        simpa using ZoneSeen.built (.error e) himage (List.forall_mem_append.2 ⟨hmachine, hleave⟩)
      | ok found =>
        refine (Job.ensures_bind _ _ _).2 ((Job.ensures_lift _ _).2
          (Plan.Ensures.mono hrenew fun renewed _ hrenewed => (Job.ensures_pure _ _).2 ?_))
        simpa using ZoneSeen.built (.ok found) himage (List.forall_mem_append.2
          ⟨hmachine, List.forall_mem_append.2 ⟨hleave, hrenewed⟩⟩)
    · exact .imageless himage

end zone

structure Visit where
  region : String
  zone : String
  roles : StorageRoles
  trace : Trace
  result : Except Fault MachineId

structure Visit.Unbuilt (t : TemplateClass) (exit : String) (v : Visit) : Prop where
  uncreated : ∀ e ∈ v.trace, e.call.creates = false
  failed : ∃ e, v.result = .error e ∧ Unverified t exit e

/-- In a visit machines are created only from an image that is ready by then, and none is where the
download of the image has ended badly. -/
structure Visit.Vouched (settings : Settings) (t : TemplateClass) (v : Visit) : Prop where
  vouched : ∀ before region zone machine options reply after,
    v.trace = before ++ .create region zone machine options reply :: after →
      region = v.region ∧ zone = v.zone ∧
      ImageReady t v.region v.zone v.roles.imports.id before ∧
      options.ImportsFrom (v.roles.imports.id ++ ":import/" ++ t.imageFile)
  unbuilt : ∀ before storage request task wait status after,
    v.trace = before ++ .download v.region v.zone storage request (.ok task) :: (wait ++ after) →
    (Task.finish settings.taskPatience true v.region v.zone task).run.Yields wait (.ok status) →
    status.isSuccess = false → v.Unbuilt t (status.exit.getD "")

section visit
variable {settings : Settings} {t : TemplateClass} {v : Visit}

theorem vouched_of_seen (h : ZoneSeen settings t v.region v.zone v.roles v.trace v.result) :
    v.Vouched settings t := by
  obtain ⟨region, zone, roles, trace, result⟩ := v
  dsimp only at h
  have hopening (kind : Call → Bool) (hconnect : kind (.connect region) = false)
      (henter : kind (.enterZone region zone) = false) : ∀ e ∈ [(⟨.connect region, .ok ()⟩ : Event),
        ⟨.enterZone region zone, ()⟩], kind e.call = false :=
    List.forall_mem_cons.2 ⟨hconnect, List.forall_mem_singleton.2 henter⟩
  cases h with
  | unconnected e =>
    refine ⟨fun before _ _ _ _ _ after hsplit => ?_, fun before _ _ _ _ _ after hsplit => ?_⟩
    · cases before <;> simp at hsplit
    · cases before <;> simp at hsplit
  | @imageless image e himage =>
    have huncreated : ∀ e ∈ ([⟨.connect region, .ok ()⟩, ⟨.enterZone region zone, ()⟩] : Trace) ++
        (image ++ [⟨.leaveZone region zone, ()⟩]), e.call.creates = false :=
      List.forall_mem_append.2 ⟨hopening _ rfl rfl, List.forall_mem_append.2
        ⟨himage.uncreated, List.forall_mem_singleton.2 rfl⟩⟩
    refine ⟨fun before _ _ _ _ _ after hsplit => ?_,
      fun before _ _ _ _ status after hsplit hwait hsuccess => ⟨huncreated, e, rfl, ?_⟩⟩
    · dsimp only at hsplit
      rw [hsplit] at huncreated
      cases huncreated _ (List.mem_append_right before List.mem_cons_self)
    · have hfailure := himage.eq_failure (hopening _ rfl rfl) (List.forall_mem_singleton.2 rfl)
        hsplit hwait
      rw [downloadResult, hsuccess] at hfailure
      cases hfailure
      exact unverified_downloadFailure t _ _
  | @built image rest _ himage hrest =>
    refine ⟨fun before region' zone' machine options reply after hsplit => ?_,
      fun before _ _ _ _ status after hsplit hwait hsuccess => ?_⟩
    · dsimp only at hsplit
      rw [← List.append_assoc] at hsplit
      obtain ⟨between, rfl, hback⟩ := Trace.split_behind
        (List.forall_mem_append.2 ⟨hopening _ rfl rfl, himage.uncreated⟩) rfl hsplit
      have hmade := hrest _ (hback ▸ List.mem_append_right between List.mem_cons_self)
      have hcreation := hmade.creation region' zone' machine options rfl
      have hwhole : image <:+: [⟨.connect region, .ok ()⟩, ⟨.enterZone region zone, ()⟩] ++ image ++
          between := List.infix_append _ _ _
      exact ⟨hcreation.1, hcreation.2.1, himage.ready.mono hwhole, hcreation.2.2⟩
    · have hfailure := himage.eq_failure (hopening _ rfl rfl)
        (fun e he => (hrest e he).notDownloading) hsplit hwait
      rw [downloadResult, hsuccess] at hfailure
      cases hfailure

end visit

/-! ### The tour of the zones -/

/-- A run in which zones are visited in turn. Outside of the visits nothing is put in place. -/
inductive Visited (settings : Settings) (t : TemplateClass) : Trace → List Visit → Prop where
  | nil : Visited settings t [] []
  | aside {e : Event} {rest : Trace} {vs : List Visit} (h : e.call.installs = false)
      (hrest : Visited settings t rest vs) : Visited settings t (e :: rest) vs
  | visit {v : Visit} {rest : Trace} {vs : List Visit}
      (h : (inZone settings t v.region v.zone v.roles).run.Yields v.trace v.result)
      (hrest : Visited settings t rest vs) : Visited settings t (v.trace ++ rest) (v :: vs)

/-- The zone is one of those that the storages of the class serve in the region. -/
def Visit.Offered (t : TemplateClass) (trace : Trace) (v : Visit) : Prop :=
  v.zone ∈ v.roles.zones ∧
    ∃ asked, asked <:+: trace ∧ (t.rolesIn v.region).run.Yields asked (.ok v.roles)

section tour
variable {settings : Settings} {t : TemplateClass}

theorem Visited.of_aside {trace : Trace} (h : trace.Quiet) : Visited settings t trace [] := by
  induction trace with
  | nil => exact .nil
  | cons e rest ih =>
    obtain ⟨he, hrest⟩ := List.forall_mem_cons.1 h
    exact .aside he (ih hrest)

theorem Visited.append {trace trace' : Trace} {vs vs' : List Visit}
    (h : Visited settings t trace vs) (h' : Visited settings t trace' vs') :
    Visited settings t (trace ++ trace') (vs ++ vs') := by
  induction h with
  | nil => exact h'
  | aside h _ ih => exact .aside h ih
  | visit h _ ih =>
    rw [List.append_assoc]
    exact .visit h ih

theorem Visited.vouched {trace : Trace} {vs : List Visit} (h : Visited settings t trace vs) :
    ∀ v ∈ vs, v.Vouched settings t := by
  induction h with
  | nil => exact List.forall_mem_nil _
  | aside _ _ ih => exact ih
  | visit h _ ih => exact List.forall_mem_cons.2 ⟨vouched_of_seen (inZone_seen _ _ h), ih⟩

theorem ZonesTried.visited {region : String} {roles : StorageRoles} {zones : List String}
    {here : Trace} {os : List Outcome} (h : ZonesTried settings t region roles zones here os) :
    ∃ vs, Visited settings t here vs ∧ ∀ v ∈ vs, v.region = region ∧ v.roles = roles ∧
      v.zone ∈ zones ∧ .tried v.region v.zone v.result ∈ os := by
  induction h with
  | nil => exact ⟨[], .nil, List.forall_mem_nil _⟩
  | @cons zone zones here rest result os h _ ih =>
    obtain ⟨vs, hvisited, hplaces⟩ := ih
    refine ⟨{ region, zone, roles, trace := here, result } :: vs,
      Visited.visit (v := { region, zone, roles, trace := here, result }) h hvisited,
      List.forall_mem_cons.2 ⟨⟨rfl, rfl, List.mem_cons_self, List.mem_cons_self⟩, fun v hv => ?_⟩⟩
    obtain ⟨hregion, hroles, hzone, hresult⟩ := hplaces v hv
    exact ⟨hregion, hroles, List.mem_cons_of_mem zone hzone, List.mem_cons_of_mem _ hresult⟩

theorem Visit.Offered.mono {trace trace' : Trace} {v : Visit} (h : v.Offered t trace)
    (hpart : trace <:+: trace') : v.Offered t trace' := by
  obtain ⟨hzone, asked, hinfix, hasked⟩ := h
  exact ⟨hzone, asked, hinfix.trans hpart, hasked⟩

theorem RegionsTried.visited {regions : List String} {toured : Trace} {os : List Outcome}
    (h : RegionsTried settings t regions toured os) :
    ∃ vs, Visited settings t toured vs ∧ ∀ v ∈ vs, v.Offered t toured ∧
      .tried v.region v.zone v.result ∈ os := by
  have hquiet (region : String) : (t.rolesIn region).Only fun c => c.installs = false :=
    rolesIn_only t fun _ => rfl
  induction h with
  | nil => exact ⟨[], .nil, List.forall_mem_nil _⟩
  | @refused region _ asked rest _ _ h _ ih =>
    obtain ⟨vs, hvisited, hvs⟩ := ih
    have hasked : asked.Quiet := hquiet region _ _ h
    refine ⟨vs, (Visited.of_aside hasked).append hvisited, fun v hv => ?_⟩
    obtain ⟨hoffered, hresult⟩ := hvs v hv
    exact ⟨hoffered.mono (List.suffix_append _ _).isInfix, List.mem_cons_of_mem _ hresult⟩
  | @offered region _ asked here rest roles _ _ h hzones _ ih =>
    obtain ⟨vs, hvisited, hvs⟩ := hzones.visited
    obtain ⟨vs', hvisited', hvs'⟩ := ih
    have hasked : asked.Quiet := hquiet region _ _ h
    refine ⟨vs ++ vs', (Visited.of_aside hasked).append (hvisited.append hvisited'),
      List.forall_mem_append.2 ⟨fun v hv => ?_, fun v hv => ?_⟩⟩
    · obtain ⟨hregion, hroles, hzone, hresult⟩ := hvs v hv
      refine ⟨⟨hroles ▸ hzone, asked, (List.prefix_append _ _).isInfix, ?_⟩,
        List.mem_append_left _ hresult⟩
      rw [hregion, hroles]
      exact h
    · obtain ⟨hoffered, hresult⟩ := hvs' v hv
      exact ⟨hoffered.mono ((List.suffix_append _ _).trans (List.suffix_append _ _)).isInfix,
        List.mem_append_right _ hresult⟩

end tour
end Installing

namespace TemplateClass
open Installing

theorem Concluded.error_of_fault {t : TemplateClass} {os : List Outcome} {written : Trace}
    {r : Except Fault Status} (h : Concluded t os written r) {region zone : String} {e : Fault}
    (hmem : .tried region zone (.error e) ∈ os) : ∃ e', r = .error e' := by
  cases h with
  | nowhere _ e' | unwritten _ e' | failed _ _ e' => exact ⟨e', rfl⟩
  | installed _ hfaults =>
    have hfault : e ∈ Outcome.faults os := List.mem_filterMap.2 ⟨_, hmem, rfl⟩
    rw [hfaults] at hfault
    cases hfault

theorem Concluded.quiet {t : TemplateClass} {os : List Outcome} {written : Trace}
    {r : Except Fault Status} (h : Concluded t os written r) : written.Quiet := by
  cases h with
  | nowhere => exact List.forall_mem_nil _
  | unwritten | failed | installed => exact Trace.quiet_singleton rfl

/-- A creation visits zones in turn, and builds in none of them a machine whose image is missing or
has failed its verification. A zone that fails makes the whole creation fail. -/
theorem create_vouches {settings : Settings} {t : TemplateClass} {trace : Trace}
    {r : Except Fault Status} (h : (t.create settings).run.Yields trace r) :
    ∃ visits, Visited settings t trace visits ∧ ∀ v ∈ visits, v.Offered t trace ∧
      v.Vouched settings t ∧ ∀ e, v.result = .error e → ∃ e', r = .error e' := by
  by_cases hconflict : t.Conflicting
  · obtain ⟨rfl, -⟩ := create_of_conflicting settings hconflict _ _ h
    exact ⟨[], .nil, List.forall_mem_nil _⟩
  obtain ⟨asked, regions, toured, os, written, rfl, hasked, htoured, hend⟩ :=
    create_concluded settings hconflict _ _ h
  have hquiet : t.targetRegions.Only fun c => c.installs = false := t.targetRegions_only rfl
  obtain ⟨visits, hvisited, hvisits⟩ := htoured.visited
  refine ⟨visits, ?_, fun v hv => ?_⟩
  · have hbefore : Visited settings t asked [] := .of_aside (hquiet _ _ hasked)
    have hafter : Visited settings t written [] := .of_aside hend.quiet
    simpa using hbefore.append (hvisited.append hafter)
  · obtain ⟨hoffered, hresult⟩ := hvisits v hv
    refine ⟨hoffered.mono ?_, hvisited.vouched v hv, fun e he => ?_⟩
    · exact ((List.prefix_append _ _).isInfix).trans (List.suffix_append _ _).isInfix
    · rw [he] at hresult
      exact hend.error_of_fault hresult

def oneZoneTampered : (c : Call) → c.Reply
  | .ask (.storage _ id) => some { id, content := ["import", "images"], zones := ["z1", "z2"] }
  | .hypervisor _ (.taskStatus "z1" "download") => .ok { exit := some "Checksum mismatch" }
  | .hypervisor _ (.nextId _) => .ok 9002
  | c => c.grant

theorem create_vouches_oneZoneTampered : ∃ trace e visits,
    (noble.create {}).run.Yields trace (.error e) ∧ e = .validation "noble"
      "download of https://images/noble.qcow2 failed verification: Checksum mismatch"
      (some "spec.image.checksum") ∧
    trace.calls.any Call.creates = true ∧ Visited {} noble trace visits ∧
    ∀ v ∈ visits, v.Offered noble trace ∧ v.Vouched {} noble ∧
      ∀ e', v.result = .error e' → ∃ e'', (.error e : Except Fault Status) = .error e'' := by
  obtain ⟨trace, e, hrun, hgood⟩ := Job.fails_of_play (fun _ => oneZoneTampered)
    (noble.create {}) (fun trace e => e == .validation "noble"
      "download of https://images/noble.qcow2 failed verification: Checksum mismatch"
      (some "spec.image.checksum") && trace.calls.any Call.creates) (by decide +kernel)
  obtain ⟨hfault, hcreates⟩ := Bool.and_eq_true_iff.1 hgood
  obtain ⟨visits, hvisits⟩ := create_vouches hrun
  exact ⟨trace, e, visits, hrun, beq_iff_eq.1 hfault, hcreates, hvisits⟩

end TemplateClass
end NodeProvisioner
