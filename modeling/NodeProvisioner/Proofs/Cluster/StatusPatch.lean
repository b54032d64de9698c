import NodeProvisioner.Cluster.Api
import NodeProvisioner.Proofs.Template.Deleting

/-! What the API server stores when a status is written. The status is sent as a patch that the
server merges into the object: fields that the patch leaves out stay as they are. A status leaves
out what it does not have, so that what was stored before shows through. -/
namespace NodeProvisioner

namespace Fields

def without (fs : Fields) (name : String) : Fields := fs.filter fun f => name != f.1

def put (fs : Fields) (name : String) (d : Document) : Fields := (name, d) :: fs.without name

theorem lookup_without_of_ne {name name' : String} (h : name' ≠ name) (fs : Fields) :
    (fs.without name).lookup name' = fs.lookup name' := by
  unfold without
  induction fs with
  | nil => rfl
  | cons f fs ih =>
    obtain ⟨key, d⟩ := f
    cases hkey : name != key with
    | true => simp only [List.filter_cons, hkey, if_true, List.lookup_cons, ih]
    | false =>
      have hne : (name' == key) = false := by
        rw [bne_eq_false_iff_eq] at hkey
        simpa [← hkey] using h
      simp only [List.filter_cons, hkey, Bool.false_eq_true, if_false, List.lookup_cons, hne, ih]

@[simp] theorem lookup_put_self (fs : Fields) (name : String) (d : Document) :
    (fs.put name d).lookup name = some d := by
  simp [put]

theorem lookup_put_of_ne {name name' : String} (h : name' ≠ name) (fs : Fields) (d : Document) :
    (fs.put name d).lookup name' = fs.lookup name' := by
  have hne : (name' == name) = false := by simpa using h
  rw [put, List.lookup_cons, hne]
  exact lookup_without_of_ne h fs

end Fields

namespace Document

def ownFields : Document → Fields
  | .record fields => fields
  | _ => []

mutual

/-- Merges a patch into a document: of a record the fields are merged, and anything else takes the
place of what was there. -/
def merge (old : Document) : Document → Document
  | .record patch => .record (mergeFields old.ownFields patch)
  | patch => patch

def mergeFields (old : Fields) : Fields → Fields
  | [] => old
  | f :: fs => mergeFields (mergeField old f) fs

/-- A field that is `null` in the patch is removed. -/
def mergeField (old : Fields) : String × Document → Fields
  | (name, .null) => old.without name
  | (name, patch) => old.put name (((old.lookup name).getD .null).merge patch)

end

theorem mergeFields_append (old fs fs' : Fields) :
    mergeFields old (fs ++ fs') = mergeFields (mergeFields old fs) fs' := by
  induction fs generalizing old with
  | nil => simp [mergeFields]
  | cons f fs ih => simp only [List.cons_append, mergeFields, ih]

theorem lookup_mergeFields_of_ne {name : String} (old : Fields) {patch : Fields}
    (h : ∀ f ∈ patch, name ≠ f.1) : (mergeFields old patch).lookup name = old.lookup name := by
  induction patch generalizing old with
  | nil => simp [mergeFields]
  | cons f patch ih =>
    obtain ⟨hf, hpatch⟩ := List.forall_mem_cons.1 h
    rw [mergeFields, ih _ hpatch]
    unfold mergeField
    split
    · exact Fields.lookup_without_of_ne hf old
    · exact Fields.lookup_put_of_ne hf old _

end Document

namespace TemplateClass.Status

/-- What there is of the new status, and what there was for the rest. -/
def laidOver (new old : Status) : Status where
  imageId := new.imageId <|> old.imageId
  zones := if new.zones = [] then old.zones else new.zones

theorem laidOver_eq_iff {new old : Status} :
    new.laidOver old = new ↔ (new.imageId = none → old.imageId = none) ∧
      (new.zones = [] → old.zones = []) := by
  obtain ⟨image, zones⟩ := new
  unfold laidOver
  cases image <;> cases zones <;> simp

theorem laidOver_empty (old : Status) : laidOver {} old = old := rfl

theorem ofDocument?_record {fs : Fields} {s : Status} :
    ofDocument? (.record fs) = some s ↔
      fs.optional "imageID" Document.text? = some s.imageId ∧
        fs.withDefault "zones" [] (Document.list? Document.text?) = some s.zones := by
  obtain ⟨image, zones⟩ := s
  simp [ofDocument?, Document.fields?, Option.bind_eq_some_iff]

theorem list?_texts (zones : List String) :
    Document.list? Document.text? (.list (zones.map .text)) = some zones := by
  unfold Document.list?
  induction zones with
  | nil => rfl
  | cons zone zones ih => simp [List.mapM_cons, Document.text?, ih]

theorem mergeFields_image (old : Fields) (image : String) :
    Document.mergeFields old (Fields.ofOption "imageID" .text (some image)) =
      old.put "imageID" (.text image) := by
  simp [Fields.ofOption, Document.mergeFields, Document.mergeField, Document.merge]

theorem mergeFields_zones (old : Fields) {zones : List String} (h : zones ≠ []) :
    Document.mergeFields old (Fields.ofList "zones" .text zones) =
      old.put "zones" (.list (zones.map .text)) := by
  cases zones with
  | nil => exact absurd rfl h
  | cons zone zones =>
    simp [Fields.ofList, Document.mergeFields, Document.mergeField, Document.merge]

/-- A status merged into the fields of another is read as the one laid over the other. -/
theorem ofDocument?_merge {old : Document} {s : Status} (new : Status)
    (h : ofDocument? (.record old.ownFields) = some s) :
    ofDocument? (old.merge new.toDocument) = some (new.laidOver s) := by
  obtain ⟨himage, hzones⟩ := ofDocument?_record.1 h
  unfold toDocument Document.merge
  -- The two fields have different names, so each is looked up past the other one.
  rw [ofDocument?_record, Document.mergeFields_append]
  unfold Fields.optional Fields.withDefault at *
  constructor
  · rw [Document.lookup_mergeFields_of_ne]
    · cases hnew : new.imageId with
      | none => simpa [Fields.ofOption, Document.mergeFields, laidOver, hnew] using himage
      | some image =>
        simp [mergeFields_image, laidOver, hnew, Document.orNull, Document.text?]
    · unfold Fields.ofList
      split <;> simp
  · by_cases hnew : new.zones = []
    · rw [hnew]
      simp only [Fields.ofList, Document.mergeFields]
      rw [Document.lookup_mergeFields_of_ne]
      · simpa [laidOver, hnew] using hzones
      · unfold Fields.ofOption
        split <;> simp
    · rw [mergeFields_zones _ hnew, Fields.lookup_put_self]
      simp [laidOver, hnew, list?_texts]

end TemplateClass.Status

namespace ClusterApi

def Request.patched (r : Request) (stored : Document) : Document :=
  r.body.elim stored stored.merge

def storedStatus? (stored : Document) : Option TemplateClass.Status :=
  stored.record?.bind fun fs => fs.orElse "status" {} TemplateClass.Status.ofDocument?

/-- An object is stored with this status. All that the server stores under a name is kept as a
record, never as a list of values. -/
structure Stores (stored : Document) (s : TemplateClass.Status) : Prop where
  reads : storedStatus? stored = some s
  notList : ∀ items, stored.ownFields.lookup "status" ≠ some (.list items)

theorem Stores.record {stored : Document} {s : TemplateClass.Status} (h : Stores stored s) :
    TemplateClass.Status.ofDocument?
      (.record ((stored.ownFields.lookup "status").getD .null).ownFields) = some s := by
  obtain ⟨hreads, hlist⟩ := h
  cases stored with
  | record fs =>
    change Fields.orElse fs "status" {} TemplateClass.Status.ofDocument? = some s at hreads
    unfold Fields.orElse Fields.optional Fields.withDefault at hreads
    change ∀ items, fs.lookup "status" ≠ some (.list items) at hlist
    change TemplateClass.Status.ofDocument?
      (.record ((fs.lookup "status").getD .null).ownFields) = some s
    cases hstatus : fs.lookup "status" with
    | none =>
      rw [hstatus] at hreads
      exact hreads
    | some old =>
      rw [hstatus] at hreads
      cases old with
      | null => exact hreads
      | record old => simpa [Document.orNull, Document.ownFields] using hreads
      | list items => exact absurd hstatus (hlist items)
      | _ => cases hreads
  | _ => cases hreads

theorem statusRequest_body {template : String} {status : TemplateClass.Status} {r : Request}
    (h : statusRequest template status = .ok r) :
    r.body = some (.record [("status", status.toDocument)]) := by
  unfold statusRequest Request.make at h
  split at h
  · cases h
  · split at h
    · cases h
      rfl
    · cases h

theorem storedStatus?_patched {template : String} {new old : TemplateClass.Status} {r : Request}
    {stored : Document} (hrequest : statusRequest template new = .ok r)
    (h : Stores stored old) : storedStatus? (r.patched stored) = some (new.laidOver old) := by
  have hpatched : r.patched stored = .record (stored.ownFields.put "status"
      (((stored.ownFields.lookup "status").getD .null).merge new.toDocument)) := by
    unfold Request.patched
    rw [statusRequest_body hrequest]
    simp [Document.merge, Document.mergeFields, Document.mergeField,
      TemplateClass.Status.toDocument]
  have hmerged := TemplateClass.Status.ofDocument?_merge new h.record
  rw [hpatched, storedStatus?, Document.record?, Option.bind_some]
  unfold Fields.orElse Fields.optional Fields.withDefault
  rw [Fields.lookup_put_self]
  simp only [TemplateClass.Status.toDocument, Document.merge] at hmerged ⊢
  simp [Document.orNull, hmerged]

theorem request_of_outcome {template : String} {status : TemplateClass.Status} {a : Answer}
    (hok : outcome (statusRequest template status) readStatusReply a = .ok ()) :
    ∃ r, statusRequest template status = .ok r := by
  cases hrequest : statusRequest template status with
  | ok r => exact ⟨r, rfl⟩
  | error e =>
    rw [hrequest] at hok
    cases hok

/-- A status that was written is what is stored afterwards if and only if it has all that was stored
before. A deletion of a template class that succeeds writes the empty status, so what was stored
before is stored still. -/
theorem stored_eq_written_iff {stored : Document} {old : TemplateClass.Status}
    (hstored : Stores stored old) :
    (∀ template new a, outcome (statusRequest template new) readStatusReply a = .ok () →
      ∃ r, statusRequest template new = .ok r ∧
        (storedStatus? (r.patched stored) = some new ↔
          (new.imageId = none → old.imageId = none) ∧ (new.zones = [] → old.zones = []))) ∧
    ∀ settings (t : TemplateClass) trace, (t.delete settings).run.Yields trace (.ok ()) →
      trace.statusWrites = [(t.displayName, {})] ∧
        ∀ r, statusRequest t.displayName {} = .ok r →
          storedStatus? (r.patched stored) = some old := by
  constructor
  · intro template new a hok
    obtain ⟨r, hrequest⟩ := request_of_outcome hok
    refine ⟨r, hrequest, ?_⟩
    rw [storedStatus?_patched hrequest hstored, Option.some.injEq]
    exact TemplateClass.Status.laidOver_eq_iff
  · intro settings t trace hrun
    refine ⟨t.delete_writes settings _ _ hrun rfl, fun r hrequest => ?_⟩
    rw [storedStatus?_patched hrequest hstored, TemplateClass.Status.laidOver_empty]

def installed : TemplateClass where
  name := some "noble"
  spec := { image := { url := "https://example.org/noble.img" } }
  status := some { imageId := some "noble.img", zones := ["r1/z1/9000"] }

def objectOf (t : TemplateClass) : Document :=
  .record [("metadata", .record [("name", .text t.displayName)]), ("spec", t.spec.toDocument),
    ("status", t.currentStatus.toDocument)]

theorem outcome_ok {template : String} {status : TemplateClass.Status} {d : Document}
    (hrequest : (statusRequest template status).toOption.isSome = true)
    (hread : isTemplate d = true) :
    outcome (statusRequest template status) readStatusReply (.object d) = .ok () := by
  cases h : statusRequest template status with
  | error e =>
    rw [h] at hrequest
    cases hrequest
  | ok r => exact if_pos hread

theorem stores_installed : Stores (objectOf installed) installed.currentStatus := by
  refine ⟨by decide +kernel, fun items h => ?_⟩
  cases h

/-- A status with an image and a zone takes the place of another one. -/
theorem stored_eq_written_moved :
    let moved : TemplateClass.Status := { imageId := some "jammy.img", zones := ["r1/z2/9001"] }
    ∃ r, statusRequest "noble" moved = .ok r ∧
      storedStatus? (r.patched (objectOf installed)) = some moved := by
  intro moved
  obtain ⟨r, hrequest, hiff⟩ := (stored_eq_written_iff stores_installed).1 "noble" moved
    (.object (objectOf installed)) (outcome_ok (by decide +kernel) (by decide +kernel))
  exact ⟨r, hrequest, hiff.2 ⟨nofun, nofun⟩⟩

/-- After a deletion that has succeeded, and has stored the empty status with success, the status
is still the one of the installed template class. -/
theorem installed_after_delete :
    ∃ trace a, (installed.delete {}).run.Yields trace (.ok ()) ∧
      trace.statusWrites = [("noble", {})] ∧
      outcome (statusRequest "noble" {}) readStatusReply a = .ok () ∧
      ∃ r, statusRequest "noble" {} = .ok r ∧
        storedStatus? (r.patched (objectOf installed)) =
          some { imageId := some "noble.img", zones := ["r1/z1/9000"] } := by
  have hplay : ((installed.delete {}).run.play (fun _ => Call.grant) []).2.toOption.map id =
      some () := by decide +kernel
  obtain ⟨trace, ⟨⟩, hrun, -⟩ := Job.yields_of_play _ hplay
  have hok : outcome (statusRequest "noble" {}) readStatusReply
      (.object (objectOf installed)) = .ok () := outcome_ok (by decide +kernel) (by decide +kernel)
  obtain ⟨r, hrequest⟩ := request_of_outcome hok
  refine ⟨trace, _, hrun, installed.delete_writes {} _ _ hrun rfl, hok, r, hrequest, ?_⟩
  rw [storedStatus?_patched hrequest stores_installed]
  rfl

end ClusterApi
end NodeProvisioner
