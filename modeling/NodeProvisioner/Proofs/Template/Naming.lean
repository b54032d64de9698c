import NodeProvisioner.Proofs.Template.Removing
import NodeProvisioner.Proofs.Text.Reading

/-! Which class an image file is of. The name of a class may hold anything, dashes, dots and digits
too, so a file name is read from its end: the extension holds no dot, and what stands before it ends
with a dash and ten digits. -/
namespace NodeProvisioner

namespace Image

def HasExtension (file ext : String) : Prop :=
  '.' ∉ ext.toList ∧ ∃ stem, file = stem ++ "." ++ ext

/-- What follows the last slash of an address, or all of it, be there a query in it or not. -/
def HasLastSegment (url file : String) : Prop :=
  '/' ∉ file.toList ∧ (url = file ∨ ∃ front, url = front ++ "/" ++ file)

/-- The file that the address names has the extension of a known format, in any case of letters. -/
def NamesFormat (url ext : String) : Prop :=
  ext ∈ ["qcow2", "raw", "vmdk"] ∧ ∃ file suffix, HasLastSegment url file ∧
    HasExtension file suffix ∧ suffix.toList.map Char.toLower = ext.toList

/-- The digits by which the file names of one class differ: the first ones of the digest of the
address and the checksum. -/
def sourceDigits (i : ImageSource) : List Char :=
  (Sha256.digestText (i.url ++ "|" ++ i.checksum.getD "")).hexChars.take 10

theorem length_sourceDigits (i : ImageSource) : (sourceDigits i).length = 10 := by
  rw [sourceDigits, List.length_take, Digest.length_hexChars]
  rfl

/-! ### Extensions -/

theorem hasExtension_iff {file ext : String} :
    HasExtension file ext ↔ ∃ stem, Text.cutLast? '.' file = some (stem, ext) := by
  constructor
  · rintro ⟨hdot, stem, hfile⟩
    exact ⟨stem, (Text.cutLast?_eq_some rfl).2 ⟨hfile, hdot⟩⟩
  · rintro ⟨stem, hcut⟩
    obtain ⟨hfile, hdot⟩ := (Text.cutLast?_eq_some (t := ".") rfl).1 hcut
    exact ⟨hdot, stem, hfile⟩

theorem hasLastSegment_iff {url file : String} :
    HasLastSegment url file ↔ lastSegment url = file := by
  unfold lastSegment
  constructor
  · rintro ⟨hslash, rfl | ⟨front, hurl⟩⟩
    · rw [Text.cutLast?_eq_none.2 hslash]
    · rw [(Text.cutLast?_eq_some rfl).2 ⟨hurl, hslash⟩]
  · rintro rfl
    split
    · next front file hcut =>
      obtain ⟨hurl, hslash⟩ := (Text.cutLast?_eq_some (t := "/") rfl).1 hcut
      exact ⟨hslash, .inr ⟨front, hurl⟩⟩
    · next hcut => exact ⟨Text.cutLast?_eq_none.1 hcut, .inl rfl⟩

theorem lower_eq {s ext : String} : lower s = ext ↔ s.toList.map Char.toLower = ext.toList := by
  rw [lower, ← String.toList_inj, String.toList_ofList]

theorem namesFormat_iff {url ext : String} : NamesFormat url ext ↔
    ext ∈ formats ∧ (Text.cutLast? '.' (lastSegment url)).map (fun p => lower p.2) = some ext := by
  unfold NamesFormat formats
  simp only [hasLastSegment_iff, hasExtension_iff, Option.map_eq_some_iff, Prod.exists, lower_eq]
  grind

theorem format_eq (url : String) : (∀ ext, NamesFormat url ext → format url = ext) ∧
    ((∀ ext, ¬ NamesFormat url ext) → format url = "qcow2") := by
  simp only [namesFormat_iff]
  unfold format
  cases (Text.cutLast? '.' (lastSegment url)).map fun p => lower p.2 with
  | none => simp
  | some ext =>
    simp only [List.contains_iff_mem, Option.some.injEq]
    by_cases hext : ext ∈ formats
    · rw [if_pos hext]
      exact ⟨fun _ h => h.2, fun hnone => absurd ⟨hext, rfl⟩ (hnone ext)⟩
    · rw [if_neg hext]
      exact ⟨fun _ h => absurd (h.2 ▸ h.1) hext, fun _ => rfl⟩

example : format "https://images/debian-12.RAW" = "raw" := by decide

-- With a query behind it, the extension is not a known one any more.
example : format "https://images/debian-12.raw?v=2" = "qcow2" := by decide

theorem format_mem (url : String) : format url ∈ formats := by
  by_cases h : ∃ ext, NamesFormat url ext
  · obtain ⟨ext, hext⟩ := h
    rw [(format_eq url).1 ext hext]
    exact hext.1
  · rw [(format_eq url).2 fun ext hext => h ⟨ext, hext⟩]
    decide

theorem dot_not_mem_format (url : String) : '.' ∉ (format url).toList := by
  have hformats : ∀ ext ∈ formats, '.' ∉ ext.toList := by decide
  exact hformats _ (format_mem url)

/-! ### File names -/

theorem cutLast?_fileName (cls : String) (i : ImageSource) :
    Text.cutLast? '.' (fileName cls i) =
      some (cls ++ "-" ++ String.ofList (sourceDigits i), format i.url) :=
  (Text.cutLast?_eq_some rfl).2 ⟨rfl, dot_not_mem_format i.url⟩

theorem hasExtension_fileName (cls : String) (i : ImageSource) :
    HasExtension (fileName cls i) (format i.url) :=
  hasExtension_iff.2 ⟨_, cutLast?_fileName cls i⟩

theorem fileName_inj {cls cls' : String} {i i' : ImageSource}
    (h : fileName cls i = fileName cls' i') :
    cls = cls' ∧ format i.url = format i'.url ∧ sourceDigits i = sourceDigits i' := by
  have hcut := cutLast?_fileName cls i
  rw [h, cutLast?_fileName cls' i', Option.some.injEq, Prod.mk.injEq] at hcut
  obtain ⟨hstem, hformat⟩ := hcut
  -- The digits are as many in both names, so that the stems fall apart at the same place.
  have hchars := congrArg String.toList hstem
  simp only [String.toList_append, String.toList_ofList] at hchars
  obtain ⟨hcls, hdigits⟩ := List.append_inj' hchars (by simp only [length_sourceDigits])
  exact ⟨String.toList_injective (List.append_cancel_right hcls).symm, hformat.symm, hdigits.symm⟩

theorem volume_ne (storage : String) {cls cls' : String} (h : cls ≠ cls') (i i' : ImageSource) :
    volume storage (fileName cls i) ≠ volume storage (fileName cls' i') := by
  intro heq
  exact h (fileName_inj (String.append_right_inj _ |>.1 heq)).1

end Image

/-! ### Deletions -/

namespace TemplateClass
variable {settings : Settings} {t : TemplateClass}

/-- The image file that is recorded for a class, if any, is one of the class itself. -/
def Status.OwnImage (status : Status) (cls : String) : Prop :=
  ∀ file, status.imageId = some file → ∃ image, file = Image.fileName cls image

/-- Whatever is recorded, it is recorded for the class, with an image file of its own. -/
def RecordsOwn (t : TemplateClass) (trace : Trace) : Prop :=
  ∀ e ∈ trace, ∀ name status, e.call = .writeStatus name status →
    name = t.displayName ∧ status.OwnImage name

theorem recordsOwn_of_written {trace : Trace} {writes : List Call}
    (h : trace.calls.filter Call.writesStatus = writes)
    (hown : ∀ c ∈ writes, ∃ status : Status, c = .writeStatus t.displayName status ∧
      status.OwnImage t.displayName) : t.RecordsOwn trace := by
  intro e he name status hcall
  have hmem : e.call ∈ trace.calls.filter Call.writesStatus :=
    List.mem_filter.2 ⟨List.mem_map_of_mem he, by rw [hcall]; rfl⟩
  obtain ⟨status', hwrite, hstatus⟩ := hown _ (h ▸ hmem)
  rw [hcall] at hwrite
  cases hwrite
  exact ⟨rfl, hstatus⟩

theorem create_recordsOwn : (t.create settings).Ensures fun trace _ => t.RecordsOwn trace := by
  intro trace r hrun
  by_cases hconflict : t.Conflicting
  · obtain ⟨rfl, -⟩ := create_of_conflicting settings hconflict trace r hrun
    exact List.forall_mem_nil _
  · obtain ⟨asked, regions, toured, os, written, rfl, hasked, htoured, hend⟩ :=
      create_concluded settings hconflict trace r hrun
    have hown : (t.statusAfter os).OwnImage t.displayName := by
      rintro _ ⟨⟩
      exact ⟨t.spec.image, rfl⟩
    refine recordsOwn_of_written (isolated_of_concluded hasked htoured hend).written ?_
    split
    · exact List.forall_mem_nil _
    · exact List.forall_mem_singleton.2 ⟨_, rfl, hown⟩

theorem removedImage_own (h : t.currentStatus.OwnImage t.displayName) :
    ∃ image, t.removedImage = Image.fileName t.displayName image := by
  unfold removedImage
  cases hid : t.currentStatus.imageId with
  | none => exact ⟨t.spec.image, rfl⟩
  | some file => exact h file hid

theorem delete_recordsOwn (h : t.currentStatus.OwnImage t.displayName) :
    (t.delete settings).Ensures fun trace _ => t.RecordsOwn trace := by
  refine delete_forgotten.mono ?_
  rintro trace r ⟨os, hforgotten⟩
  refine recordsOwn_of_written hforgotten.written (List.forall_mem_singleton.2 ⟨_, rfl, ?_⟩)
  intro file hfile
  unfold statusLeft at hfile
  split at hfile
  · cases hfile
  · cases hfile
    exact removedImage_own h

theorem delete_deletes : (t.delete settings).Only fun c => ∀ volume,
    c.deletedVolume? = some volume → ∃ storage, volume = Image.volume storage t.removedImage :=
  delete_only (fun _ h => h.image) (fun _ _ => nofun) fun _ =>
    Sync.region_only (fun _ _ _ => nofun) (fun _ _ => nofun) (fun _ => nofun) (fun _ => nofun)
      fun _ _ => nofun

end TemplateClass

/-- Image files of different classes have different names, which end with the extension of the
format. What is recorded and deleted for a class is an image of its own, and so no volume of another
one. -/
theorem Image.fileName_separates :
    (∀ (cls cls' : String) (i i' : ImageSource), fileName cls i = fileName cls' i' →
      cls = cls' ∧ format i.url = format i'.url ∧ sourceDigits i = sourceDigits i') ∧
    (∀ (cls : String) (i : ImageSource), HasExtension (fileName cls i) (format i.url)) ∧
    (∀ url, format url ∈ ["qcow2", "raw", "vmdk"] ∧
      (∀ ext, NamesFormat url ext → format url = ext) ∧
      ((∀ ext, ¬ NamesFormat url ext) → format url = "qcow2")) ∧
    (∀ (storage cls cls' : String) (i i' : ImageSource), cls ≠ cls' →
      volume storage (fileName cls i) ≠ storage ++ ":import/" ++ fileName cls' i') ∧
    ∀ (settings : Settings) (t : TemplateClass),
      ((t.create settings).Ensures fun trace _ => t.RecordsOwn trace) ∧
      (t.currentStatus.OwnImage t.displayName → (t.delete settings).Ensures fun trace _ =>
        t.RecordsOwn trace ∧ ∀ e ∈ trace, ∀ deleted, e.call.deletedVolume? = some deleted →
          ∃ storage image, deleted = storage ++ ":import/" ++ fileName t.displayName image ∧
            ∀ (cls : String) (i : ImageSource), cls ≠ t.displayName →
              deleted ≠ storage ++ ":import/" ++ fileName cls i) := by
  simp only [← volume_eq]
  refine ⟨fun _ _ _ _ => fileName_inj, hasExtension_fileName,
    fun url => ⟨format_mem url, format_eq url⟩, fun storage _ _ i i' h => volume_ne storage h i i',
    fun settings t => ⟨TemplateClass.create_recordsOwn, fun hown => ?_⟩⟩
  obtain ⟨image, himage⟩ := TemplateClass.removedImage_own hown
  intro trace r hrun
  refine ⟨TemplateClass.delete_recordsOwn hown trace r hrun, fun e he deleted hdeleted => ?_⟩
  obtain ⟨storage, rfl⟩ := TemplateClass.delete_deletes trace r hrun e he deleted hdeleted
  rw [himage]
  exact ⟨storage, image, rfl, fun cls i hcls => volume_ne storage hcls.symm image i⟩

def earlierImage : ImageSource := { url := "https://images/noble-0.RAW", checksum := some "ab12" }

theorem Image.fileName_separates_noble :
    fileName "noble" earlierImage = "noble-3e6bf5364e.raw" ∧
    sourceDigits earlierImage ≠ sourceDigits { earlierImage with checksum := none } ∧
    fileName "noble" earlierImage ≠ fileName "noble" { earlierImage with checksum := none } ∧
    TemplateClass.nobleBefore.currentStatus.OwnImage "noble" ∧
    ∃ trace e, (TemplateClass.nobleBefore.delete {}).run.Yields trace (.error e) ∧
      trace.calls.filterMap Call.deletedVolume? = ["local:import/noble-3e6bf5364e.raw"] ∧
      TemplateClass.nobleBefore.RecordsOwn trace ∧
      ∀ (cls : String) (i : ImageSource), cls ≠ "noble" →
        "local:import/" ++ fileName cls i ∉ trace.calls.filterMap Call.deletedVolume? := by
  obtain ⟨hinj, -, -, hvolume, hruns⟩ := fileName_separates
  have hname : fileName "noble" earlierImage = "noble-3e6bf5364e.raw" := by decide +kernel
  have hdigits : sourceDigits earlierImage ≠
      sourceDigits { earlierImage with checksum := none } := by decide +kernel
  have hother : fileName "noble" earlierImage ≠
      fileName "noble" { earlierImage with checksum := none } :=
    fun heq => hdigits (hinj _ _ _ _ heq).2.2
  have hown : TemplateClass.nobleBefore.currentStatus.OwnImage "noble" := by
    rintro _ ⟨⟩
    exact ⟨earlierImage, hname.symm⟩
  obtain ⟨trace, e, hrun, hgood⟩ := Job.fails_of_play (fun _ => TemplateClass.imageInOneZone)
    (TemplateClass.nobleBefore.delete {})
    (fun trace _ => trace.calls.filterMap Call.deletedVolume? ==
      ["local:import/noble-3e6bf5364e.raw"]) (by decide +kernel)
  have hdeleted := beq_iff_eq.1 hgood
  obtain ⟨hrecords, -⟩ := (hruns {} TemplateClass.nobleBefore).2 hown trace _ hrun
  refine ⟨hname, hdigits, hother, hown, trace, e, hrun, hdeleted, hrecords, fun cls i hcls => ?_⟩
  have happart := hvolume "local" "noble" cls earlierImage i hcls.symm
  rw [volume_eq, hname] at happart
  rw [hdeleted, List.mem_singleton]
  exact fun heq => happart heq.symm

end NodeProvisioner
