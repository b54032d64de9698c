import Mathlib.Data.Option.Basic
import NodeProvisioner.Proofs.Json.Reading

/-! Values that are written as documents and read back. A reader finds the fields of a record by
their names, so it does not see in which order they stand. -/
namespace NodeProvisioner

theorem lookup_cons_if {β : Type} (k name : String) (v : β) (es : List (String × β)) :
    ((name, v) :: es).lookup k = if k = name then some v else es.lookup k := by
  rw [List.lookup_cons]
  by_cases h : k = name
  · simp [h]
  · simp [h, beq_false_of_ne h]

namespace KeyMap
variable {β : Type}

theorem find_eq_lookup (k : String) (es : List (String × β)) : find k es = es.lookup k := by
  induction es with
  | nil => rfl
  | cons e es ih => rw [find_cons, lookup_cons_if, ih]

theorem mem_of_lookup {k : String} {v : β} {es : List (String × β)} (h : es.lookup k = some v) :
    (k, v) ∈ es := by
  obtain ⟨before, after, rfl, -⟩ := List.lookup_eq_some_iff.1 h
  exact List.mem_append_right before List.mem_cons_self

theorem get?_ofList_of_nodup {es : List (String × β)} (h : (es.map (·.1)).Nodup) (k : String) :
    (ofList es).get? k = es.lookup k := by
  cases hlookup : es.lookup k with
  | none =>
    apply Option.eq_none_iff_forall_ne_some.2
    intro v hv
    have hmem := mem_of_mem_ofList (mem_entries_of_get? hv)
    have hne := List.lookup_eq_none_iff.1 hlookup _ hmem
    simp at hne
  | some v =>
    have hmem := mem_of_lookup hlookup
    refine get?_foldl_insert_of_sole hmem (fun w hw => ?_) empty
    have heq := List.inj_on_of_nodup_map h hw hmem rfl
    exact (Prod.mk.inj heq).2

end KeyMap

namespace Document

/-- The same but for the order of fields. -/
inductive Same : Document → Document → Prop where
  | refl (d : Document) : Same d d
  | list {xs ys : List Document} (h : List.Forall₂ Same xs ys) : Same (.list xs) (.list ys)
  | record {fs gs : Fields} (h : ∀ name, Option.Rel Same (fs.lookup name) (gs.lookup name)) :
      Same (.record fs) (.record gs)

theorem Plain.same_sorted {d : Document} (h : d.Plain) : Same d d.sorted := by
  induction h with
  | list _ ih =>
    rw [sorted, sortedItems_eq]
    apply Same.list
    rw [List.forall₂_map_right_iff, List.forall₂_same]
    exact ih
  | @record fields hnames _ ih =>
    rw [sorted, sortedFields_eq, ← KeyMap.mapValues_ofList]
    apply Same.record
    intro name
    rw [← KeyMap.find_eq_lookup name (KeyMap.entries _), ← KeyMap.get?, KeyMap.get?_mapValues,
      KeyMap.get?_ofList_of_nodup hnames]
    cases hlookup : fields.lookup name with
    | none => exact .none
    | some d => exact .some (ih _ (KeyMap.mem_of_lookup hlookup))
  | _ => exact .refl _

theorem Same.list_inv {xs : List Document} {d : Document} (h : Same (.list xs) d) :
    ∃ ys, d = .list ys ∧ List.Forall₂ Same xs ys := by
  cases h with
  | refl => exact ⟨xs, rfl, List.forall₂_same.2 fun _ _ => .refl _⟩
  | list h => exact ⟨_, rfl, h⟩

theorem Same.ne_null {d d' : Document} (h : d.Same d') (hd : d ≠ .null) : d' ≠ .null := by
  cases h with
  | refl => exact hd
  | _ => simp

theorem orNull_of_ne {α : Type} {read? : Document → Option α} {d : Document} (h : d ≠ .null) :
    orNull read? d = (read? d).map some := by
  cases d with
  | null => exact absurd rfl h
  | _ => rfl

def SameFields (fs gs : Fields) : Prop :=
  ∀ name, Option.Rel Same (fs.lookup name) (gs.lookup name)

theorem Same.record_inv {fs : Fields} {d : Document} (h : Same (.record fs) d) :
    ∃ gs, d = .record gs ∧ SameFields fs gs := by
  cases h with
  | refl =>
    refine ⟨fs, rfl, fun name => ?_⟩
    cases fs.lookup name with
    | none => exact .none
    | some d => exact .some (.refl d)
  | record h => exact ⟨_, rfl, h⟩

/-- Fields under some of these names, in this order. -/
structure Written (names : List String) (fs : Fields) : Prop where
  sublist : (fs.map (·.1)).Sublist names
  plain : ∀ f ∈ fs, f.2.Plain

def Named (names : List String) (d : Document) : Prop := ∃ fs, d = .record fs ∧ Written names fs

variable {α : Type} {write : α → Document} {read? : Document → Option α} {names : List String}

/-- Values are read from what is written, however the fields are arranged. -/
structure Lossless (write : α → Document) (read? : Document → Option α) : Prop where
  reread : ∀ a d, (write a).Same d → read? d = some a
  ne_null : ∀ a, write a ≠ .null
  plain : ∀ a, (write a).Plain

theorem Lossless.ofJson?_toJson (h : Lossless write read?) (a : α) :
    (ofJson? (write a).toJson).bind read? = some a := by
  rw [Document.ofJson?_toJson (h.plain a), Option.bind_some]
  exact h.reread a _ (h.plain a).same_sorted

namespace Lossless

theorem text : Lossless .text text? where
  reread s d h := by cases h with | refl => rfl
  ne_null := nofun
  plain := .text

theorem bool : Lossless .bool bool? where
  reread b d h := by cases h with | refl => rfl
  ne_null := nofun
  plain := .bool

theorem natural {size : Nat} {toNat : α → Nat} {ofNat : { n : Nat // n < size } → α}
    (hsize : size ≤ UInt64.size) (hlt : ∀ a, toNat a < size)
    (h : ∀ a, ofNat ⟨toNat a, hlt a⟩ = a) :
    Lossless (fun a => .integer (toNat a)) fun d => (d.natBelow? size).map ofNat where
  reread a d hsame := by
    cases hsame with
    | refl => simp [natBelow?, hlt a, h a]
  ne_null := nofun
  plain a := .natural (Nat.lt_of_lt_of_le (hlt a) hsize)

theorem uint16 : Lossless ofUInt16 uint16? :=
  .natural (by decide) UInt16.toNat_lt_size UInt16.ofNatLT_toNat

theorem uint32 : Lossless ofUInt32 uint32? :=
  .natural (by decide) UInt32.toNat_lt_size UInt32.ofNatLT_toNat

theorem uint64 : Lossless ofUInt64 uint64? :=
  .natural (Nat.le_refl _) UInt64.toNat_lt_size UInt64.ofNatLT_toNat

theorem word {word : α → String} {ofWord? : String → Option α}
    (h : ∀ a, ofWord? (word a) = some a) :
    Lossless (fun a => .text (word a)) fun d => d.word? >>= ofWord? where
  reread a d hsame := by cases hsame with | refl => exact h a
  ne_null := nofun
  plain a := .text (word a)

theorem list (h : Lossless write read?) :
    Lossless (fun as => .list (as.map write)) (list? read?) where
  reread as d hsame := by
    obtain ⟨ds, rfl, hds⟩ := hsame.list_inv
    clear hsame
    rw [List.forall₂_map_left_iff] at hds
    rw [Document.list?]
    induction hds with
    | nil => rfl
    | cons hfirst _ ih => simp [h.reread _ _ hfirst, ih]
  ne_null := nofun
  plain as := .list (List.forall_mem_map.2 fun a _ => h.plain a)

theorem record (hnames : names.Nodup) (hnamed : ∀ a, (write a).Named names)
    (hread : ∀ a written fs, write a = .record written → SameFields written fs →
      read? (.record fs) = some a) : Lossless write read? where
  reread a d hsame := by
    obtain ⟨written, hwrite, -⟩ := hnamed a
    rw [hwrite] at hsame
    obtain ⟨fs, rfl, hfs⟩ := hsame.record_inv
    exact hread a written fs hwrite hfs
  ne_null a := by
    obtain ⟨written, hwrite, -⟩ := hnamed a
    simp [hwrite]
  plain a := by
    obtain ⟨written, hwrite, hwritten⟩ := hnamed a
    rw [hwrite]
    exact .record (hnames.sublist hwritten.sublist) hwritten.plain

end Lossless

namespace Written
variable {fs gs : Fields} {others : List String} {name : String}

theorem nil : Written [] [] := ⟨.slnil, List.forall_mem_nil _⟩

theorem cons {d : Document} (hd : d.Plain) (h : Written names fs) :
    Written (name :: names) ((name, d) :: fs) :=
  ⟨h.sublist.cons_cons name, List.forall_mem_cons.2 ⟨hd, h.plain⟩⟩

theorem append (h : Written names fs) (h' : Written others gs) :
    Written (names ++ others) (fs ++ gs) where
  sublist := by
    rw [List.map_append]
    exact h.sublist.append h'.sublist
  plain := List.forall_mem_append.2 ⟨h.plain, h'.plain⟩

theorem option (h : Lossless write read?) (o : Option α) :
    Written [name] (Fields.ofOption name write o) := by
  cases o with
  | none => exact ⟨List.nil_sublist _, List.forall_mem_nil _⟩
  | some a => exact .cons (h.plain a) .nil

theorem list (h : Lossless write read?) (as : List α) :
    Written [name] (Fields.ofList name write as) := by
  cases as with
  | nil => exact ⟨List.nil_sublist _, List.forall_mem_nil _⟩
  | cons a as => exact .cons (h.list.plain (a :: as)) .nil

end Written
end Document

namespace Fields
open Document
variable {α β : Type} {write : α → Document} {read? : Document → Option α} {name other : String}

@[simp] theorem lookup_ofOption (o : Option α) :
    (ofOption name write o).lookup other = if other = name then o.map write else none := by
  cases o <;> simp [ofOption, lookup_cons_if]

def written (write : α → Document) (as : List α) : Option Document :=
  if as.isEmpty then none else some (.list (as.map write))

@[simp] theorem lookup_ofList (as : List α) :
    (ofList name write as).lookup other = if other = name then written write as else none := by
  cases as <;> simp [ofList, lookup_cons_if, written]

end Fields

namespace Document.SameFields
open Fields
variable {α β : Type} {write : α → Document} {read? : Document → Option α} {name : String}
  {fs gs : Fields} {a : α} {b : β} {d : Document} {next : α → Option β}

theorem lookup_of_some (h : SameFields fs gs) (hlookup : fs.lookup name = some d) :
    ∃ d', gs.lookup name = some d' ∧ d.Same d' := by
  have hsame := h name
  rw [hlookup] at hsame
  generalize gs.lookup name = found at hsame
  cases hsame with
  | some hsame => exact ⟨_, rfl, hsame⟩

theorem lookup_of_none (h : SameFields fs gs) (hlookup : fs.lookup name = none) :
    gs.lookup name = none := by
  have hsame := h name
  rw [hlookup] at hsame
  generalize gs.lookup name = found at hsame
  cases hsame
  rfl

/-! Each of these reads one field and goes on. -/

theorem required (h : SameFields fs gs) (hread : Lossless write read?)
    (hlookup : fs.lookup name = some (write a)) (hnext : next a = some b) :
    (gs.required name read? >>= next) = some b := by
  obtain ⟨d, hd, hsame⟩ := h.lookup_of_some hlookup
  simp [Fields.required, hd, hread.reread a d hsame, hnext]

theorem withDefault {default : α} (h : SameFields fs gs) (hread : Lossless write read?)
    (hlookup : fs.lookup name = some (write a)) (hnext : next a = some b) :
    (gs.withDefault name default read? >>= next) = some b := by
  obtain ⟨d, hd, hsame⟩ := h.lookup_of_some hlookup
  simp [Fields.withDefault, hd, hread.reread a d hsame, hnext]

theorem optional {o : Option α} {next : Option α → Option β} (h : SameFields fs gs)
    (hread : Lossless write read?) (hlookup : fs.lookup name = o.map write)
    (hnext : next o = some b) : (gs.optional name read? >>= next) = some b := by
  cases o with
  | none => simp [Fields.optional, Fields.withDefault, h.lookup_of_none hlookup, hnext]
  | some a =>
    obtain ⟨d, hd, hsame⟩ := h.lookup_of_some hlookup
    have hvalue : orNull read? d = some (some a) := by
      rw [orNull_of_ne (hsame.ne_null (hread.ne_null a)), hread.reread a d hsame]
      rfl
    simp [Fields.optional, Fields.withDefault, hd, hvalue, hnext]

theorem listed {as : List α} {next : List α → Option β} (h : SameFields fs gs)
    (hread : Lossless write read?) (hlookup : fs.lookup name = written write as)
    (hnext : next as = some b) : (gs.withDefault name [] (list? read?) >>= next) = some b := by
  cases as with
  | nil => simp [Fields.withDefault, h.lookup_of_none hlookup, hnext]
  | cons a as => exact h.withDefault hread.list hlookup hnext

end Document.SameFields

end NodeProvisioner
