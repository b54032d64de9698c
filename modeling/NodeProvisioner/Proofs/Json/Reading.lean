import NodeProvisioner.Json.Reading
import NodeProvisioner.Proofs.Json.Lexing
import NodeProvisioner.Proofs.KeyMap

/-! Written JSON read back. The text of a document gives the document itself, but for the fields of
records, which come in order of their names. -/
namespace NodeProvisioner

namespace Json
open Token

/-- Where a value is expected, these tokens are read as this one, whatever is still open. -/
def Means (ts : List Token) (d : Document) : Prop :=
  ∀ stack, ts.foldlM State.next (.value stack) = some (.complete d stack)

def Reads (cs : List Char) (d : Document) : Prop := ∃ ts, Spells cs ts ∧ Means ts d

variable {cs : List Char} {ts : List Token} {d : Document}

theorem Means.foldlM (h : Means ts d) (stack : List Frame) :
    ts.foldlM State.next (.value stack) = some (.complete d stack) := h stack

theorem Means.leaf (d : Document) : Means [leaf d] d := fun _ => rfl

theorem Means.firstItem (h : Means ts d) (stack : List Frame) :
    ts.foldlM State.next (.firstItem stack) = some (.complete d (.items [] :: stack)) := by
  have hvalue := h (.items [] :: stack)
  cases ts with
  | nil => cases hvalue
  | cons t ts =>
    cases t with
    | closeList => cases hvalue
    | _ => exact hvalue

theorem intercalate_cons {α : Type} (sep xs : List α) (xss : List (List α)) :
    sep.intercalate (xs :: xss) = xs ++ xss.flatMap (sep ++ ·) := by
  induction xss generalizing xs with
  | nil => simp
  | cons ys xss ih => simp [List.intercalate_cons_cons, ih]

theorem ending_flatMap {α : Type} {f : α → List Char} {close : Char} {t : Token}
    (hclose : mark? close = some t) (as : List α) (rest : List Char) :
    Ending ((as.flatMap fun a => ',' :: f a) ++ [close] ++ rest) := by
  cases as with
  | nil => exact ⟨t, hclose⟩
  | cons a as => exact ⟨comma, rfl⟩

theorem reads_items {css : List (List Char)} {ds : List Document} (h : List.Forall₂ Reads css ds) :
    ∃ ts, Spells ((css.flatMap fun cs => ',' :: cs) ++ [']']) ts ∧ ∀ before d stack,
      ts.foldlM State.next (.complete d (.items before :: stack)) =
        some (.complete (.list (before.reverse ++ d :: ds)) stack) := by
  induction h with
  | nil =>
    refine ⟨[closeList], .mark rfl, fun before d stack => ?_⟩
    simp [State.next]
  | @cons cs d' css ds hfirst hothers ih =>
    obtain ⟨ts, hspells, hmeans⟩ := hfirst
    obtain ⟨others, hspells', hmeans'⟩ := ih
    refine ⟨comma :: (ts ++ others), ?_, fun before d stack => ?_⟩
    · have happend := hspells.append hspells' (ending_flatMap rfl css)
      simpa using Spells.cons_mark (c := ',') rfl happend
    · simp [List.foldlM_append, State.next, hmeans.foldlM, hmeans']

theorem reads_list {css : List (List Char)} {ds : List Document} (h : List.Forall₂ Reads css ds) :
    Reads ('[' :: ([','].intercalate css ++ [']'])) (.list ds) := by
  cases h with
  | nil => exact ⟨[openList, closeList], .cons_mark rfl (.mark rfl), fun stack => rfl⟩
  | @cons cs d css ds hfirst hothers =>
    obtain ⟨ts, hspells, hmeans⟩ := hfirst
    obtain ⟨others, hspells', hmeans'⟩ := reads_items hothers
    refine ⟨openList :: (ts ++ others), ?_, fun stack => ?_⟩
    · have happend := hspells.append hspells' (ending_flatMap rfl css)
      simpa [intercalate_cons] using Spells.cons_mark (c := '[') rfl happend
    · simp [List.foldlM_append, State.next, hmeans.firstItem, hmeans', State.start]

def member (f : String × String) : List Char := (quote f.1).toList ++ ':' :: f.2.toList

structure ReadsField (written : String × String) (f : String × Document) : Prop where
  name : written.1 = f.1
  value : Reads written.2.toList f.2

theorem ReadsField.member {written : String × String} {f : String × Document}
    (h : ReadsField written f) : ∃ ts, Means ts f.2 ∧
      Spells (member written) (leaf (.text f.1) :: colon :: ts) := by
  obtain ⟨hname, ts, hspells, hmeans⟩ := h
  refine ⟨ts, hmeans, ?_⟩
  rw [Json.member, hname]
  exact (Spells.quote f.1).append (.cons_mark rfl hspells) fun _ => ⟨colon, rfl⟩

theorem reads_fields {written : List (String × String)} {fs : Fields}
    (h : List.Forall₂ ReadsField written fs) :
    ∃ ts, Spells ((written.flatMap fun f => ',' :: member f) ++ ['\x7d']) ts ∧
      ∀ before name d stack, ts.foldlM State.next (.complete d (.fields before name :: stack)) =
        some (.complete (.record (KeyMap.ofList (before.reverse ++ (name, d) :: fs)).entries)
          stack) := by
  induction h with
  | nil =>
    refine ⟨[closeRecord], .mark rfl, fun before name d stack => ?_⟩
    simp [State.next, State.close]
  | @cons w f written fs hfirst hothers ih =>
    obtain ⟨ts, hmeans, hspells⟩ := hfirst.member
    obtain ⟨others, hspells', hmeans'⟩ := ih
    refine ⟨comma :: leaf (.text f.1) :: colon :: (ts ++ others), ?_, fun before name d stack => ?_⟩
    · have happend := hspells.append hspells' (ending_flatMap rfl written)
      simpa using Spells.cons_mark (c := ',') rfl happend
    · simp [List.foldlM_append, State.next, hmeans.foldlM, hmeans']

theorem reads_record {written : List (String × String)} {fs : Fields}
    (h : List.Forall₂ ReadsField written fs) :
    Reads ('\x7b' :: ([','].intercalate (written.map member) ++ ['\x7d']))
      (.record (KeyMap.ofList fs).entries) := by
  cases h with
  | nil => exact ⟨[openRecord, closeRecord], .cons_mark rfl (.mark rfl), fun stack => rfl⟩
  | @cons w f written fs hfirst hothers =>
    obtain ⟨ts, hmeans, hspells⟩ := hfirst.member
    obtain ⟨others, hspells', hmeans'⟩ := reads_fields hothers
    refine ⟨openRecord :: leaf (.text f.1) :: colon :: (ts ++ others), ?_, fun stack => ?_⟩
    · have happend := hspells.append hspells' (ending_flatMap rfl written)
      simpa [intercalate_cons, List.flatMap_map] using Spells.cons_mark (c := '\x7b') rfl happend
    · simp [List.foldlM_append, State.next, hmeans.foldlM, hmeans', State.start]

end Json

namespace Document

mutual

/-- The same document with the fields of all records in order of their names. -/
def sorted : Document → Document
  | .list items => .list (sortedItems items)
  | .record fields => .record (KeyMap.ofList (sortedFields fields)).entries
  | d => d

def sortedItems : List Document → List Document
  | [] => []
  | d :: ds => d.sorted :: sortedItems ds

def sortedFields : Fields → Fields
  | [] => []
  | (name, d) :: fs => (name, d.sorted) :: sortedFields fs

end

theorem sortedItems_eq (items : List Document) : sortedItems items = items.map sorted := by
  induction items with
  | nil => rfl
  | cons d ds ih => rw [sortedItems, ih, List.map_cons]

theorem sortedFields_eq (fields : Fields) :
    sortedFields fields = fields.map fun f => (f.1, f.2.sorted) := by
  induction fields with
  | nil => rfl
  | cons f fs ih => rw [sortedFields, ih, List.map_cons]

theorem writeItems_eq (decimal : Binary64 → String) (items : List Document) :
    writeItems decimal items = items.map (write decimal) := by
  induction items with
  | nil => rfl
  | cons d ds ih => rw [writeItems, ih, List.map_cons]

theorem writeFields_eq (decimal : Binary64 → String) (fields : Fields) :
    writeFields decimal fields = fields.map fun f => (f.1, f.2.write decimal) := by
  induction fields with
  | nil => rfl
  | cons f fs ih => rw [writeFields, ih, List.map_cons]

/-- Documents without decimals and large numbers, which are written in a form of their own, and
without a name that comes twice in a record. -/
inductive Plain : Document → Prop where
  | null : Plain .null
  | bool (b : Bool) : Plain (.bool b)
  | text (s : String) : Plain (.text s)
  | natural {n : Nat} (h : n < UInt64.size) : Plain (.integer n)
  | list {items : List Document} (h : ∀ d ∈ items, Plain d) : Plain (.list items)
  | record {fields : Fields} (hnames : (fields.map (·.1)).Nodup)
      (h : ∀ f ∈ fields, Plain f.2) : Plain (.record fields)

theorem toList_toJson_list (items : List Document) : (list items).toJson.toList =
    '[' :: ([','].intercalate (items.map fun d => d.toJson.toList) ++ [']']) := by
  simp [toJson, write, Json.list, writeItems_eq, String.toList_intercalate, Function.comp_def]

theorem toList_toJson_record (fields : Fields) : (record fields).toJson.toList =
    '\x7b' :: ([','].intercalate (((KeyMap.ofList fields).entries.map
      fun f => (f.1, f.2.toJson)).map Json.member) ++ ['\x7d']) := by
  have hentries := congrArg KeyMap.entries (KeyMap.mapValues_ofList (write Json.decimal) fields)
  simp [toJson, write, Json.record, writeFields_eq, ← hentries, KeyMap.mapValues,
    String.toList_intercalate, Function.comp_def, Json.member]

open Json in
theorem Plain.reads {d : Document} (h : d.Plain) : Reads d.toJson.toList d.sorted := by
  have hword {cs : List Char} {d : Document} (hcs : Token.word? cs = some (.leaf d))
      (hletters : cs ≠ [] ∧ cs.all Char.isAlphanum = true) : Reads cs d :=
    ⟨_, .ofWord hcs hletters.1 fun c hc => .of_isAlphanum (List.all_eq_true.1 hletters.2 c hc),
      .leaf d⟩
  induction h with
  | null => exact hword (by rfl) (by decide)
  | bool b => cases b <;> exact hword (by rfl) (by decide)
  | text s => exact ⟨_, .quote s, .leaf (.text s)⟩
  | natural hn => exact ⟨_, .numeral hn, .leaf _⟩
  | @list items _ ih =>
    rw [toList_toJson_list, sorted, sortedItems_eq]
    apply reads_list
    rw [List.forall₂_map_left_iff, List.forall₂_map_right_iff, List.forall₂_same]
    exact ih
  | @record fields _ _ ih =>
    have hread : List.Forall₂ ReadsField
        ((KeyMap.ofList fields).entries.map fun f => (f.1, f.2.toJson))
        ((KeyMap.ofList fields).mapValues sorted).entries := by
      rw [KeyMap.mapValues, List.forall₂_map_left_iff, List.forall₂_map_right_iff,
        List.forall₂_same]
      exact fun f hf => ⟨rfl, ih f (KeyMap.mem_of_mem_ofList hf)⟩
    have hfields := reads_record hread
    rw [KeyMap.ofList_entries, KeyMap.mapValues_ofList, ← sortedFields_eq] at hfields
    rw [toList_toJson_record, sorted]
    exact hfields

/-- The text of a document gives it back, with its fields in order. -/
theorem ofJson?_toJson {d : Document} (h : d.Plain) : ofJson? d.toJson = some d.sorted := by
  obtain ⟨ts, hspells, hmeans⟩ := h.reads
  have htokens : Json.Token.all? d.toJson = some ts := by
    have hall := hspells [] [] trivial
    rw [List.append_nil] at hall
    simp [Json.Token.all?, hall, Json.Token.between]
  simp [ofJson?, htokens, hmeans.foldlM]

end Document

end NodeProvisioner
