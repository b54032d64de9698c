import Mathlib.Data.List.Nodup
import NodeProvisioner.Machine.Provenance
import NodeProvisioner.Proofs.Latest
import NodeProvisioner.Proofs.Text.Reading

/-! What a description is read back as. A plain text stays on its line, so the lines that were
written are the lines that are read, and nothing that is read was not plain. -/
namespace NodeProvisioner

namespace Text

/-- Fits on one line, and does not end in a blank. -/
structure Plain (s : String) : Prop where
  oneLine : '\n' ∉ s.toList
  noBlankEnd : s.toList.getLast?.any isBlank = false

instance (s : String) : Decidable (Plain s) :=
  decidable_of_iff (_ ∧ _) ⟨fun h => ⟨h.1, h.2⟩, fun h => ⟨h.oneLine, h.noBlankEnd⟩⟩

end Text

namespace Provenance

/-- All that is written can be read. -/
structure Plain (p : Provenance) : Prop where
  nodeClaim : ∀ v ∈ p.nodeClaim, Text.Plain v
  nodeClass : ∀ v ∈ p.nodeClass, Text.Plain v
  instanceType : ∀ v ∈ p.instanceType, Text.Plain v
  capacityType : ∀ v ∈ p.capacityType, Text.Plain v
  template : ∀ v ∈ p.template, Text.Plain v

/-! ### Fields -/

inductive Field where
  | nodeClaim | nodeClass | instanceType | capacityType | template
  deriving DecidableEq

namespace Field

def all : List Field := [nodeClaim, nodeClass, instanceType, capacityType, template]

def key : Field → String
  | nodeClaim => "nodeclaim"
  | nodeClass => "nodeclass"
  | instanceType => "instance-type"
  | capacityType => "capacity-type"
  | template => "template"

/-- The line has this value for the field. -/
def Tells (f : Field) (line value : String) : Prop := Text.trim line = f.key ++ "=" ++ value

theorem mem_all (f : Field) : f ∈ all := by cases f <;> decide

theorem key_injective {f g : Field} (h : f.key = g.key) : f = g :=
  List.inj_on_of_nodup_map (by decide : (all.map key).Nodup) f.mem_all g.mem_all h

theorem key_oneLine (f : Field) : '\n' ∉ f.key.toList := by cases f <;> decide

theorem key_notCut (f : Field) : '=' ∉ f.key.toList := by cases f <;> decide

theorem key_noBlankStart (f : Field) : f.key.toList.head?.any Text.isBlank = false := by
  cases f <;> decide

variable {f g : Field} {line v : String}

theorem tells_iff : f.Tells line v ↔ Text.cut? '=' (Text.trim line) = some (f.key, v) := by
  have hcut : Text.cut? '=' (Text.trim line) = some (f.key, v) ↔
      f.Tells line v ∧ '=' ∉ f.key.toList := Text.cut?_eq_some rfl
  rw [hcut, and_iff_left f.key_notCut]

theorem Tells.unique {w : String} (h : f.Tells line v) (h' : g.Tells line w) : f = g ∧ v = w := by
  rw [tells_iff] at h h'
  obtain ⟨hkey, hvalue⟩ := Prod.mk.inj (Option.some.inj (h.symm.trans h'))
  exact ⟨key_injective hkey, hvalue⟩

theorem toList_line (f : Field) (v : String) :
    (f.key ++ "=" ++ v).toList = f.key.toList ++ '=' :: v.toList := by simp

theorem last_line (f : Field) (v : String) :
    (f.key ++ "=" ++ v).toList.getLast? = some (v.toList.getLast?.getD '=') := by
  rw [toList_line, List.getLast?_append, List.getLast?_cons, Option.some_or]

theorem tells_line (hv : Text.Plain v) : f.Tells (f.key ++ "=" ++ v) v := by
  refine Text.trim_eq ?_ ?_
  · have hstart := f.key_noBlankStart
    rw [toList_line]
    cases hk : f.key.toList with
    | nil => cases f <;> cases hk
    | cons c cs => simpa [hk] using hstart
  · have hend := hv.noBlankEnd
    rw [last_line]
    cases hlast : v.toList.getLast? with
    | none => exact (by decide : Text.isBlank '=' = false)
    | some c => simpa [hlast] using hend

theorem Tells.plain (h : f.Tells line v) (hline : '\n' ∉ line.toList) : Text.Plain v where
  oneLine hv := by
    have hmem : '\n' ∈ (Text.trim line).toList := by
      rw [h, toList_line]
      simp [hv]
    exact hline (Text.mem_of_mem_trim hmem)
  noBlankEnd := by
    have hlast := Text.last_trim line
    rw [h, last_line] at hlast
    cases hv : v.toList.getLast? with
    | none => rfl
    | some c => simpa [hv] using hlast

end Field

/-- The line has no value for any field. -/
def Silent (line : String) : Prop := ∀ (f : Field) (v : String), ¬ f.Tells line v

def get (p : Provenance) : Field → Option String
  | .nodeClaim => p.nodeClaim
  | .nodeClass => p.nodeClass
  | .instanceType => p.instanceType
  | .capacityType => p.capacityType
  | .template => p.template

def put (p : Provenance) (v : String) : Field → Provenance
  | .nodeClaim => { p with nodeClaim := some v }
  | .nodeClass => { p with nodeClass := some v }
  | .instanceType => { p with instanceType := some v }
  | .capacityType => { p with capacityType := some v }
  | .template => { p with template := some v }

theorem ext_get {p q : Provenance} (h : ∀ f, p.get f = q.get f) : p = q := by
  cases p
  cases q
  simp only [Provenance.mk.injEq]
  exact ⟨h .nodeClaim, h .nodeClass, h .instanceType, h .capacityType, h .template⟩

theorem get_empty (f : Field) : ({} : Provenance).get f = none := by cases f <;> rfl

theorem get_put (p : Provenance) (v : String) (f g : Field) :
    (p.put v f).get g = if g = f then some v else p.get g := by
  cases f <;> cases g <;> rfl

theorem plain_iff {p : Provenance} : p.Plain ↔ ∀ f, ∀ v ∈ p.get f, Text.Plain v := by
  constructor
  · intro h f
    cases f with
    | nodeClaim => exact h.nodeClaim
    | nodeClass => exact h.nodeClass
    | instanceType => exact h.instanceType
    | capacityType => exact h.capacityType
    | template => exact h.template
  · intro h
    exact ⟨h .nodeClaim, h .nodeClass, h .instanceType, h .capacityType, h .template⟩

theorem render_eq (p : Provenance) : p.render =
    String.intercalate "\n" (marker :: Field.all.flatMap fun f => line f.key (p.get f)) := by
  simp [render, Field.all, Field.key, get]

/-! ### Reading -/

variable {p q : Provenance} {l v : String} {f : Field}

theorem readLine_of_tells (h : f.Tells l v) (p : Provenance) : readLine p l = p.put v f := by
  unfold readLine
  rw [Field.tells_iff.1 h]
  cases f <;> rfl

theorem readLine_of_silent (h : Silent l) (p : Provenance) : readLine p l = p := by
  unfold readLine
  split
  · next v hcut => exact absurd (Field.tells_iff.2 hcut) (h .nodeClaim v)
  · next v hcut => exact absurd (Field.tells_iff.2 hcut) (h .nodeClass v)
  · next v hcut => exact absurd (Field.tells_iff.2 hcut) (h .instanceType v)
  · next v hcut => exact absurd (Field.tells_iff.2 hcut) (h .capacityType v)
  · next v hcut => exact absurd (Field.tells_iff.2 hcut) (h .template v)
  · rfl

theorem get_readLine (f : Field) (p : Provenance) (l v : String) :
    (readLine p l).get f = some v ↔ f.Tells l v ∨ (∀ w, ¬ f.Tells l w) ∧ p.get f = some v := by
  by_cases h : Silent l
  · rw [readLine_of_silent h]
    simp [h f]
  · simp only [Silent, not_forall, not_not] at h
    obtain ⟨g, w, htells⟩ := h
    rw [readLine_of_tells htells, get_put]
    split
    · next hfg =>
      subst hfg
      constructor
      · rintro ⟨⟩
        exact .inl htells
      · rintro (hv | ⟨hnot, -⟩)
        · rw [(hv.unique htells).2]
        · exact absurd htells (hnot w)
    · next hfg =>
      have hnot : ∀ w, ¬ f.Tells l w := fun _ hf => hfg (hf.unique htells).1
      simp [hnot]

theorem get_parse {s : String} : (parse s).get f = some v ↔
    Latest f.Tells (Text.pieces '\n' s) v := by
  have hstart : ∀ w, ({} : Provenance).get f ≠ some w := by simp [get_empty]
  exact Latest.foldl_iff (fun (q : Provenance) v => q.get f = some v) hstart (get_readLine f)

theorem plain_parse (s : String) : (parse s).Plain := by
  rw [plain_iff]
  intro f v hv
  obtain ⟨l, hl, htells⟩ := (get_parse.1 hv).mem
  exact htells.plain (Text.not_mem_of_mem_pieces hl)

/-! ### Reading what was written -/

theorem silent_marker : Silent marker := by
  intro f v
  have hcut : Text.cut? '=' (Text.trim marker) = some ("managed-by", "kpve") := by decide +kernel
  rw [Field.tells_iff, hcut]
  cases f <;> simp [Field.key]

theorem not_mem_line {o : Option String} (h : ∀ v ∈ o, Text.Plain v) :
    ∀ l ∈ line f.key o, '\n' ∉ l.toList := by
  cases o with
  | none =>
    intro l hl
    exact absurd hl List.not_mem_nil
  | some v =>
    intro l hl
    obtain rfl := List.mem_singleton.1 hl
    simp only [String.toList_append, List.mem_append, not_or]
    exact ⟨⟨f.key_oneLine, by decide⟩, (h v rfl).oneLine⟩

theorem get_foldl_line {o : Option String} (h : ∀ v ∈ o, Text.Plain v) (q : Provenance)
    (g : Field) : ((line f.key o).foldl readLine q).get g =
      if g = f then o <|> q.get g else q.get g := by
  cases o with
  | none => exact (ite_self _).symm
  | some v =>
    rw [line, List.foldl_cons, List.foldl_nil, readLine_of_tells (Field.tells_line (h v rfl)),
      get_put]
    rfl

/-- The lines of some fields give these fields their values and leave the others alone. -/
theorem get_foldl_lines (h : p.Plain) (fs : List Field) (q : Provenance) (g : Field) :
    ((fs.flatMap fun f => line f.key (p.get f)).foldl readLine q).get g =
      if g ∈ fs then p.get g <|> q.get g else q.get g := by
  induction fs generalizing q with
  | nil => rfl
  | cons f fs ih =>
    rw [List.flatMap_cons, List.foldl_append, ih, get_foldl_line (plain_iff.1 h f)]
    by_cases hg : g = f
    · subst hg
      cases p.get g <;> simp
    · simp [hg]

theorem parse_render (h : p.Plain) : parse p.render = p := by
  have hlines : ∀ l ∈ marker :: Field.all.flatMap fun f => line f.key (p.get f),
      '\n' ∉ l.toList := by
    refine List.forall_mem_cons.2 ⟨by decide, fun l hl => ?_⟩
    obtain ⟨f, -, hf⟩ := List.mem_flatMap.1 hl
    exact not_mem_line (plain_iff.1 h f) l hf
  apply ext_get
  intro f
  unfold parse
  rw [render_eq, Text.pieces_intercalate rfl (List.cons_ne_nil _ _) hlines, List.foldl_cons,
    readLine_of_silent silent_marker, get_foldl_lines h, if_pos f.mem_all,
    get_empty]
  simp

/-! ### Other lines -/

/-- A line that is no part of what is told: it has no equals sign, or another word than a key stands
before the first one. -/
structure Aside (l : String) : Prop where
  oneLine : '\n' ∉ l.toList
  noKey : ∀ k v, Text.trim l = k ++ "=" ++ v → '=' ∉ k.toList → k ∉ Field.all.map Field.key

theorem aside_iff : Aside l ↔ '\n' ∉ l.toList ∧
    ∀ kv ∈ Text.cut? '=' (Text.trim l), kv.1 ∉ Field.all.map Field.key := by
  have hcut (k v : String) : Text.cut? '=' (Text.trim l) = some (k, v) ↔
      Text.trim l = k ++ "=" ++ v ∧ '=' ∉ k.toList := Text.cut?_eq_some rfl
  simp only [Option.mem_def, Prod.forall, hcut, and_imp]
  exact ⟨fun h => ⟨h.oneLine, h.noKey⟩, fun h => ⟨h.1, h.2⟩⟩

instance (l : String) : Decidable (Aside l) := decidable_of_iff _ aside_iff.symm

theorem Aside.silent (h : Aside l) : Silent l := fun f v htells =>
  h.noKey f.key v htells f.key_notCut (List.mem_map_of_mem f.mem_all)

theorem foldl_aside {ls : List String} (h : ∀ l ∈ ls, Aside l) (p : Provenance) :
    (ls.flatMap (Text.pieces '\n')).foldl readLine p = p := by
  induction ls with
  | nil => rfl
  | cons l ls ih =>
    obtain ⟨hl, hls⟩ := List.forall_mem_cons.1 h
    rw [List.flatMap_cons, Text.pieces_of_not_mem hl.oneLine, List.singleton_append,
      List.foldl_cons, readLine_of_silent hl.silent, ih hls]

theorem parse_amid {before after : List String} (hbefore : ∀ l ∈ before, Aside l)
    (hafter : ∀ l ∈ after, Aside l) (text : String) :
    parse (String.intercalate "\n" (before ++ text :: after)) = parse text := by
  unfold parse
  rw [Text.pieces_intercalate_eq rfl (by simp), List.flatMap_append, List.flatMap_cons,
    List.foldl_append, List.foldl_append, foldl_aside hbefore, foldl_aside hafter]

/-- What was written is read back, also amid other lines, if it is plain, and if not, then not. -/
theorem parse_amid_render_iff (p : Provenance) :
    (parse p.render = p ↔ p.Plain) ∧
    ∀ before after : List String, (∀ l ∈ before ++ after, Aside l) →
      (parse (String.intercalate "\n" (before ++ p.render :: after)) = p ↔ p.Plain) := by
  have hiff : parse p.render = p ↔ p.Plain := ⟨fun h => h ▸ plain_parse p.render, parse_render⟩
  refine ⟨hiff, fun before after h => ?_⟩
  obtain ⟨hbefore, hafter⟩ := List.forall_mem_append.1 h
  rw [parse_amid hbefore hafter, hiff]

theorem parse_amid_render_iff_noted :
    let p : Provenance := { nodeClaim := some "a=b", nodeClass := some "", template := some " r1" }
    let before := ["hand written notes", " nodeclaim =other\r"]
    let after := ["kept-by=nodeclaim=other", ""]
    p.Plain ∧ (∀ l ∈ before ++ after, Aside l) ∧
      parse (String.intercalate "\n" (before ++ p.render :: after)) = p := by
  intro p before after
  have hplain : p.Plain := ⟨by decide, by decide, by decide, by decide, by decide⟩
  have haside : ∀ l ∈ before ++ after, Aside l := by decide +kernel
  exact ⟨hplain, haside, ((parse_amid_render_iff p).2 before after haside).2 hplain⟩

end Provenance
end NodeProvisioner
