/-! Finite maps kept as lists in strictly ascending key order, so two maps with the same bindings
are the same value, and walking a map visits its keys in order. -/
namespace NodeProvisioner

/-- Bindings in strictly ascending key order. -/
structure KeyMap (κ : Type) (β : Type) [Ord κ] where
  entries : List (κ × β)
  ascending : entries.Pairwise fun a b => compare a.1 b.1 = .lt

namespace KeyMap

variable {κ β : Type} [Ord κ]

@[ext] theorem ext {m n : KeyMap κ β} (h : m.entries = n.entries) : m = n := by
  cases m; cases n; cases h; rfl

instance [DecidableEq κ] [DecidableEq β] : DecidableEq (KeyMap κ β) := fun m n =>
  decidable_of_iff (m.entries = n.entries) ⟨ext, fun h => h ▸ rfl⟩

def empty : KeyMap κ β := ⟨[], .nil⟩

instance : EmptyCollection (KeyMap κ β) := ⟨empty⟩

instance : Inhabited (KeyMap κ β) := ⟨empty⟩

def isEmpty (m : KeyMap κ β) : Bool := m.entries.isEmpty

def keys (m : KeyMap κ β) : List κ := m.entries.map (·.1)

def values (m : KeyMap κ β) : List β := m.entries.map (·.2)

/-- Looks a key up in a list of bindings; the first binding counts. -/
def find (k : κ) : List (κ × β) → Option β
  | [] => none
  | e :: es => if compare k e.1 = .eq then some e.2 else find k es

def get? (m : KeyMap κ β) (k : κ) : Option β := find k m.entries

def contains (m : KeyMap κ β) (k : κ) : Bool := (m.get? k).isSome

def insertInto (k : κ) (v : β) : List (κ × β) → List (κ × β)
  | [] => [(k, v)]
  | e :: es =>
    match compare k e.1 with
    | .lt => (k, v) :: e :: es
    | .eq => (k, v) :: es
    | .gt => e :: insertInto k v es

theorem mem_insertInto {k : κ} {v : β} {a : κ × β} {es : List (κ × β)}
    (h : a ∈ insertInto k v es) : a = (k, v) ∨ a ∈ es := by
  induction es with
  | nil => simpa [insertInto] using h
  | cons e es ih =>
    unfold insertInto at h
    split at h
    · simpa using h
    · rcases List.mem_cons.1 h with h | h
      · exact .inl h
      · exact .inr (List.mem_cons_of_mem _ h)
    · rcases List.mem_cons.1 h with h | h
      · exact .inr (h ▸ List.mem_cons_self)
      · exact (ih h).imp_right (List.mem_cons_of_mem _)

theorem find_insertInto_self [Std.ReflOrd κ] (k : κ) (v : β) (es : List (κ × β)) :
    find k (insertInto k v es) = some v := by
  induction es with
  | nil => simp [insertInto, find]
  | cons e es ih =>
    unfold insertInto
    split
    · simp [find]
    · simp [find]
    · next h => simp [find, h, ih]

theorem find_insertInto_of_ne [Std.TransOrd κ] {k k' : κ} (v : β) (es : List (κ × β))
    (h : compare k' k ≠ .eq) : find k' (insertInto k v es) = find k' es := by
  induction es with
  | nil => simp [insertInto, find, h]
  | cons e es ih =>
    unfold insertInto
    split
    · simp [find, h]
    · next he =>
      have : compare k' e.1 ≠ .eq := fun h' =>
        h (Std.TransCmp.eq_trans h' (Std.OrientedCmp.eq_symm he))
      simp [find, h, this]
    · simp [find, ih]

theorem pairwise_insertInto [Std.TransOrd κ] (k : κ) (v : β) {es : List (κ × β)}
    (h : es.Pairwise fun a b => compare a.1 b.1 = .lt) :
    (insertInto k v es).Pairwise fun a b => compare a.1 b.1 = .lt := by
  induction es with
  | nil => simp [insertInto]
  | cons e es ih =>
    obtain ⟨he, hes⟩ := List.pairwise_cons.1 h
    unfold insertInto
    split
    · next hlt =>
      refine List.pairwise_cons.2 ⟨fun b hb => ?_, h⟩
      rcases List.mem_cons.1 hb with rfl | hb
      · exact hlt
      · exact Std.TransCmp.lt_trans hlt (he b hb)
    · next heq =>
      exact List.pairwise_cons.2 ⟨fun b hb => Std.TransCmp.lt_of_eq_of_lt heq (he b hb), hes⟩
    · next hgt =>
      refine List.pairwise_cons.2 ⟨fun b hb => ?_, ih hes⟩
      rcases mem_insertInto hb with rfl | hb
      · exact Std.OrientedCmp.lt_of_gt hgt
      · exact he b hb

def erase (m : KeyMap κ β) (k : κ) : KeyMap κ β :=
  ⟨m.entries.filter fun e => compare k e.1 != .eq, m.ascending.filter _⟩

def filter (m : KeyMap κ β) (p : κ → β → Bool) : KeyMap κ β :=
  ⟨m.entries.filter fun e => p e.1 e.2, m.ascending.filter _⟩

def mapValues {γ : Type} (f : β → γ) (m : KeyMap κ β) : KeyMap κ γ :=
  ⟨m.entries.map fun e => (e.1, f e.2), m.ascending.map _ fun _ _ h => h⟩

section ordered
variable [Std.TransOrd κ]

def insert (m : KeyMap κ β) (k : κ) (v : β) : KeyMap κ β :=
  ⟨insertInto k v m.entries, pairwise_insertInto k v m.ascending⟩

@[simp] theorem get?_insert_self (m : KeyMap κ β) (k : κ) (v : β) :
    (m.insert k v).get? k = some v := find_insertInto_self k v m.entries

theorem get?_insert_of_ne (m : KeyMap κ β) {k k' : κ} (v : β) (h : compare k' k ≠ .eq) :
    (m.insert k v).get? k' = m.get? k' := find_insertInto_of_ne v m.entries h

/-- The last binding of a key counts. -/
def ofList (es : List (κ × β)) : KeyMap κ β :=
  es.foldl (fun m e => m.insert e.1 e.2) empty

def union (m n : KeyMap κ β) : KeyMap κ β :=
  n.entries.foldl (fun m e => m.insert e.1 e.2) m

end ordered

@[simp] theorem get?_empty (k : κ) : (empty : KeyMap κ β).get? k = none := rfl

theorem mem_entries_of_get? [Std.LawfulEqOrd κ] {m : KeyMap κ β} {k : κ} {v : β}
    (h : m.get? k = some v) : (k, v) ∈ m.entries := by
  unfold get? at h
  generalize m.entries = es at h ⊢
  induction es with
  | nil => cases h
  | cons e es ih =>
    unfold find at h
    split at h
    · next heq =>
      cases h
      rw [Std.LawfulEqOrd.eq_of_compare heq]
      exact List.mem_cons_self
    · exact List.mem_cons_of_mem e (ih h)

end KeyMap

/-- A set kept in strictly ascending order. -/
abbrev KeySet (κ : Type) [Ord κ] := KeyMap κ Unit

namespace KeySet

variable {κ : Type} [Ord κ]

def toList (s : KeySet κ) : List κ := KeyMap.keys s

def ofList [Std.TransOrd κ] (ks : List κ) : KeySet κ := KeyMap.ofList (ks.map (·, ()))

end KeySet
end NodeProvisioner
