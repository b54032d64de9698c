import Mathlib.Data.List.Nodup
import NodeProvisioner.KeyMap

/-! Maps are known by their lookups. -/
namespace NodeProvisioner.KeyMap

variable {κ β : Type} [Ord κ] [Std.LawfulEqOrd κ]

theorem ne_of_lt {a b : κ} (h : compare a b = .lt) : a ≠ b := by
  rintro rfl
  simp at h

variable [DecidableEq κ]

theorem find_cons (k : κ) (e : κ × β) (es : List (κ × β)) :
    find k (e :: es) = if k = e.1 then some e.2 else find k es := by
  simp [find]

theorem find_eq_none {k : κ} {es : List (κ × β)} (h : ∀ e ∈ es, k ≠ e.1) : find k es = none := by
  induction es with
  | nil => rfl
  | cons e es ih =>
    obtain ⟨he, hes⟩ := List.forall_mem_cons.1 h
    rw [find_cons, if_neg he, ih hes]

theorem find_of_mem {k : κ} {v : β} {es : List (κ × β)}
    (hes : es.Pairwise fun a b => compare a.1 b.1 = .lt) (h : (k, v) ∈ es) :
    find k es = some v := by
  induction es with
  | nil => cases h
  | cons e es ih =>
    obtain ⟨he, hrest⟩ := List.pairwise_cons.1 hes
    rw [find_cons]
    rcases List.mem_cons.1 h with rfl | h
    · rw [if_pos rfl]
    · rw [if_neg (ne_of_lt (he _ h)).symm, ih hrest h]

theorem find_filter (k : κ) (p : κ → Bool) (es : List (κ × β)) :
    find k (es.filter fun e => p e.1) = if p k then find k es else none := by
  induction es with
  | nil => simp [find]
  | cons e es ih =>
    rw [List.filter_cons, find_cons]
    by_cases hk : k = e.1
    · subst hk
      by_cases hp : p e.1 = true <;> simp [hp, find_cons, ih]
    · by_cases hp : p e.1 = true <;> simp [hp, hk, find_cons, ih]

theorem get?_filter (m : KeyMap κ β) (p : κ → Bool) (k : κ) :
    (m.filter fun k _ => p k).get? k = if p k then m.get? k else none :=
  find_filter k p m.entries

theorem get?_erase (m : KeyMap κ β) (k k' : κ) :
    (m.erase k).get? k' = if k' = k then none else m.get? k' := by
  have hfilter := find_filter k' (fun k' => compare k k' != .eq) m.entries
  have hcompare : (compare k k' != .eq) = true ↔ k' ≠ k := by
    rw [bne_iff_ne, ne_eq, Std.LawfulEqOrd.compare_eq_iff_eq, ne_comm]
  unfold get? erase
  rw [hfilter]
  simp only [hcompare, ite_not]

theorem mem_entries {m : KeyMap κ β} {e : κ × β} : e ∈ m.entries ↔ m.get? e.1 = some e.2 :=
  ⟨find_of_mem m.ascending, mem_entries_of_get?⟩

theorem mem_values {m : KeyMap κ β} {v : β} : v ∈ m.values ↔ ∃ k, m.get? k = some v := by
  simp only [values, List.mem_map, mem_entries, Prod.exists, exists_eq_right]

theorem find_map {γ : Type} (f : β → γ) (k : κ) (es : List (κ × β)) :
    find k (es.map fun e => (e.1, f e.2)) = (find k es).map f := by
  induction es with
  | nil => rfl
  | cons e es ih =>
    rw [List.map_cons, find_cons, find_cons, ih]
    split <;> rfl

theorem get?_mapValues {γ : Type} (f : β → γ) (m : KeyMap κ β) (k : κ) :
    (m.mapValues f).get? k = (m.get? k).map f := find_map f k m.entries

variable [Std.TransOrd κ]

theorem get?_insert (m : KeyMap κ β) (k k' : κ) (v : β) :
    (m.insert k v).get? k' = if k' = k then some v else m.get? k' := by
  split
  · next h =>
    rw [h]
    exact get?_insert_self m k v
  · next h => exact get?_insert_of_ne m v fun heq => h (Std.LawfulEqOrd.eq_of_compare heq)

theorem ext_get? {m n : KeyMap κ β} (h : ∀ k, m.get? k = n.get? k) : m = n := by
  have hnodup (m : KeyMap κ β) : m.entries.Nodup :=
    m.ascending.imp fun hlt heq => ne_of_lt hlt (congrArg Prod.fst heq)
  have hperm : m.entries.Perm n.entries :=
    (List.perm_ext_iff_of_nodup (hnodup m) (hnodup n)).2 fun e => by
      rw [mem_entries, mem_entries, h]
  refine ext (hperm.eq_of_pairwise ?_ m.ascending n.ascending)
  intro a b _ _ hab hba
  exact absurd (Std.TransCmp.lt_trans hab hba) (by simp)

theorem entries_eq {m : KeyMap κ β} {es : List (κ × β)}
    (hes : es.Pairwise fun a b => compare a.1 b.1 = .lt)
    (h : ∀ e, e ∈ es ↔ m.get? e.1 = some e.2) : m.entries = es := by
  have hsame : m = ⟨es, hes⟩ := by
    apply ext_get?
    intro k
    apply Option.ext
    intro v
    exact (h (k, v)).symm.trans (mem_entries (m := ⟨es, hes⟩))
  exact congrArg entries hsame

theorem erase_insert (m : KeyMap κ β) (k : κ) (v : β) : (m.insert k v).erase k = m.erase k := by
  refine ext_get? fun k' => ?_
  rw [get?_erase, get?_erase, get?_insert]
  split <;> rfl

theorem insertInto_eq_map {k : κ} {v w : β} {es : List (κ × β)}
    (hes : es.Pairwise fun a b => compare a.1 b.1 = .lt) (h : find k es = some w) :
    insertInto k v es = es.map fun e => if e.1 = k then (k, v) else e := by
  induction es with
  | nil => cases h
  | cons e es ih =>
    obtain ⟨he, hrest⟩ := List.pairwise_cons.1 hes
    rw [find_cons] at h
    unfold insertInto
    split
    · next hlt =>
      rw [if_neg (ne_of_lt hlt), find_eq_none fun e' he' =>
        ne_of_lt (Std.TransCmp.lt_trans hlt (he e' he'))] at h
      cases h
    · next heq =>
      obtain rfl := Std.LawfulEqOrd.eq_of_compare heq
      have hkeep : (es.map fun e' => if e'.1 = e.1 then (e.1, v) else e') = es :=
        (List.map_congr_left fun e' he' => if_neg (ne_of_lt (he e' he')).symm).trans
          (List.map_id es)
      rw [List.map_cons, if_pos rfl, hkeep]
    · next hgt =>
      have hne : k ≠ e.1 := (ne_of_lt (Std.OrientedCmp.lt_of_gt hgt)).symm
      rw [if_neg hne] at h
      rw [List.map_cons, if_neg hne.symm, ih hrest h]

theorem entries_insert {m : KeyMap κ β} {k : κ} {v w : β} (h : m.get? k = some w) :
    (m.insert k v).entries = m.entries.map fun e => if e.1 = k then (k, v) else e :=
  insertInto_eq_map m.ascending h

theorem get?_foldl_insert {es : List (κ × β)}
    (hes : es.Pairwise fun a b => compare a.1 b.1 = .lt) (m : KeyMap κ β) (k : κ) :
    (es.foldl (fun m e => m.insert e.1 e.2) m).get? k = (find k es <|> m.get? k) := by
  induction es generalizing m with
  | nil => rfl
  | cons e es ih =>
    obtain ⟨he, hrest⟩ := List.pairwise_cons.1 hes
    rw [List.foldl_cons, ih hrest, get?_insert, find_cons]
    split
    · next hk =>
      rw [hk, find_eq_none fun e' he' => ne_of_lt (he e' he')]
      rfl
    · rfl

theorem get?_foldl_insert_of_not_mem {es : List (κ × β)} {k : κ} (h : k ∉ es.map (·.1))
    (m : KeyMap κ β) : (es.foldl (fun m e => m.insert e.1 e.2) m).get? k = m.get? k := by
  induction es generalizing m with
  | nil => rfl
  | cons e es ih =>
    obtain ⟨hk, hes⟩ := List.ne_and_not_mem_of_not_mem_cons h
    rw [List.foldl_cons, ih hes, get?_insert, if_neg hk]

theorem mem_of_get?_foldl_insert {es : List (κ × β)} {m : KeyMap κ β} {k : κ} {v : β}
    (h : (es.foldl (fun m e => m.insert e.1 e.2) m).get? k = some v) :
    (k, v) ∈ es ∨ m.get? k = some v := by
  induction es generalizing m with
  | nil => exact .inr h
  | cons e es ih =>
    rcases ih (m := m.insert e.1 e.2) h with hes | hput
    · exact .inl (List.mem_cons_of_mem e hes)
    · rw [get?_insert] at hput
      split at hput
      · next hk =>
        cases hput
        subst hk
        exact .inl List.mem_cons_self
      · exact .inr hput

theorem mem_of_mem_ofList {es : List (κ × β)} {e : κ × β} (h : e ∈ (ofList es).entries) :
    e ∈ es := by
  rcases mem_of_get?_foldl_insert (mem_entries.1 h) with hmem | hempty
  · exact hmem
  · cases hempty

theorem get?_ofList_concat (es : List (κ × β)) (e : κ × β) (k : κ) :
    (ofList (es ++ [e])).get? k = if k = e.1 then some e.2 else (ofList es).get? k := by
  unfold ofList
  rw [List.foldl_append]
  exact get?_insert _ _ _ _

theorem get?_foldl_insert_of_sole {es : List (κ × β)} {k : κ} {v : β} (h : (k, v) ∈ es)
    (hsole : ∀ w, (k, w) ∈ es → w = v) (m : KeyMap κ β) :
    (es.foldl (fun m e => m.insert e.1 e.2) m).get? k = some v := by
  induction es generalizing m with
  | nil => cases h
  | cons e es ih =>
    have hrest : ∀ w, (k, w) ∈ es → w = v := fun w hw => hsole w (List.mem_cons_of_mem e hw)
    rw [List.foldl_cons]
    by_cases hk : k ∈ es.map (·.1)
    · obtain ⟨⟨k', w⟩, hw, rfl⟩ := List.mem_map.1 hk
      exact ih (hrest w hw ▸ hw) hrest _
    · have hhead : (k, v) = e := by
        rcases List.mem_cons.1 h with heq | hmem
        · exact heq
        · exact absurd (List.mem_map_of_mem hmem) hk
      rw [get?_foldl_insert_of_not_mem hk, ← hhead, get?_insert_self]

@[simp] theorem ofList_entries (m : KeyMap κ β) : ofList m.entries = m := by
  refine ext_get? fun k => ?_
  have hfold := get?_foldl_insert m.ascending empty k
  rw [get?_empty] at hfold
  exact hfold.trans (by cases h : find k m.entries <;> simp [get?, h])

theorem mapValues_insert {γ : Type} (f : β → γ) (m : KeyMap κ β) (k : κ) (v : β) :
    (m.insert k v).mapValues f = (m.mapValues f).insert k (f v) := by
  apply ext_get?
  intro k'
  rw [get?_mapValues, get?_insert, get?_insert, get?_mapValues]
  split <;> rfl

theorem mapValues_ofList {γ : Type} (f : β → γ) (es : List (κ × β)) :
    (ofList es).mapValues f = ofList (es.map fun e => (e.1, f e.2)) := by
  have hfold (m : KeyMap κ β) : (es.foldl (fun m e => m.insert e.1 e.2) m).mapValues f =
      (es.map fun e => (e.1, f e.2)).foldl (fun m e => m.insert e.1 e.2) (m.mapValues f) := by
    induction es generalizing m with
    | nil => rfl
    | cons e es ih => rw [List.foldl_cons, ih, List.map_cons, List.foldl_cons, mapValues_insert]
  exact hfold empty

theorem get?_union (m n : KeyMap κ β) (k : κ) :
    (m.union n).get? k = (n.get? k <|> m.get? k) := get?_foldl_insert n.ascending m k

end NodeProvisioner.KeyMap
