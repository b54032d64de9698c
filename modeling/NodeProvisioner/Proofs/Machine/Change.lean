import NodeProvisioner.Proofs.Machine.Reading

/-! Options after a change: what was set is set, what was removed is gone, the rest is as before. -/
namespace NodeProvisioner.Change

def applyTo (c : Change) (o : Options) : Options :=
  (o.filter fun k _ => !c.delete.contains k).union c.set

theorem get?_applyTo (c : Change) (o : Options) (k : String) : (c.applyTo o).get? k =
    (c.set.get? k <|> if c.delete.contains k then none else o.get? k) := by
  rw [applyTo, KeyMap.get?_union, KeyMap.get?_filter]
  cases c.delete.contains k <;> rfl

theorem get?_applyTo_of_set {c : Change} {k v : String} (h : c.set.get? k = some v) (o : Options) :
    (c.applyTo o).get? k = some v := by
  rw [get?_applyTo, h]
  rfl

theorem get?_applyTo_of_unnamed {c : Change} {k : String} (hset : c.set.get? k = none)
    (hdelete : c.delete = ∅) (o : Options) : (c.applyTo o).get? k = o.get? k := by
  rw [get?_applyTo, hset, hdelete]
  rfl

theorem applyTo_empty (o : Options) : ({} : Change).applyTo o = o :=
  KeyMap.ext_get? fun _ => get?_applyTo_of_unnamed rfl rfl o

theorem readable_applyTo {c : Change} {o : Options} (hc : Options.Readable c.set)
    (ho : o.Readable) : (c.applyTo o).Readable := by
  intro k v h
  rw [get?_applyTo] at h
  cases hset : c.set.get? k with
  | some w =>
    rw [hset] at h
    exact hc k v (hset.trans h)
  | none =>
    rw [hset] at h
    split at h
    · cases h
    · exact ho k v h

theorem get?_put (c : Change) (k v k' : String) :
    (c.put k v).set.get? k' = if k' = k then some v else c.set.get? k' :=
  KeyMap.get?_insert c.set k k' v

theorem contains_delete_put (c : Change) (k v k' : String) :
    (c.put k v).delete.contains k' = if k' = k then false else c.delete.contains k' := by
  simp only [put, KeyMap.contains, KeyMap.get?_erase, apply_ite Option.isSome, Option.isSome_none]

theorem get?_remove (c : Change) (k k' : String) :
    (c.remove k).set.get? k' = if k' = k then none else c.set.get? k' :=
  KeyMap.get?_erase c.set k k'

theorem contains_delete_remove (c : Change) (k k' : String) :
    (c.remove k).delete.contains k' = if k' = k then true else c.delete.contains k' := by
  simp only [remove, KeyMap.contains, KeyMap.get?_insert, apply_ite Option.isSome,
    Option.isSome_some]

theorem get?_putOrRemove_of_ne (c : Change) {k k' : String} (value : Option String)
    (h : k' ≠ k) : (c.putOrRemove k value).set.get? k' = c.set.get? k' := by
  cases value with
  | none => exact (get?_remove c k k').trans (if_neg h)
  | some v => exact (get?_put c k v k').trans (if_neg h)

theorem set_putAll (c : Change) (es : List (String × String)) :
    (c.putAll es).set = es.foldl (fun m e => m.insert e.1 e.2) c.set := by
  induction es generalizing c with
  | nil => rfl
  | cons e es ih => exact ih (c.put e.1 e.2)

theorem mem_of_get?_putAll {c : Change} {es : List (String × String)} {k v : String}
    (h : (c.putAll es).set.get? k = some v) : (k, v) ∈ es ∨ c.set.get? k = some v := by
  rw [set_putAll] at h
  exact KeyMap.mem_of_get?_foldl_insert h

theorem get?_putAll_of_not_mem {es : List (String × String)} {k : String}
    (h : k ∉ es.map (·.1)) (c : Change) : (c.putAll es).set.get? k = c.set.get? k := by
  rw [set_putAll]
  exact KeyMap.get?_foldl_insert_of_not_mem h c.set

theorem get?_putAll_of_mem {es : List (String × String)} (hes : (es.map (·.1)).Nodup)
    {k v : String} (h : (k, v) ∈ es) (c : Change) : (c.putAll es).set.get? k = some v := by
  rw [set_putAll]
  refine KeyMap.get?_foldl_insert_of_sole h (fun w hw => ?_) c.set
  exact congrArg Prod.snd (List.inj_on_of_nodup_map hes hw h rfl)

theorem putAll_delete {c : Change} (h : c.delete = ∅) (es : List (String × String)) :
    (c.putAll es).delete = ∅ := by
  induction es generalizing c with
  | nil => exact h
  | cons e es ih =>
    have hput : (c.put e.1 e.2).delete = (∅ : KeySet String).erase e.1 := congrArg (·.erase e.1) h
    exact ih hput

/-! ### Orders

An order names a key with a value to set, or with none to remove it. -/

/-- The change that carries out one order after the other. -/
def ofOrders (es : List (String × Option String)) : Change :=
  es.foldl (fun c e => c.putOrRemove e.1 e.2) {}

theorem get?_applyTo_putOrRemove (c : Change) (o : Options) (k : String) (a : Option String)
    (k' : String) : ((c.putOrRemove k a).applyTo o).get? k' =
      if k' = k then a else (c.applyTo o).get? k' := by
  rw [get?_applyTo, get?_applyTo]
  cases a with
  | none =>
    simp only [putOrRemove, contains_delete_remove, get?_remove]
    split <;> rfl
  | some v =>
    simp only [putOrRemove, contains_delete_put, get?_put]
    split <;> rfl

theorem get?_applyTo_ofOrders {es : List (String × Option String)} {k : String} {a : Option String}
    (h : ∀ b, (k, b) ∈ es → b = a) (o : Options) :
    ((ofOrders es).applyTo o).get? k = if k ∈ es.map (·.1) then a else o.get? k := by
  have hfold (c : Change) : ((es.foldl (fun c e => c.putOrRemove e.1 e.2) c).applyTo o).get? k =
      if k ∈ es.map (·.1) then a else (c.applyTo o).get? k := by
    induction es generalizing c with
    | nil => simp
    | cons e es ih =>
      have hrest : ∀ b, (k, b) ∈ es → b = a := fun b hb => h b (List.mem_cons_of_mem e hb)
      rw [List.foldl_cons, ih hrest, get?_applyTo_putOrRemove]
      by_cases hk : k = e.1
      · have ha : e.2 = a := h e.2 (hk ▸ List.mem_cons_self)
        simp [hk, ha]
      · simp only [List.map_cons, List.mem_cons, hk, false_or, if_false]
  rw [ofOrders, hfold, applyTo_empty]

end NodeProvisioner.Change
