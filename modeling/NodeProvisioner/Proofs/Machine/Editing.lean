import NodeProvisioner.Proofs.Latest
import NodeProvisioner.Proofs.Machine.Change

/-! A change is made call by call. What it says of a key in the end is what the last call that
concerns the key has said, so the change does at once what its calls would do one by one. -/
namespace NodeProvisioner.Change

inductive Edit where
  | put (key value : String)
  | putIfSome (key : String) (value : Option String)
  | remove (key : String)
  | putOrRemove (key : String) (value : Option String)

def edit (c : Change) : Edit → Change
  | .put key value => c.put key value
  | .putIfSome key value => c.putIfSome key value
  | .remove key => c.remove key
  | .putOrRemove key value => c.putOrRemove key value

def ofEdits (es : List Edit) : Change := es.foldl edit {}

namespace Edit

/-- The order that the call gives, if it gives one: the value to set for a key, or that the key is
to be removed. -/
def order? : Edit → Option (String × Option String)
  | put key value => some (key, some value)
  | putIfSome key value => value.map fun v => (key, some v)
  | remove key => some (key, none)
  | putOrRemove key value => some (key, value)

/-- The call concerns the key, and orders this of it. -/
def Orders (key : String) (e : Edit) (value : Option String) : Prop := e.order? = some (key, value)

def applyTo (o : Options) : Edit → Options
  | put key value => o.insert key value
  | putIfSome key (some value) => o.insert key value
  | putIfSome _ none => o
  | remove key => o.erase key
  | putOrRemove key (some value) => o.insert key value
  | putOrRemove key none => o.erase key

end Edit

/-- What the change says of a key: the value to set, or that the key is to be removed. -/
def Says (key : String) (c : Change) : Option String → Prop
  | some v => c.set.get? key = some v
  | none => c.delete.contains key = true

/-- No key is both set and removed. -/
def Apart (c : Change) : Prop := ∀ key, ¬ (c.set.contains key ∧ c.delete.contains key)

structure Follows (c : Change) (es : List Edit) : Prop where
  apart : c.Apart
  set_iff : ∀ key v, c.set.get? key = some v ↔ Latest (Edit.Orders key) es (some v)
  delete_iff : ∀ key, c.delete.contains key ↔ Latest (Edit.Orders key) es none
  oneByOne : ∀ o, c.applyTo o = es.foldl Edit.applyTo o
  /-- It makes no difference whether keys are removed before the others are set or after that. -/
  removedLast : ∀ o, (o.union c.set).filter (fun k _ => !c.delete.contains k) = c.applyTo o

theorem edit_eq (c : Change) (e : Edit) :
    c.edit e = match e.order? with
      | some (key, value) => c.putOrRemove key value
      | none => c := by
  cases e with
  | putIfSome key value => cases value <;> rfl
  | _ => rfl

theorem says_putOrRemove (c : Change) (k : String) (a : Option String) (k' : String)
    (b : Option String) :
    (c.putOrRemove k a).Says k' b ↔ if k' = k then a = b else c.Says k' b := by
  cases a with
  | none =>
    cases b with
    | none =>
      simp only [Says, putOrRemove, contains_delete_remove]
      split <;> simp
    | some v =>
      simp only [Says, putOrRemove, get?_remove]
      split <;> simp
  | some w =>
    cases b with
    | none =>
      simp only [Says, putOrRemove, contains_delete_put]
      split <;> simp
    | some v =>
      simp only [Says, putOrRemove, get?_put]
      split <;> simp

theorem says_edit (k : String) (c : Change) (e : Edit) (a : Option String) :
    (c.edit e).Says k a ↔ e.Orders k a ∨ (∀ b, ¬ e.Orders k b) ∧ c.Says k a := by
  rw [edit_eq]
  unfold Edit.Orders
  cases he : e.order? with
  | none => simp
  | some order =>
    obtain ⟨k', b⟩ := order
    dsimp only
    rw [says_putOrRemove]
    by_cases hk : k = k'
    · simp [hk]
    · simp [hk, Ne.symm hk]

theorem says_ofEdits {es : List Edit} {k : String} {a : Option String} :
    (ofEdits es).Says k a ↔ Latest (Edit.Orders k) es a := by
  refine Latest.foldl_iff (Says k) (fun b => ?_) (says_edit k)
  cases b <;> exact nofun

theorem apart_iff {c : Change} : c.Apart ↔ ∀ k v, c.Says k (some v) → ¬ c.Says k none := by
  simp only [Apart, KeyMap.contains, Option.isSome_iff_exists, Says]
  grind

theorem Apart.edit {c : Change} (h : c.Apart) (e : Edit) : (c.edit e).Apart := by
  rw [apart_iff] at h ⊢
  intro k v hset hdelete
  rw [says_edit] at hset hdelete
  rcases hset with hset | ⟨hnot, hset⟩
  · rcases hdelete with hdelete | ⟨hnot, -⟩
    · -- One call gives one order.
      cases hset.symm.trans hdelete
    · exact hnot _ hset
  · exact h k v hset (hdelete.resolve_left (hnot none)).2

theorem apart_ofEdits (es : List Edit) : (ofEdits es).Apart := by
  have hfold {c : Change} (h : c.Apart) : (es.foldl edit c).Apart := by
    induction es generalizing c with
    | nil => exact h
    | cons e es ih => exact ih (h.edit e)
  exact hfold fun key h => nomatch h.2

theorem Edit.get?_applyTo (o : Options) (e : Edit) (k : String) :
    (e.applyTo o).get? k = match e.order? with
      | some (key, value) => if k = key then value else o.get? k
      | none => o.get? k := by
  cases e with
  | put key value => exact KeyMap.get?_insert o key k value
  | putIfSome key value =>
    cases value with
    | none => rfl
    | some v => exact KeyMap.get?_insert o key k v
  | remove key => exact KeyMap.get?_erase o key k
  | putOrRemove key value =>
    cases value with
    | none => exact KeyMap.get?_erase o key k
    | some v => exact KeyMap.get?_insert o key k v

theorem applyTo_edit (c : Change) (e : Edit) (o : Options) :
    (c.edit e).applyTo o = e.applyTo (c.applyTo o) := by
  apply KeyMap.ext_get?
  intro k
  rw [Edit.get?_applyTo, edit_eq]
  cases he : e.order? with
  | none => rfl
  | some order => exact get?_applyTo_putOrRemove c o order.1 order.2 k

theorem applyTo_foldl_edit (es : List Edit) (c : Change) (o : Options) :
    (es.foldl edit c).applyTo o = es.foldl Edit.applyTo (c.applyTo o) := by
  induction es generalizing c with
  | nil => rfl
  | cons e es ih => rw [List.foldl_cons, List.foldl_cons, ih, applyTo_edit]

theorem Apart.applyTo_eq {c : Change} (h : c.Apart) (o : Options) :
    (o.union c.set).filter (fun k _ => !c.delete.contains k) = c.applyTo o := by
  apply KeyMap.ext_get?
  intro k
  rw [KeyMap.get?_filter, KeyMap.get?_union, get?_applyTo]
  cases hdelete : c.delete.contains k with
  | false => rfl
  | true =>
    have hset : c.set.get? k = none := by
      by_contra hsome
      exact h k ⟨Option.isSome_iff_ne_none.2 hsome, hdelete⟩
    rw [hset]
    rfl

/-- Whatever the calls and their order, for each key the last call that concerns it is what the
change says of it, so that to apply the change is to make its calls on the options themselves. -/
theorem ofEdits_follows (es : List Edit) : (ofEdits es).Follows es where
  apart := apart_ofEdits es
  set_iff key v := says_ofEdits (a := some v)
  delete_iff key := says_ofEdits (a := none)
  oneByOne o := by rw [ofEdits, applyTo_foldl_edit, applyTo_empty]
  removedLast := (apart_ofEdits es).applyTo_eq

end NodeProvisioner.Change
