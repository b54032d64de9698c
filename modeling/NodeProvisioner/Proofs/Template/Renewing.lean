import Mathlib.Data.List.Induction
import NodeProvisioner.Proofs.KeyMap
import NodeProvisioner.Proofs.Template.Deleting
import NodeProvisioner.Template.Sync

/-! What the renewals of the inventory leave behind. A renewal swaps in the snapshot of its region
in one step, the last one it takes, so it does not matter how the renewals of several regions
overlap. -/
namespace NodeProvisioner

/-- `Interleaves ls t`: the lists run off into `t`, each in its own order. -/
inductive Interleaves {α : Type} : List (List α) → List α → Prop where
  | done {ls : List (List α)} (h : ∀ l ∈ ls, l = []) : Interleaves ls []
  | step {ls : List (List α)} {a : α} {l t : List α} (k : Nat) (hk : ls[k]? = some (a :: l))
      (h : Interleaves (ls.set k l) t) : Interleaves ls (a :: t)

namespace Interleaves
variable {α : Type} {ls : List (List α)} {t : List α}

theorem mem (h : Interleaves ls t) {l : List α} (hl : l ∈ ls) {a : α} (ha : a ∈ l) : a ∈ t := by
  induction h generalizing l with
  | done hempty =>
    rw [hempty l hl] at ha
    exact absurd ha List.not_mem_nil
  | @step ls b rest t k hk _ ih =>
    obtain ⟨i, hi⟩ := List.mem_iff_getElem?.1 hl
    have hlt : k < ls.length := (List.getElem?_eq_some_iff.1 hk).1
    by_cases hki : k = i
    · subst hki
      cases hk.symm.trans hi
      rcases List.mem_cons.1 ha with rfl | ha
      · exact List.mem_cons_self
      · exact List.mem_cons_of_mem b (ih (List.mem_set hlt rest) ha)
    · have hkept : l ∈ ls.set k rest :=
        List.mem_iff_getElem?.2 ⟨i, (List.getElem?_set_ne hki).trans hi⟩
      exact List.mem_cons_of_mem b (ih hkept ha)

/-- Whatever happens comes from one of the lists, and what this list has before it has happened
before. -/
theorem source (h : Interleaves ls t) {past rest : List α} {a : α} (ht : t = past ++ a :: rest) :
    ∃ l ∈ ls, ∃ before after, l = before ++ a :: after ∧ before ⊆ past := by
  induction h generalizing past with
  | done _ => cases past <;> cases ht
  | @step ls b l t k hk _ ih =>
    cases past with
    | nil =>
      cases ht
      exact ⟨a :: l, List.mem_of_getElem? hk, [], l, rfl, List.nil_subset _⟩
    | cons c past =>
      obtain ⟨rfl, htail⟩ := List.cons_eq_cons.1 ht
      obtain ⟨l', hl', before, after, rfl, hbefore⟩ := ih htail
      rcases List.mem_or_eq_of_mem_set hl' with hl' | heq
      · exact ⟨_, hl', before, after, rfl, List.subset_cons_of_subset b hbefore⟩
      · refine ⟨b :: l, List.mem_of_getElem? hk, b :: before, after, ?_, ?_⟩
        · rw [← heq, List.cons_append]
        · exact List.cons_subset_cons b hbefore

theorem cons_nil (h : Interleaves ls t) : Interleaves ([] :: ls) t := by
  induction h with
  | done hempty => exact .done (List.forall_mem_cons.2 ⟨rfl, hempty⟩)
  | step k hk _ ih => exact .step (k + 1) hk ih

theorem append (h : Interleaves ls t) (l : List α) : Interleaves (l :: ls) (l ++ t) := by
  induction l with
  | nil => exact h.cons_nil
  | cons a l ih => exact .step 0 rfl ih

theorem flatten : (ls : List (List α)) → Interleaves ls ls.flatten
  | [] => .done (List.forall_mem_nil _)
  | l :: ls => (flatten ls).append l

end Interleaves

namespace Inventory

def next (inv : Inventory) (e : Event) : Inventory :=
  match e.call with
  | .memory (.publish region entries) => inv.publish region entries
  | _ => inv

def after (inv : Inventory) (t : Trace) : Inventory := t.foldl next inv

end Inventory

def Call.publishes (region : String) : Call → Bool
  | .memory (.publish r _) => r == region
  | _ => false

@[simp] theorem Call.publishes_self (region : String) (entries : List TemplateEntry) :
    Call.publishes region (.memory (.publish region entries)) = true := beq_self_eq_true region

theorem Event.eq_publish_of_publishes {e : Event} {region : String}
    (h : e.call.publishes region = true) :
    ∃ entries, e = ⟨.memory (.publish region entries), ()⟩ := by
  obtain ⟨call, reply⟩ := e
  cases call with
  | memory a =>
    cases a with
    | publish r entries =>
      obtain rfl := eq_of_beq h
      exact ⟨entries, rfl⟩
    | _ => cases h
  | _ => cases h

namespace Inventory
variable {region : String}

theorem after_append (inv : Inventory) (t t' : Trace) :
    inv.after (t ++ t') = (inv.after t).after t' := List.foldl_append

theorem get?_next_of_not_publishes (inv : Inventory) {e : Event}
    (h : e.call.publishes region = false) : (inv.next e).get? region = inv.get? region := by
  unfold next
  split
  · next hcall =>
    rw [hcall] at h
    exact (KeyMap.get?_insert _ _ _ _).trans (if_neg (ne_of_beq_false h).symm)
  · rfl

theorem get?_after_of_not_publishes (inv : Inventory) {t : Trace}
    (h : ∀ e ∈ t, e.call.publishes region = false) :
    (inv.after t).get? region = inv.get? region := by
  induction t generalizing inv with
  | nil => rfl
  | cons e t ih =>
    obtain ⟨he, ht⟩ := List.forall_mem_cons.1 h
    exact (ih (inv.next e) ht).trans (inv.get?_next_of_not_publishes he)

theorem get?_after_of_publishes (inv : Inventory) {t : Trace}
    (h : ∃ e ∈ t, e.call.publishes region = true) :
    ∃ past rest entries, t = past ++ ⟨.memory (.publish region entries), ()⟩ :: rest ∧
      (inv.after t).get? region = some entries := by
  induction t using List.reverseRecOn with
  | nil =>
    obtain ⟨_, hmem, _⟩ := h
    cases hmem
  | append_singleton t last ih =>
    rw [after_append]
    cases hlast : last.call.publishes region with
    | true =>
      obtain ⟨entries, rfl⟩ := Event.eq_publish_of_publishes hlast
      exact ⟨t, [], entries, rfl, KeyMap.get?_insert_self _ _ _⟩
    | false =>
      obtain ⟨e, hmem, he⟩ := h
      have hbefore : e ∈ t := by
        rcases List.mem_append.1 hmem with hmem | hmem
        · exact hmem
        · rw [List.mem_singleton.1 hmem, hlast] at he
          cases he
      obtain ⟨past, rest, entries, rfl, hget⟩ := ih ⟨e, hbefore, he⟩
      refine ⟨past, rest ++ [last], entries, List.append_assoc _ _ _, ?_⟩
      exact (get?_next_of_not_publishes _ hlast).trans hget

end Inventory

theorem KeySet.mem_toList {s : KeySet String} {id : String} :
    id ∈ s.toList ↔ (id, ()) ∈ s.entries := by
  rw [toList, KeyMap.keys, List.mem_map]
  constructor
  · rintro ⟨_, he, rfl⟩
    exact he
  · exact fun h => ⟨(id, ()), h, rfl⟩

theorem KeySet.mem_toList_ofList {ids : List String} {id : String} :
    id ∈ (KeySet.ofList ids).toList ↔ id ∈ ids := by
  rw [mem_toList]
  constructor
  · intro h
    obtain ⟨_, hid, heq⟩ := List.mem_map.1 (KeyMap.mem_of_mem_ofList h)
    cases heq
    exact hid
  · intro h
    have hmem : (id, ()) ∈ ids.map (·, ()) := List.mem_map.2 ⟨id, h, rfl⟩
    exact KeyMap.mem_entries.2 (KeyMap.get?_foldl_insert_of_sole hmem (fun _ _ => rfl) _)

namespace Machine

/-- The storage holds a disk of the machine that is neither an optical drive nor the one that hands
out bootstrap data. -/
def LiesOn (m : Machine) (id : String) : Prop :=
  ∃ d ∈ m.disks.values, d.isOptical = false ∧ d.isCloudInit = false ∧ d.storageId? = some id

theorem mem_storageIds {m : Machine} {id : String} : id ∈ m.storageIds.toList ↔ m.LiesOn id := by
  rw [storageIds, KeySet.mem_toList_ofList, List.mem_filterMap]
  simp only [List.mem_filter, Disk.isPlain, Bool.and_eq_true, Bool.not_eq_true', LiesOn, and_assoc]

end Machine

namespace TemplateEntry

/-- An entry of a region that says only of usable templates that they are available. -/
structure Sound (region : String) (past : Trace) (e : TemplateEntry) : Prop where
  inRegion : e.region = region
  available : e.usability = .available → ∃ m s,
    ⟨.hypervisor region (.readMachine e.zone e.machine), .ok m⟩ ∈ past ∧
      m.other.get? "lock" = none ∧ e.storageId = some s ∧ ∀ id, m.LiesOn id ↔ id = s

theorem Sound.mono {region : String} {past past' : Trace} {e : TemplateEntry}
    (h : e.Sound region past) (hsub : past ⊆ past') : e.Sound region past' where
  inRegion := h.inRegion
  available ha := by
    obtain ⟨m, s, hread, hrest⟩ := h.available ha
    exact ⟨m, s, hsub hread, hrest⟩

theorem usabilityOf_eq_available {m : Machine} (h : usabilityOf m = .available) :
    m.other.get? "lock" = none ∧ ∃ s, onlyStorage? m = some s ∧ ∀ id, m.LiesOn id ↔ id = s := by
  unfold usabilityOf at h
  split at h
  · cases h
  · next hlock =>
    refine ⟨by simpa [KeyMap.contains] using hlock, ?_⟩
    split at h
    · cases h
    · next s hids =>
      refine ⟨s, by rw [onlyStorage?, hids], fun id => ?_⟩
      rw [← Machine.mem_storageIds, hids, List.mem_singleton]
    · cases h

/-- What a snapshot says of a listed template, with the calls made for it. -/
inductive Describes (region : String) (seen : Location) : Trace → TemplateEntry → Prop where
  | unreadable (e : Fault) :
      Describes region seen [⟨.hypervisor region (.readMachine seen.zone seen.machine), .error e⟩]
        { name := seen.name, region, zone := seen.zone, machine := seen.machine, fingerprint := ""
          storageId := none, usability := .unknown }
  | scattered (m : Machine) (h : onlyStorage? m = none) :
      Describes region seen [⟨.hypervisor region (.readMachine seen.zone seen.machine), .ok m⟩]
        (.classify region seen m none)
  | together (m : Machine) (id : String) (h : onlyStorage? m = some id)
      (storage : Option Storage) :
      Describes region seen [⟨.hypervisor region (.readMachine seen.zone seen.machine), .ok m⟩,
        ⟨.ask (.storage region id), storage⟩] (.classify region seen m storage)

variable {region : String} {seen : Location} {t : Trace} {e : TemplateEntry}

theorem Describes.sound (h : Describes region seen t e) : e.Sound region t := by
  have hclassified (m : Machine) (storage : Option Storage)
      (hread : ⟨.hypervisor region (.readMachine seen.zone seen.machine), .ok m⟩ ∈ t) :
      (classify region seen m storage).Sound region t := by
    refine ⟨rfl, fun ha => ?_⟩
    obtain ⟨hlock, s, hs, honly⟩ := usabilityOf_eq_available ha
    exact ⟨m, s, hread, hlock, hs, honly⟩
  cases h with
  | unreadable _ => exact ⟨rfl, nofun⟩
  | scattered m _ => exact hclassified m none List.mem_cons_self
  | together m _ _ storage => exact hclassified m storage List.mem_cons_self

/-- One entry for each listed template, in the order of the listing. -/
inductive DescribesAll (region : String) : List Location → Trace → List TemplateEntry → Prop where
  | nil : DescribesAll region [] [] []
  | cons {seen : Location} {rest : List Location} {t t' : Trace} {e : TemplateEntry}
      {es : List TemplateEntry} (first : Describes region seen t e)
      (others : DescribesAll region rest t' es) :
      DescribesAll region (seen :: rest) (t ++ t') (e :: es)

theorem DescribesAll.sound {listed : List Location} {es : List TemplateEntry}
    (h : DescribesAll region listed t es) : ∀ e ∈ es, e.Sound region t := by
  induction h with
  | nil => exact List.forall_mem_nil _
  | cons first _ ih =>
    refine List.forall_mem_cons.2 ⟨first.sound.mono (List.subset_append_left _ _), ?_⟩
    exact fun e he => (ih e he).mono (List.subset_append_right _ _)

theorem DescribesAll.not_publishes {listed : List Location} {es : List TemplateEntry}
    (h : DescribesAll region listed t es) (r : String) :
    ∀ e ∈ t, e.call.publishes r = false := by
  induction h with
  | nil => exact List.forall_mem_nil _
  | cons first _ ih =>
    refine List.forall_mem_append.2 ⟨?_, ih⟩
    cases first <;> simp [Call.publishes]

end TemplateEntry

namespace Sync

theorem describe_describes (region : String) (seen : Location) :
    (describe region seen).Ensures (TemplateEntry.Describes region seen) := by
  refine (Plan.ensures_bind _ _ _).2 ((Hypervisor.ensures_send region _ _).2 fun reply => ?_)
  cases reply with
  | error e => exact (Plan.ensures_pure _ _).2 (.unreadable e)
  | ok m =>
    refine (Plan.ensures_bind _ _ _).2 ?_
    unfold storageOf
    split
    · next id hid =>
      refine (Plan.ensures_perform (.ask (.storage region id)) _).2 fun storage => ?_
      exact (Plan.ensures_pure _ _).2 (.together m id hid storage)
    · next hnone => exact (Plan.ensures_pure _ _).2 ((Plan.ensures_pure _ _).2 (.scattered m hnone))

theorem describeAll_describes (region : String) (listed : List Location) :
    (describeAll region listed).Ensures (TemplateEntry.DescribesAll region listed) := by
  induction listed with
  | nil => exact (Plan.ensures_pure _ _).2 .nil
  | cons seen rest ih =>
    refine (Plan.ensures_bind _ _ _).2 ((describe_describes region seen).mono fun t e he => ?_)
    refine (Plan.ensures_bind _ _ _).2 (ih.mono fun t' es hes => ?_)
    refine (Plan.ensures_pure _ _).2 ?_
    rw [List.append_nil]
    exact .cons he hes

/-- A run of the renewal of one region: it ends before there is anything to swap in, or it swaps in
a whole snapshot at its end. -/
inductive Takes (region : String) : Trace → Except Fault (List TemplateEntry) → Prop where
  | unconnected (e : Fault) : Takes region [⟨.connect region, .error e⟩] (.error e)
  | unlisted (e : Fault) :
      Takes region [⟨.connect region, .ok ()⟩, ⟨.hypervisor region .listTemplates, .error e⟩]
        (.error e)
  | taken {listed : List Location} {t : Trace} {entries : List TemplateEntry}
      (h : TemplateEntry.DescribesAll region (listed.filter (·.template)) t entries) :
      Takes region (⟨.connect region, .ok ()⟩ :: ⟨.hypervisor region .listTemplates, .ok listed⟩ ::
        (t ++ [⟨.memory (.publish region entries), ()⟩])) (.ok entries)

theorem region_takes (r : String) : (region r).Ensures fun t res =>
    ∃ taken, Takes r t taken ∧ res = taken.map fun _ => () := by
  refine (Job.ensures_bind _ _ _).2 ((Plan.ensures_perform (.connect r) _).2 fun reply => ?_)
  cases reply with
  | error e => exact ⟨.error e, .unconnected e, rfl⟩
  | ok u =>
    refine (Job.ensures_bind _ _ _).2 ((Hypervisor.ensures_send r _ _).2 fun reply => ?_)
    cases reply with
    | error e => exact ⟨.error e, .unlisted e, rfl⟩
    | ok listed =>
      refine (Job.ensures_bind _ _ _).2 ((Job.ensures_lift _ _).2
        ((describeAll_describes r _).mono fun t entries h => ?_))
      refine (Job.ensures_lift _ _).2
        ((Plan.ensures_perform (.memory (.publish r entries)) _).2 fun _ => ?_)
      exact ⟨.ok entries, .taken h, rfl⟩

variable {r other : String} {t past rest : Trace} {taken : Except Fault (List TemplateEntry)}
  {e : Event}

theorem Takes.mem_publish {entries : List TemplateEntry} (h : Takes r t (.ok entries)) :
    ⟨.memory (.publish r entries), ()⟩ ∈ t := by
  cases h with
  | taken _ => simp

theorem eq_of_append_cons {front : Trace} {last : Event} (hlate : e ∉ front)
    (h : front ++ [last] = past ++ e :: rest) : front = past ∧ e = last := by
  rcases List.eq_nil_or_concat rest with rfl | ⟨before, final, rfl⟩
  · obtain ⟨hpast, hlast⟩ := List.append_inj' h rfl
    exact ⟨hpast, (List.singleton_inj.1 hlast).symm⟩
  · rw [List.concat_eq_append, ← List.cons_append, ← List.append_assoc] at h
    have hfront := (List.append_inj' h rfl).1
    exact absurd (hfront ▸ List.mem_append_right past List.mem_cons_self) hlate

theorem Takes.of_publishes (h : Takes r t taken) (ht : t = past ++ e :: rest)
    (he : e.call.publishes other = true) :
    other = r ∧ ∃ entries, taken = .ok entries ∧ e = ⟨.memory (.publish r entries), ()⟩ ∧
      ∀ entry ∈ entries, entry.Sound r past := by
  have hmem : e ∈ t := ht ▸ List.mem_append_right past List.mem_cons_self
  cases h with
  | unconnected _ =>
    rw [List.mem_singleton.1 hmem] at he
    cases he
  | unlisted _ =>
    rcases List.mem_pair.1 hmem with rfl | rfl <;> cases he
  | @taken listed described entries h =>
    have hlate : e ∉ ⟨.connect r, .ok ()⟩ :: ⟨.hypervisor r .listTemplates, .ok listed⟩ ::
        described := by
      intro hearly
      rcases List.mem_cons.1 hearly with rfl | hearly
      · cases he
      · rcases List.mem_cons.1 hearly with rfl | hearly
        · cases he
        · rw [h.not_publishes other e hearly] at he
          cases he
    obtain ⟨hpast, rfl⟩ := eq_of_append_cons hlate ht
    refine ⟨(eq_of_beq he).symm, entries, rfl, rfl, fun entry hentry => ?_⟩
    rw [← hpast]
    exact (h.sound entry hentry).mono fun _ hd => List.mem_cons_of_mem _ (List.mem_cons_of_mem _ hd)

/-- What a renewal of one region comes to, whatever the inventory was before. -/
structure Renews (r : String) (t : Trace) (res : Except Fault Unit) : Prop where
  failed : ∀ e, res = .error e → ∀ inv : Inventory, inv.after t = inv
  succeeded : res = .ok () → ∃ entries, Takes r t (.ok entries) ∧
    ∀ inv : Inventory, (inv.after t).get? r = some entries ∧
      ∀ other, other ≠ r → (inv.after t).get? other = inv.get? other

theorem region_renews (r : String) : (region r).Ensures (Renews r) := by
  refine (region_takes r).mono ?_
  rintro t _ ⟨taken, h, rfl⟩
  have hothers (inv : Inventory) {other : String} (hne : other ≠ r ∨ ∃ e, taken = .error e) :
      (inv.after t).get? other = inv.get? other := by
    refine inv.get?_after_of_not_publishes fun e he => Bool.eq_false_iff.2 fun hpublishes => ?_
    obtain ⟨past, rest, ht⟩ := List.append_of_mem he
    obtain ⟨rfl, entries, rfl, _⟩ := h.of_publishes ht hpublishes
    rcases hne with hne | ⟨_, hfailed⟩
    · exact hne rfl
    · cases hfailed
  cases taken with
  | error e =>
    exact ⟨fun _ _ inv => KeyMap.ext_get? fun other => hothers inv (.inr ⟨e, rfl⟩), nofun⟩
  | ok entries =>
    refine ⟨nofun, fun _ => ⟨entries, h, fun inv => ⟨?_, fun _ hne => hothers inv (.inl hne)⟩⟩⟩
    obtain ⟨past, rest, last, ht, hget⟩ :=
      inv.get?_after_of_publishes ⟨_, h.mem_publish, Call.publishes_self r entries⟩
    obtain ⟨_, _, ⟨⟩, hlast, _⟩ := h.of_publishes ht (Call.publishes_self r last)
    cases hlast
    exact hget

structure Part where
  region : String
  trace : Trace
  result : Except Fault Unit

def Part.fault? (p : Part) : Option Fault :=
  match p.result with
  | .ok _ => none
  | .error e => some e

/-- A renewal of all regions, the calls for the single ones in any order. -/
structure Overall (parts : List Part) (t : Trace) (res : Except Fault Unit) : Prop where
  runs : ∀ p ∈ parts, (region p.region).run.Yields p.trace p.result
  overlap : ∃ calls, Interleaves (parts.map (·.trace)) calls ∧
    t = ⟨.ask .clusterRegions, parts.map (·.region)⟩ :: calls
  result : res = Fault.joined "template inventory sync" (parts.filterMap Part.fault?)

theorem each_parts (regions : List String) : (each regions).Ensures fun t faults =>
    ∃ parts : List Part, (∀ p ∈ parts, (region p.region).run.Yields p.trace p.result) ∧
      parts.map (·.region) = regions ∧ t = (parts.map (·.trace)).flatten ∧
      faults = parts.filterMap Part.fault? := by
  induction regions with
  | nil => exact (Plan.ensures_pure _ _).2 ⟨[], List.forall_mem_nil _, rfl, rfl, rfl⟩
  | cons r rest ih =>
    refine (Plan.ensures_bind _ _ _).2 fun t res hrun => ?_
    refine (Plan.ensures_bind _ _ _).2 (ih.mono ?_)
    rintro t' _ ⟨parts, hparts, rfl, rfl, rfl⟩
    refine (Plan.ensures_pure _ _).2 ⟨⟨r, t, res⟩ :: parts, ?_, rfl, ?_, ?_⟩
    · exact List.forall_mem_cons.2 ⟨hrun, hparts⟩
    · simp
    · cases res <;> rfl

theorem all_overall : all.Ensures fun t res => ∃ parts, Overall parts t res := by
  refine (Job.ensures_perform_bind (.ask .clusterRegions) _ _).2 fun regions => ?_
  refine (Job.ensures_bind _ _ _).2 ((Job.ensures_lift _ _).2 ((each_parts regions).mono ?_))
  rintro t _ ⟨parts, hruns, rfl, rfl, rfl⟩
  refine (Job.ensures_ofExcept _ _).2 ⟨parts, hruns, ⟨_, .flatten _, ?_⟩, rfl⟩
  rw [List.append_nil]

/-- What a renewal of all regions makes of the inventory: each region goes by its own renewal. -/
structure Settles (parts : List Part) (inv inv' : Inventory) (res : Except Fault Unit) :
    Prop where
  ok_iff : res = .ok () ↔ ∀ p ∈ parts, p.result = .ok ()
  kept : ∀ r, (∀ p ∈ parts, p.region = r → p.result ≠ .ok ()) → inv'.get? r = inv.get? r
  renewed : ∀ r, (∃ p ∈ parts, p.region = r ∧ p.result = .ok ()) →
    ∃ p ∈ parts, ∃ entries, p.region = r ∧ p.result = .ok () ∧ Takes r p.trace (.ok entries) ∧
      inv'.get? r = some entries

section overall
variable {parts : List Part} {res : Except Fault Unit}

theorem Overall.takes (h : Overall parts t res) {p : Part} (hp : p ∈ parts) :
    ∃ taken, Takes p.region p.trace taken ∧ p.result = taken.map fun _ => () :=
  region_takes p.region _ _ (h.runs p hp)

theorem Overall.of_publishes (h : Overall parts t res) (ht : t = past ++ e :: rest)
    (he : e.call.publishes other = true) :
    ∃ p ∈ parts, ∃ entries, p.region = other ∧ p.result = .ok () ∧
      Takes other p.trace (.ok entries) ∧ e = ⟨.memory (.publish other entries), ()⟩ ∧
      ∀ entry ∈ entries, entry.Sound other past := by
  obtain ⟨calls, hcalls, hasked⟩ := h.overlap
  cases past with
  | nil =>
    cases hasked.symm.trans ht
    cases he
  | cons asked past =>
    obtain ⟨rfl, htail⟩ := List.cons_eq_cons.1 (hasked.symm.trans ht)
    obtain ⟨l, hl, before, after, rfl, hbefore⟩ := hcalls.source htail
    obtain ⟨p, hp, htrace⟩ := List.mem_map.1 hl
    obtain ⟨taken, htakes, hresult⟩ := h.takes hp
    obtain ⟨rfl, entries, rfl, rfl, hsound⟩ := htakes.of_publishes htrace he
    refine ⟨p, hp, entries, rfl, hresult, htakes, rfl, fun entry hentry => ?_⟩
    exact (hsound entry hentry).mono (List.subset_cons_of_subset _ hbefore)

theorem Overall.settles (h : Overall parts t res) (inv : Inventory) :
    Settles parts inv (inv.after t) res where
  ok_iff := by
    have hnone : parts.filterMap Part.fault? = [] ↔ ∀ p ∈ parts, p.result = .ok () := by
      rw [List.filterMap_eq_nil_iff]
      refine forall₂_congr fun p _ => ?_
      unfold Part.fault?
      split <;> simp_all
    rw [h.result, Fault.joined_eq_ok, hnone]
  kept r hfailed := by
    refine inv.get?_after_of_not_publishes fun e he => Bool.eq_false_iff.2 fun hpublishes => ?_
    obtain ⟨past, rest, ht⟩ := List.append_of_mem he
    obtain ⟨p, hp, _, hregion, hok, _⟩ := h.of_publishes ht hpublishes
    exact hfailed p hp hregion hok
  renewed r hsome := by
    obtain ⟨p, hp, rfl, hok⟩ := hsome
    obtain ⟨taken, htakes, hresult⟩ := h.takes hp
    obtain ⟨calls, hcalls, hasked⟩ := h.overlap
    cases taken with
    | error _ => cases hok.symm.trans hresult
    | ok entries =>
      have hmem := hcalls.mem (List.mem_map_of_mem hp) htakes.mem_publish
      obtain ⟨past, rest, last, ht, hget⟩ := inv.get?_after_of_publishes
        ⟨_, hasked ▸ List.mem_cons_of_mem _ hmem, Call.publishes_self p.region entries⟩
      obtain ⟨q, hq, _, hregion, hqok, hqtakes, hlast, _⟩ :=
        h.of_publishes ht (Call.publishes_self p.region last)
      cases hlast
      exact ⟨q, hq, last, hregion, hqok, hqtakes, hget⟩

end overall

/-- Renewals of single regions and of all, in any number, one after the other or overlapping. -/
inductive History : Trace → Prop where
  | region {r : String} {t : Trace} {res : Except Fault Unit} (h : (region r).run.Yields t res) :
      History t
  | all {parts : List Part} {t : Trace} {res : Except Fault Unit} (h : Overall parts t res) :
      History t
  | overlap {ts : List Trace} {t : Trace} (h : ∀ s ∈ ts, History s) (hi : Interleaves ts t) :
      History t

theorem History.sound_of_publishes (h : History t) (ht : t = past ++ e :: rest)
    (he : e.call.publishes r = true) :
    ∃ entries, e = ⟨.memory (.publish r entries), ()⟩ ∧ ∀ entry ∈ entries, entry.Sound r past := by
  induction h generalizing past rest with
  | @region asked t res hrun =>
    obtain ⟨taken, htakes, _⟩ := region_takes asked t res hrun
    obtain ⟨rfl, entries, _, hpublish, hsound⟩ := htakes.of_publishes ht he
    exact ⟨entries, hpublish, hsound⟩
  | all hall =>
    obtain ⟨_, _, entries, _, _, _, hpublish, hsound⟩ := hall.of_publishes ht he
    exact ⟨entries, hpublish, hsound⟩
  | overlap _ hi ih =>
    obtain ⟨l, hl, before, after, hsource, hbefore⟩ := hi.source ht
    obtain ⟨entries, hpublish, hsound⟩ := ih l hl hsource
    exact ⟨entries, hpublish, fun entry hentry => (hsound entry hentry).mono hbefore⟩

/-- Whatever renewals there have been, and also in the middle of them, the inventory is sound. -/
theorem History.sound (h : History t) (hpast : past <+: t) {entries : List TemplateEntry}
    (hget : (Inventory.after ∅ past).get? r = some entries) :
    ∀ entry ∈ entries, entry.Sound r past := by
  obtain ⟨future, ht⟩ := hpast
  by_cases hsome : ∃ e ∈ past, e.call.publishes r = true
  · obtain ⟨before, rest, last, rfl, hlast⟩ := Inventory.get?_after_of_publishes ∅ hsome
    cases hget.symm.trans hlast
    rw [List.append_assoc, List.cons_append] at ht
    obtain ⟨_, ⟨⟩, hsound⟩ := h.sound_of_publishes ht.symm (Call.publishes_self r entries)
    exact fun entry hentry => (hsound entry hentry).mono (List.subset_append_left _ _)
  · have hempty := Inventory.get?_after_of_not_publishes ∅ fun e he =>
      Bool.eq_false_iff.2 fun hpublishes => hsome ⟨e, he, hpublishes⟩
    cases hget.symm.trans hempty

/-- Snapshots are replaced as a whole or not at all, and are sound. -/
theorem renewals_sound :
    (∀ r, (region r).Ensures (Renews r)) ∧
    (all.Ensures fun t res => ∃ parts, Overall parts t res) ∧
    (∀ parts t res, Overall parts t res → ∀ inv, Settles parts inv (inv.after t) res) ∧
    ∀ t, History t → ∀ past, past <+: t → ∀ r entries,
      (Inventory.after ∅ past).get? r = some entries → ∀ e ∈ entries, e.Sound r past :=
  ⟨region_renews, all_overall, fun _ _ _ h => h.settles, fun _ h _ hpast _ _ => h.sound hpast⟩

/-- Two regions at once; the connection to the first one breaks in the middle of the other. -/
def overlapping : List Part :=
  let noble : Location := { machine := 9000, zone := "z1", name := "noble", template := true }
  [{ region := "r1"
     trace := [⟨.connect "r1", .ok ()⟩, ⟨.hypervisor "r1" .listTemplates, .error (.apiServer none)⟩]
     result := .error (.apiServer none) },
   { region := "r2"
     trace := [⟨.connect "r2", .ok ()⟩, ⟨.hypervisor "r2" .listTemplates, .ok [noble]⟩,
       ⟨.hypervisor "r2" (.readMachine "z1" 9000), .ok {
          disks := .ofList [("scsi0", { volume := "data:base-9000-disk-0" })] }⟩,
       ⟨.ask (.storage "r2" "data"), none⟩,
       ⟨.memory (.publish "r2" [{
          name := "noble", region := "r2", zone := "z1", machine := 9000
          fingerprint := Fingerprint.ofPairs [], storageId := some "data"
          usability := .available }]), ()⟩]
     result := .ok () }]

theorem renewals_sound_overlapping : ∃ t res, Overall overlapping t res ∧ res ≠ .ok () ∧
    (∀ inv : Inventory, (inv.after t).get? "r1" = inv.get? "r1") ∧
    ∃ e, (Inventory.after ∅ t).get? "r2" = some [e] ∧ e.usability = .available ∧
      e.Sound "r2" t := by
  have hruns : ∀ p ∈ overlapping, (region p.region).run.Yields p.trace p.result := by
    refine List.forall_mem_cons.2 ⟨?_, List.forall_mem_cons.2 ⟨?_, List.forall_mem_nil _⟩⟩
    · exact .call _ (.call _ (.done _))
    · exact .call _ (.call _ (.call _ (.call _ (.call _ (.done _)))))
  have hcalls : Interleaves (overlapping.map (·.trace)) _ :=
    .step 0 rfl (.step 1 rfl (.step 1 rfl (.step 0 rfl (.step 1 rfl (.step 1 rfl (.step 1 rfl
      (.done (by decide))))))))
  have hall : Overall overlapping _ _ := ⟨hruns, ⟨_, hcalls, rfl⟩, rfl⟩
  obtain ⟨_, _, hsettles, hsound⟩ := renewals_sound
  refine ⟨_, _, hall, nofun, fun inv => (hsettles _ _ _ hall inv).kept "r1" ?_, _, rfl, rfl, ?_⟩
  · simp [overlapping]
  · exact hsound _ (.all hall) _ (List.prefix_refl _) "r2" _ rfl _ List.mem_cons_self

end Sync
end NodeProvisioner
