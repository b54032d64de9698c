import NodeProvisioner.Proofs.KeyMap
import NodeProvisioner.Proofs.Launch.Placement

/-! The order in which shapes are tried: by the least price at which each can be had under the
conditions of the claim, and then by name. -/
namespace NodeProvisioner

/-- An offering that can be taken up: no condition speaks against any of its labels. -/
structure Offering.Open (o : Offering) (rs : Requirements) : Prop where
  available : o.available = true
  allowed : ∀ key value, o.labels.get? key = some value →
    ∀ r ∈ rs, r.key = key → r.allows (some value) = true

theorem Offering.isCompatible_iff {o : Offering} {rs : Requirements} :
    o.isCompatible rs = true ↔ o.Open rs := by
  have hlabels : rs.compatible o.labels = true ↔ ∀ key value, o.labels.get? key = some value →
      ∀ r ∈ rs, r.key = key → r.allows (some value) = true := by
    simp only [Requirements.compatible, List.all_eq_true, Requirements.allows_iff,
      KeyMap.mem_entries, Prod.forall]
  rw [isCompatible, Bool.and_eq_true, hlabels]
  exact ⟨fun h => ⟨h.1, h.2⟩, fun h => ⟨h.available, h.allowed⟩⟩

instance (o : Offering) (rs : Requirements) : Decidable (o.Open rs) :=
  decidable_of_iff _ Offering.isCompatible_iff

namespace InstanceType
variable {t t' : InstanceType} {rs : Requirements} {p q : Binary64}

structure LeastPrice (t : InstanceType) (rs : Requirements) (p : Binary64) : Prop where
  offered : ∃ o ∈ t.offerings, o.Open rs ∧ o.price = p
  least : ∀ o ∈ t.offerings, o.Open rs → p.TotalLe o.price

theorem LeastPrice.unique (hp : t.LeastPrice rs p) (hq : t.LeastPrice rs q) : p = q := by
  obtain ⟨o, ho, hopen, rfl⟩ := hp.offered
  obtain ⟨o', ho', hopen', rfl⟩ := hq.offered
  exact (hp.least o' ho' hopen').antisymm (hq.least o ho hopen)

theorem mem_compatibleOfferings {o : Offering} :
    o ∈ t.compatibleOfferings rs ↔ o ∈ t.offerings ∧ o.Open rs := by
  rw [compatibleOfferings, List.mem_filter, Offering.isCompatible_iff]

theorem cheapestPrice?_eq_none :
    t.cheapestPrice? rs = none ↔ ∀ o ∈ t.offerings, ¬ o.Open rs := by
  have hnone : t.cheapestPrice? rs = none ↔ t.compatibleOfferings rs = [] := by
    unfold cheapestPrice?
    cases t.compatibleOfferings rs <;> simp
  rw [hnone, List.eq_nil_iff_forall_not_mem]
  simp only [mem_compatibleOfferings, not_and]

theorem leastPrice_of_cheapestPrice? (h : t.cheapestPrice? rs = some p) : t.LeastPrice rs p := by
  have hprice {q : Binary64} : q ∈ (t.compatibleOfferings rs).map (·.price) ↔
      ∃ o ∈ t.offerings, o.Open rs ∧ o.price = q := by
    simp only [List.mem_map, mem_compatibleOfferings, and_assoc]
  unfold cheapestPrice? at h
  cases hprices : (t.compatibleOfferings rs).map (·.price) with
  | nil =>
    rw [hprices] at h
    cases h
  | cons q qs =>
    rw [hprices] at h hprice
    cases h
    refine ⟨hprice.1 (Binary64.foldl_min_mem q qs), fun o ho hopen => ?_⟩
    exact Binary64.foldl_min_totalLe q qs o.price (hprice.2 ⟨o, ho, hopen, rfl⟩)

theorem cheapestPrice?_eq_some : t.cheapestPrice? rs = some p ↔ t.LeastPrice rs p := by
  refine ⟨leastPrice_of_cheapestPrice?, fun h => ?_⟩
  cases hprice : t.cheapestPrice? rs with
  | none =>
    obtain ⟨o, ho, hopen, -⟩ := h.offered
    exact absurd hopen (cheapestPrice?_eq_none.1 hprice o ho)
  | some q => rw [(leastPrice_of_cheapestPrice? hprice).unique h]

instance (t : InstanceType) (rs : Requirements) (p : Binary64) : Decidable (t.LeastPrice rs p) :=
  decidable_of_iff _ cheapestPrice?_eq_some

/-- The same shape, with its offerings in any order. -/
structure Reordered (t t' : InstanceType) : Prop where
  offerings : t.offerings.Perm t'.offerings
  rest : t' = { t with offerings := t'.offerings }

theorem Reordered.cheapestPrice? (h : t.Reordered t') :
    t'.cheapestPrice? rs = t.cheapestPrice? rs := by
  refine Option.ext fun p => ?_
  rw [cheapestPrice?_eq_some, cheapestPrice?_eq_some]
  have hmem (o : Offering) : o ∈ t'.offerings ↔ o ∈ t.offerings := h.offerings.mem_iff.symm
  constructor
  · rintro ⟨hoffered, hleast⟩
    simp only [hmem] at hoffered hleast
    exact ⟨hoffered, hleast⟩
  · rintro ⟨hoffered, hleast⟩
    simp only [← hmem] at hoffered hleast
    exact ⟨hoffered, hleast⟩

theorem Reordered.name (h : t.Reordered t') : t'.name = t.name := by rw [h.rest]

end InstanceType

namespace Placement
variable {types types' : List InstanceType} {rs : Requirements}

theorem pricedType_eq_some {t : InstanceType} {x : Binary64 × InstanceType} :
    pricedType rs t = some x ↔ t = x.2 ∧ t.LeastPrice rs x.1 := by
  rw [pricedType, Option.map_eq_some_iff]
  constructor
  · rintro ⟨p, hp, rfl⟩
    exact ⟨rfl, InstanceType.cheapestPrice?_eq_some.1 hp⟩
  · rintro ⟨rfl, hp⟩
    exact ⟨x.1, InstanceType.cheapestPrice?_eq_some.2 hp, rfl⟩

theorem mem_filterMap_pricedType {x : Binary64 × InstanceType} :
    x ∈ types.filterMap (pricedType rs) ↔ x.2 ∈ types ∧ x.2.LeastPrice rs x.1 := by
  simp only [List.mem_filterMap, pricedType_eq_some]
  exact ⟨fun ⟨t, ht, htx, hp⟩ => htx ▸ ⟨ht, hp⟩, fun ⟨ht, hp⟩ => ⟨x.2, ht, rfl, hp⟩⟩

theorem perm_priced_unpriced (types : List InstanceType) (rs : Requirements) :
    (priced types rs ++ unpriced types rs).Perm types := by
  have hsplit := List.filter_append_perm (fun t => (t.cheapestPrice? rs).isSome) types
  simp only [Option.not_isSome] at hsplit
  exact ((priced_perm types rs).append_right _).trans hsplit

theorem unpriced_eq (types : List InstanceType) (rs : Requirements) :
    unpriced types rs = types.filter fun t => ∀ o ∈ t.offerings, ¬ o.Open rs := by
  refine List.filter_congr fun t _ => ?_
  rw [Bool.eq_iff_iff, Option.isNone_iff_eq_none, InstanceType.cheapestPrice?_eq_none,
    decide_eq_true_eq]

theorem priced_sorted (types : List InstanceType) (rs : Requirements) :
    (priced types rs).Pairwise fun a b => ∃ p q, a.LeastPrice rs p ∧ b.LeastPrice rs q ∧
      Precedes (p, a.name) (q, b.name) := by
  have hprice : ∀ x ∈ (types.filterMap (pricedType rs)).mergeSort cheaperFirst,
      x.2.LeastPrice rs x.1 := by
    intro x hx
    exact (mem_filterMap_pricedType.1 (List.mem_mergeSort.1 hx)).2
  have hsorted := cheaperFirst_keyed.sorted (types.filterMap (pricedType rs))
  refine List.pairwise_map.2 (hsorted.imp_of_mem fun {x y} hx hy hle => ?_)
  exact ⟨x.1, y.1, hprice x hx, hprice y hy, hle⟩

theorem priced_stable (types : List InstanceType) (rs : Requirements) (p : Binary64)
    (name : String) : (priced types rs).filter (fun t => t.name = name ∧ t.LeastPrice rs p) =
      types.filter fun t => t.name = name ∧ t.LeastPrice rs p := by
  have htied : ∀ x ∈ (types.filterMap (pricedType rs)).filter
      ((fun t => decide (t.name = name ∧ t.LeastPrice rs p)) ∘ Prod.snd),
        (x.1, x.2.name) = (p, name) := by
    intro x hx
    obtain ⟨hmem, hp⟩ := List.mem_filter.1 hx
    obtain ⟨hname, hprice⟩ : x.2.name = name ∧ x.2.LeastPrice rs p := by simpa using hp
    rw [hname, (mem_filterMap_pricedType.1 hmem).2.unique hprice]
  have hstable := cheaperFirst_keyed.stable fun a ha b hb => (htied a ha).trans (htied b hb).symm
  unfold priced
  rw [List.filter_map, hstable, ← List.filter_map, map_filterMap_pricedType, List.filter_filter]
  refine List.filter_congr fun t _ => ?_
  rw [Bool.eq_iff_iff, Bool.and_eq_true, decide_eq_true_eq, and_iff_left_iff_imp]
  rintro ⟨-, hprice⟩
  rw [InstanceType.cheapestPrice?_eq_some.2 hprice]
  rfl

theorem priced_of_perm (hnames : (types.map (·.name)).Nodup) (h : types.Perm types') :
    priced types' rs = priced types rs := by
  refine congrArg (List.map Prod.snd) (cheaperFirst_keyed.eq_of_perm (h.filterMap _) ?_).symm
  intro a ha b hb hkey
  obtain ⟨hprice, hname⟩ := Prod.mk.inj hkey
  have hshape : a.2 = b.2 := List.inj_on_of_nodup_map hnames (mem_filterMap_pricedType.1 ha).1
    (mem_filterMap_pricedType.1 hb).1 hname
  exact Prod.ext hprice hshape

theorem priced_reordered (h : List.Forall₂ InstanceType.Reordered types types') :
    List.Forall₂ InstanceType.Reordered (priced types rs) (priced types' rs) := by
  have hpriced : List.Forall₂ (fun x y => x.1 = y.1 ∧ x.2.Reordered y.2)
      (types.filterMap (pricedType rs)) (types'.filterMap (pricedType rs)) := by
    refine List.rel_filterMap (fun t t' ht => ?_) h
    unfold pricedType
    rw [ht.cheapestPrice?]
    cases t.cheapestPrice? rs with
    | none => exact .none
    | some p => exact .some ⟨rfl, ht⟩
  have hsorted : List.Forall₂ (fun x y => x.1 = y.1 ∧ x.2.Reordered y.2)
      ((types.filterMap (pricedType rs)).mergeSort cheaperFirst)
        ((types'.filterMap (pricedType rs)).mergeSort cheaperFirst) := by
    refine forall₂_mergeSort (fun ha hb => ?_) hpriced
    unfold cheaperFirst
    rw [ha.1, hb.1, ha.2.name, hb.2.name]
  exact List.forall₂_map_left_iff.2 (List.forall₂_map_right_iff.2 (hsorted.imp fun _ _ h => h.2))

/-- How the shapes are parted into those that are tried, and in what order, and the rest. -/
structure PriceOrder (types : List InstanceType) (rs : Requirements)
    (tried rest : List InstanceType) : Prop where
  whole : (tried ++ rest).Perm types
  rest_eq : rest = types.filter fun t => ∀ o ∈ t.offerings, ¬ o.Open rs
  priced : ∀ t ∈ tried, ∃ p, t.LeastPrice rs p
  sorted : tried.Pairwise fun a b => ∃ p q, a.LeastPrice rs p ∧ b.LeastPrice rs q ∧
    Precedes (p, a.name) (q, b.name)
  stable : ∀ p name, tried.filter (fun t => t.name = name ∧ t.LeastPrice rs p) =
    types.filter fun t => t.name = name ∧ t.LeastPrice rs p

/-- Shapes go by least price and then by name, and with distinct names nothing else decides. -/
theorem priced_ordered (types : List InstanceType) (rs : Requirements) :
    PriceOrder types rs (priced types rs) (unpriced types rs) ∧
      ((types.map (·.name)).Nodup →
        (∀ types', types.Perm types' → priced types' rs = priced types rs) ∧
          ∀ mid types', types.Perm mid → List.Forall₂ InstanceType.Reordered mid types' →
            List.Forall₂ InstanceType.Reordered (priced types rs) (priced types' rs)) := by
  refine ⟨⟨perm_priced_unpriced types rs, unpriced_eq types rs, fun t ht => ?_,
    priced_sorted types rs, priced_stable types rs⟩, fun hnames => ⟨fun _ => priced_of_perm hnames,
      fun mid types' hperm hreordered => ?_⟩⟩
  · obtain ⟨x, hx, rfl⟩ := List.mem_map.1 ht
    exact ⟨x.1, (mem_filterMap_pricedType.1 (List.mem_mergeSort.1 hx)).2⟩
  · rw [← priced_of_perm hnames hperm]
    exact priced_reordered hreordered

def offeredIn (zone : String) (price : Binary64) : Offering :=
  { price, available := true, labels := .ofList [(Label.zone, zone)] }

def smallType (offerings : List Offering) : InstanceType :=
  { name := "s1.small", capacity := {}, offerings }

def largeType : InstanceType :=
  { name := "m1.large", capacity := {}, offerings := [offeredIn "z1" .quietNaN] }

def remoteType : InstanceType :=
  { name := "c1.large", capacity := {}, offerings := [offeredIn "z2" .zero] }

/-- In the first zone one shape has a price that is no number, one is not to be had, and one costs
nothing in two ways. -/
def oddTypes : List InstanceType :=
  [largeType, remoteType, smallType [offeredIn "z1" .zero, offeredIn "z1" (.negate .zero)]]

def turnedTypes : List InstanceType :=
  [smallType [offeredIn "z1" (.negate .zero), offeredIn "z1" .zero], remoteType, largeType]

def inFirstZone : Requirements := [.isIn Label.zone ["z1"]]

theorem priced_ordered_turned : (oddTypes.map (·.name)).Nodup ∧ oddTypes.Perm oddTypes.reverse ∧
    List.Forall₂ InstanceType.Reordered oddTypes.reverse turnedTypes ∧
      priced oddTypes.reverse inFirstZone = priced oddTypes inFirstZone ∧
        List.Forall₂ InstanceType.Reordered (priced oddTypes inFirstZone)
          (priced turnedTypes inFirstZone) := by
  have hnames : (oddTypes.map (·.name)).Nodup := by decide
  have hperm : oddTypes.Perm oddTypes.reverse := oddTypes.reverse_perm.symm
  have hturned : List.Forall₂ InstanceType.Reordered oddTypes.reverse turnedTypes :=
    .cons ⟨.swap _ _ [], rfl⟩ (.cons ⟨.refl _, rfl⟩ (.cons ⟨.refl _, rfl⟩ .nil))
  obtain ⟨hsame, hreordered⟩ := (priced_ordered oddTypes inFirstZone).2 hnames
  exact ⟨hnames, hperm, hturned, hsame _ hperm, hreordered _ _ hperm hturned⟩

example : (priced oddTypes inFirstZone).map (·.name) = ["s1.small", "m1.large"] ∧
    unpriced oddTypes inFirstZone = [remoteType] := by
  constructor
  · cbv
  · decide

end Placement
end NodeProvisioner
