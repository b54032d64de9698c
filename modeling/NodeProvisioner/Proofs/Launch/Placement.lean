import NodeProvisioner.Proofs.Launch.Ordering

/-! What is known of the shapes, regions and zones that are tried. The order in which they are
tried is of no account here. -/
namespace NodeProvisioner

namespace Requirements

def leading? (rs : Requirements) (key : String) : Option Requirement :=
  rs.find? fun r => r.key == key && r.operator == .isIn

theorem values_eq (rs : Requirements) (key : String) :
    rs.values key = (rs.leading? key).map (·.values) := rfl

theorem leading?_some {rs : Requirements} {key : String} {r : Requirement}
    (h : rs.leading? key = some r) : r.key = key ∧ r.operator = .isIn := by
  simpa using List.find?_some h

theorem allows_iff {rs : Requirements} {key value : String} : rs.allows key value = true ↔
    ∀ r ∈ rs, r.key = key → r.allows (some value) = true := by
  simp only [allows, List.all_eq_true, List.mem_filter, beq_iff_eq, and_imp]

theorem allows_leading {rs : Requirements} {key value : String} {r : Requirement}
    (h : rs.leading? key = some r) (hvalue : value ∈ r.values) :
    r.allows (some value) = true := by
  simpa [Requirement.allows, (leading?_some h).2] using hvalue

end Requirements

namespace Placement

theorem map_filterMap_pricedType (types : List InstanceType) (rs : Requirements) :
    (types.filterMap (pricedType rs)).map (·.2) =
      types.filter fun t => (t.cheapestPrice? rs).isSome := by
  rw [List.map_filterMap, ← List.filterMap_eq_filter]
  apply List.filterMap_congr
  intro t _
  cases hprice : t.cheapestPrice? rs <;> simp [pricedType, Option.guard, hprice]

theorem priced_perm (types : List InstanceType) (rs : Requirements) :
    (priced types rs).Perm (types.filter fun t => (t.cheapestPrice? rs).isSome) := by
  rw [← map_filterMap_pricedType]
  exact (List.mergeSort_perm _ cheaperFirst).map Prod.snd

theorem mem_priced {types : List InstanceType} {rs : Requirements} {shape : InstanceType} :
    shape ∈ priced types rs ↔
      shape ∈ types ∧ ∃ o ∈ shape.offerings, o.isCompatible rs = true := by
  have hprice : (shape.cheapestPrice? rs).isSome = true ↔
      ∃ o ∈ shape.offerings, o.isCompatible rs = true := by
    have hmem (o : Offering) : o ∈ shape.compatibleOfferings rs ↔
        o ∈ shape.offerings ∧ o.isCompatible rs = true := List.mem_filter
    simp only [← hmem]
    unfold InstanceType.cheapestPrice?
    cases shape.compatibleOfferings rs <;> simp
  rw [(priced_perm types rs).mem_iff, List.mem_filter, hprice]

theorem shuffle_perm {α : Type} (draw : Nat → Nat) (xs : List α) : (shuffle draw xs).Perm xs := by
  fun_induction shuffle draw xs with
  | case1 => exact .nil
  | case2 x xs i ih =>
    have hi : i.val < (x :: xs).length := i.isLt
    exact (ih.cons _).trans (List.getElem_cons_eraseIdx_perm hi)

theorem orderZones_perm (balance : ZoneBalance) (load : String → Binary64) (draw : Nat → Nat)
    (zones : List String) : (orderZones balance load draw zones).Perm zones := by
  cases balance with
  | availabilityFirst => exact shuffle_perm draw zones
  | balanced =>
    have hperm := (List.mergeSort_perm (zones.map fun z => (load z, z)) idlerFirst).map (·.2)
    simpa [orderZones, Function.comp_def] using hperm

theorem orderZones_sorted (load : String → Binary64) (draw : Nat → Nat) (zones : List String) :
    (orderZones .balanced load draw zones).Pairwise fun a b =>
      Precedes (load a, a) (load b, b) := by
  have hload : ∀ x ∈ (zones.map fun z => (load z, z)).mergeSort idlerFirst, x.1 = load x.2 := by
    intro x hx
    rw [List.mem_mergeSort, List.mem_map] at hx
    obtain ⟨zone, -, rfl⟩ := hx
    rfl
  have hsorted := idlerFirst_keyed.sorted (zones.map fun z => (load z, z))
  refine List.pairwise_map.2 (hsorted.imp_of_mem fun {x y} hx hy hle => ?_)
  rw [← hload x hx, ← hload y hy]
  exact hle

theorem mem_orderZones {balance : ZoneBalance} {load : String → Binary64} {draw : Nat → Nat}
    {zones : List String} {zone : String} (h : zone ∈ orderZones balance load draw zones) :
    zone ∈ zones :=
  (orderZones_perm balance load draw zones).mem_iff.1 h

theorem mem_regions {cls : NodeClass} {rs : Requirements} {all : List String} {region : String}
    (h : region ∈ regions cls rs all) :
    (∀ home, cls.spec.region = some home → region = home) ∧
      (cls.spec.region = none → ∀ r, rs.leading? Label.region = some r → r.values ≠ [] →
        region ∈ r.values) := by
  unfold regions at h
  rw [Requirements.values_eq] at h
  cases hclass : cls.spec.region with
  | some home =>
    rw [hclass] at h
    refine ⟨?_, nofun⟩
    rintro _ ⟨⟩
    exact List.mem_singleton.1 h
  | none =>
    rw [hclass] at h
    refine ⟨nofun, fun _ r hr hvalues => ?_⟩
    rw [hr] at h
    cases hvals : r.values with
    | nil => exact absurd hvals hvalues
    | cons v vs => simpa [hvals] using h

theorem mem_regions_self {cls : NodeClass} {rs : Requirements} {region : String}
    (hclass : ∀ home, cls.spec.region = some home → region = home)
    (hfree : cls.spec.region = none → ∀ r, rs.leading? Label.region = some r → r.values ≠ [] →
      region ∈ r.values) : region ∈ regions cls rs [region] := by
  unfold regions
  rw [Requirements.values_eq]
  cases hhome : cls.spec.region with
  | some home => exact List.mem_singleton.2 (hclass home hhome)
  | none =>
    cases hr : rs.leading? Label.region with
    | none => exact List.mem_singleton_self region
    | some r =>
      have hmem := hfree hhome r hr
      cases hvals : r.values with
      | nil => simp [hvals]
      | cons v vs => simpa [hvals] using hmem

theorem namedZones?_eq {rs : Requirements} {r : Requirement}
    (h : rs.leading? Label.zone = some r) (hvalues : r.values ≠ []) :
    namedZones? rs = some r.values := by
  unfold namedZones?
  rw [Requirements.values_eq, h]
  cases hvals : r.values with
  | nil => exact absurd hvals hvalues
  | cons v vs => simp [hvals]

theorem leading?_of_namedZones? {rs : Requirements} {named : List String}
    (h : namedZones? rs = some named) :
    ∃ r, rs.leading? Label.zone = some r ∧ r.values = named ∧ named ≠ [] := by
  unfold namedZones? at h
  rw [Requirements.values_eq] at h
  split at h
  · next v vs hvalues =>
    obtain ⟨r, hr, hvals⟩ := Option.map_eq_some_iff.1 hvalues
    cases h
    exact ⟨r, hr, hvals, List.cons_ne_nil v vs⟩
  · cases h

end Placement
end NodeProvisioner
