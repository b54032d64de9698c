import Mathlib.Data.List.Forall2
import Mathlib.Data.List.Perm.Basic
import NodeProvisioner.Launch.Placement

/-! Sorting by a number and then by a name. Any two patterns can be compared, also those that are
not numbers, so what is sorted does not depend on the order in which it came. -/
namespace NodeProvisioner

namespace Binary64

def negative (x : Binary64) : Bool := signBit ≤ x.bits.toNat

def unsigned (x : Binary64) : Nat := x.bits.toNat % signBit

/-- The total order on patterns: whatever is negative comes before whatever is not, and magnitudes
count backwards where the sign is set. -/
def TotalLe (x y : Binary64) : Prop :=
  match x.negative, y.negative with
  | true, true => y.unsigned ≤ x.unsigned
  | true, false => True
  | false, true => False
  | false, false => x.unsigned ≤ y.unsigned

theorem totalLe_iff {x y : Binary64} : x.TotalLe y ↔ x.rank ≤ y.rank := by
  have hx := x.bits.toNat_lt
  have hy := y.bits.toNat_lt
  unfold TotalLe negative unsigned rank signBit
  by_cases hxs : 0x8000000000000000 ≤ x.bits.toNat <;>
    by_cases hys : 0x8000000000000000 ≤ y.bits.toNat
  all_goals
    simp only [hxs, hys, decide_true, decide_false, true_iff, false_iff]
    split <;> split <;> omega

instance (x y : Binary64) : Decidable (x.TotalLe y) := decidable_of_iff _ totalLe_iff.symm

example : quietNaN.negate.TotalLe infinity.negate ∧ infinity.negate.TotalLe zero.negate ∧
    zero.negate.TotalLe zero ∧ ¬ zero.TotalLe zero.negate ∧ zero.TotalLe infinity ∧
      infinity.TotalLe quietNaN := by decide

namespace TotalLe
variable {x y z : Binary64}

theorem trans (hxy : x.TotalLe y) (hyz : y.TotalLe z) : x.TotalLe z :=
  totalLe_iff.2 (Nat.le_trans (totalLe_iff.1 hxy) (totalLe_iff.1 hyz))

theorem antisymm (hxy : x.TotalLe y) (hyx : y.TotalLe x) : x = y :=
  rank_injective (Nat.le_antisymm (totalLe_iff.1 hxy) (totalLe_iff.1 hyx))

theorem total (x y : Binary64) : x.TotalLe y ∨ y.TotalLe x := by
  simpa only [totalLe_iff] using Nat.le_total x.rank y.rank

theorem refl (x : Binary64) : x.TotalLe x := totalLe_iff.2 (Nat.le_refl x.rank)

end TotalLe

theorem le_iff {x y : Binary64} : x.le y = true ↔ x.TotalLe y := by simp [le, totalLe_iff]

theorem min_totalLe (x y : Binary64) : (x.min y).TotalLe x ∧ (x.min y).TotalLe y := by
  unfold min
  split
  · next h => exact ⟨.refl x, le_iff.1 h⟩
  · next h =>
    exact ⟨(TotalLe.total x y).resolve_left fun hle => h (le_iff.2 hle), .refl y⟩

theorem min_eq (x y : Binary64) : x.min y = x ∨ x.min y = y := by
  unfold min
  split
  · exact .inl rfl
  · exact .inr rfl

theorem foldl_min_mem (p : Binary64) (ps : List Binary64) :
    ps.foldl min p ∈ p :: ps := by
  induction ps generalizing p with
  | nil => exact List.mem_cons_self
  | cons q qs ih =>
    rcases List.mem_cons.1 (ih (p.min q)) with h | h
    · rw [List.foldl_cons, h]
      rcases min_eq p q with h | h <;> simp [h]
    · exact List.mem_cons_of_mem p (List.mem_cons_of_mem q h)

theorem foldl_min_totalLe (p : Binary64) (ps : List Binary64) :
    ∀ q ∈ p :: ps, (ps.foldl min p).TotalLe q := by
  induction ps generalizing p with
  | nil => simp [TotalLe.refl]
  | cons r rs ih =>
    obtain ⟨hmin, hrest⟩ := List.forall_mem_cons.1 (ih (p.min r))
    refine List.forall_mem_cons.2 ⟨hmin.trans (min_totalLe p r).1, ?_⟩
    exact List.forall_mem_cons.2 ⟨hmin.trans (min_totalLe p r).2, hrest⟩

end Binary64

namespace Placement

/-- By number, and by name where the numbers are the same. -/
structure Precedes (a b : Binary64 × String) : Prop where
  number : a.1.TotalLe b.1
  name : a.1 = b.1 → a.2 ≤ b.2

namespace Precedes
variable {a b c : Binary64 × String}

theorem trans (hab : Precedes a b) (hbc : Precedes b c) : Precedes a c where
  number := hab.number.trans hbc.number
  name hac := by
    have hba : b.1.TotalLe a.1 := hac ▸ hbc.number
    have heq : a.1 = b.1 := hab.number.antisymm hba
    exact String.le_trans (hab.name heq) (hbc.name (heq.symm.trans hac))

theorem antisymm (hab : Precedes a b) (hba : Precedes b a) : a = b := by
  have heq : a.1 = b.1 := hab.number.antisymm hba.number
  exact Prod.ext heq (String.le_antisymm (hab.name heq) (hba.name heq.symm))

theorem total (a b : Binary64 × String) : Precedes a b ∨ Precedes b a := by
  by_cases heq : a.1 = b.1
  · exact (String.le_total a.2 b.2).imp (fun h => ⟨heq ▸ .refl a.1, fun _ => h⟩)
      fun h => ⟨heq ▸ .refl a.1, fun _ => h⟩
  · exact (Binary64.TotalLe.total a.1 b.1).imp (fun h => ⟨h, fun h' => absurd h' heq⟩)
      fun h => ⟨h, fun h' => absurd h'.symm heq⟩

theorem refl (a : Binary64 × String) : Precedes a a := (total a a).elim id id

theorem iff_rank {a b : Binary64 × String} : Precedes a b ↔
    a.1.rank < b.1.rank ∨ a.1.rank = b.1.rank ∧ a.2 ≤ b.2 := by
  constructor
  · intro h
    rcases Nat.lt_or_eq_of_le (Binary64.totalLe_iff.1 h.number) with hlt | heq
    · exact .inl hlt
    · exact .inr ⟨heq, h.name (Binary64.rank_injective heq)⟩
  · rintro (hlt | ⟨heq, hname⟩)
    · refine ⟨Binary64.totalLe_iff.2 (Nat.le_of_lt hlt), fun heq => ?_⟩
      rw [heq] at hlt
      exact absurd hlt (Nat.lt_irrefl _)
    · exact ⟨Binary64.totalLe_iff.2 (Nat.le_of_eq heq), fun _ => hname⟩

end Precedes

/-- A comparison that looks at a number and a name of what it compares. -/
def KeyedBy {α : Type} (key : α → Binary64 × String) (le : α → α → Bool) : Prop :=
  ∀ a b, le a b = true ↔ Precedes (key a) (key b)

theorem cheaperFirst_keyed : KeyedBy (fun a => (a.1, a.2.name)) cheaperFirst := by
  simp [KeyedBy, cheaperFirst, Precedes.iff_rank]

theorem idlerFirst_keyed : KeyedBy id idlerFirst := by
  simp [KeyedBy, idlerFirst, Precedes.iff_rank]

namespace KeyedBy
variable {α β : Type} {key : α → Binary64 × String} {le : α → α → Bool}

theorem trans (h : KeyedBy key le) (a b c : α) (hab : le a b = true) (hbc : le b c = true) :
    le a c = true :=
  (h a c).2 (((h a b).1 hab).trans ((h b c).1 hbc))

theorem total (h : KeyedBy key le) (a b : α) : (le a b || le b a) = true := by
  rw [Bool.or_eq_true, h a b, h b a]
  exact Precedes.total (key a) (key b)

theorem sorted (h : KeyedBy key le) (xs : List α) :
    (xs.mergeSort le).Pairwise fun a b => Precedes (key a) (key b) :=
  (List.pairwise_mergeSort h.trans h.total xs).imp fun {a b} hab => (h a b).1 hab

theorem stable (h : KeyedBy key le) {p : α → Bool} {xs : List α}
    (hp : ∀ a ∈ xs.filter p, ∀ b ∈ xs.filter p, key a = key b) :
    (xs.mergeSort le).filter p = xs.filter p := by
  have htied : (xs.filter p).Pairwise fun a b => le a b = true := by
    refine List.Pairwise.imp_of_mem (R := fun _ _ => True) (fun {a b} ha hb _ => ?_)
      (List.pairwise_of_forall fun _ _ => trivial)
    rw [h, hp a ha b hb]
    exact Precedes.refl (key b)
  have hsub : (xs.filter p).Sublist (xs.mergeSort le) :=
    List.sublist_mergeSort h.trans h.total htied List.filter_sublist
  have hsame : (xs.filter p).Sublist ((xs.mergeSort le).filter p) := by
    simpa only [List.filter_filter, Bool.and_self] using hsub.filter p
  exact (hsame.eq_of_length ((List.mergeSort_perm xs le).filter p).length_eq.symm).symm

/-- Where no two elements share a key, the order they came in is lost. -/
theorem eq_of_perm (h : KeyedBy key le) {xs ys : List α} (hperm : xs.Perm ys)
    (hkey : ∀ a ∈ xs, ∀ b ∈ xs, key a = key b → a = b) : xs.mergeSort le = ys.mergeSort le := by
  have hsorts : (xs.mergeSort le).Perm (ys.mergeSort le) :=
    (List.mergeSort_perm xs le).trans (hperm.trans (List.mergeSort_perm ys le).symm)
  refine hsorts.eq_of_pairwise (fun a b ha hb hab hba => ?_) (h.sorted xs) (h.sorted ys)
  rw [List.mem_mergeSort] at ha hb
  exact hkey a ha b (hperm.mem_iff.2 hb) (hab.antisymm hba)

end KeyedBy

theorem forall₂_mergeSort {α β : Type} {R : α → β → Prop} {le : α → α → Bool} {le' : β → β → Bool}
    (hR : ∀ {a b a' b'}, R a a' → R b b' → le a b = le' a' b') {xs : List α} {ys : List β}
    (h : List.Forall₂ R xs ys) : List.Forall₂ R (xs.mergeSort le) (ys.mergeSort le') := by
  obtain ⟨hlength, hzip⟩ := List.forall₂_iff_zip.1 h
  -- Both sorts are parts of one sort of the pairs.
  let byFirst (p q : α × β) : Bool := le p.1 q.1
  have hfirst : ((xs.zip ys).mergeSort byFirst).map Prod.fst = xs.mergeSort le := by
    rw [List.map_mergeSort (s := le) fun _ _ _ _ => rfl, List.map_fst_zip (by omega)]
  have hsecond : ((xs.zip ys).mergeSort byFirst).map Prod.snd = ys.mergeSort le' := by
    rw [List.map_mergeSort (s := le') fun _ hp _ hq => hR (hzip hp) (hzip hq),
      List.map_snd_zip (by omega)]
  rw [← hfirst, ← hsecond, List.forall₂_map_left_iff, List.forall₂_map_right_iff,
    List.forall₂_same]
  exact fun p hp => hzip (List.mem_mergeSort.1 hp)

end Placement
end NodeProvisioner
