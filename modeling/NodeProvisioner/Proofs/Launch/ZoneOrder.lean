import Mathlib.Logic.Function.Basic
import NodeProvisioner.Proofs.Launch.Placement

/-! The order in which zones are tried. Balancing goes by load and then by name, so that neither
chance nor the order in which the zones came has a part in it. Without it chance alone decides, and
any order of the zones can come about. -/
namespace NodeProvisioner.Placement

section shuffle
variable {α : Type}

theorem shuffle_cons {draw : Nat → Nat} {x : α} {xs : List α} {i : Nat}
    (hi : i = draw xs.length % (xs.length + 1)) (hlt : i < (x :: xs).length) :
    shuffle draw (x :: xs) = (x :: xs)[i] :: shuffle draw ((x :: xs).eraseIdx i) := by
  subst hi
  rw [shuffle]
  rfl

/-- An element is drawn with the number of those that stay, so a shuffle looks at no draw for its
length or above. -/
theorem shuffle_congr {draw draw' : Nat → Nat} (xs : List α)
    (h : ∀ n < xs.length, draw n = draw' n) : shuffle draw xs = shuffle draw' xs := by
  fun_induction shuffle draw xs with
  | case1 => simp [shuffle]
  | case2 x xs i ih =>
    have hlength : ((x :: xs).eraseIdx i.val).length = xs.length := by
      rw [List.length_eraseIdx_of_lt i.isLt]
      simp
    have hi : i.val = draw' xs.length % (xs.length + 1) := by
      rw [← h xs.length (by simp)]
      rfl
    rw [shuffle_cons hi i.isLt, ih]
    intro n hn
    apply h
    simp only [List.length_cons]
    omega

theorem shuffle_update (draw : Nat → Nat) (x : α) (xs : List α) {i : Nat}
    (hi : i < (x :: xs).length) :
    shuffle (Function.update draw xs.length i) (x :: xs) =
      (x :: xs)[i] :: shuffle draw ((x :: xs).eraseIdx i) := by
  have hdraw : i = Function.update draw xs.length i xs.length % (xs.length + 1) := by
    rw [Function.update_self]
    exact (Nat.mod_eq_of_lt hi).symm
  have hlength : ((x :: xs).eraseIdx i).length = xs.length := by
    rw [List.length_eraseIdx_of_lt hi]
    simp
  rw [shuffle_cons hdraw hi]
  congr 1
  apply shuffle_congr
  intro n hn
  apply Function.update_of_ne
  omega

/-- Every order of the elements is drawn some time. -/
theorem exists_shuffle_eq {xs ys : List α} (h : ys.Perm xs) : ∃ draw, shuffle draw xs = ys := by
  induction ys generalizing xs with
  | nil =>
    rw [List.nil_perm.1 h]
    exact ⟨id, by simp [shuffle]⟩
  | cons y ys ih =>
    obtain ⟨i, hi, rfl⟩ := List.mem_iff_getElem.1 (h.mem_iff.1 List.mem_cons_self)
    have hrest : ys.Perm (xs.eraseIdx i) := by
      apply List.Perm.cons_inv
      exact h.trans (List.getElem_cons_eraseIdx_perm hi).symm
    obtain ⟨draw, hdraw⟩ := ih hrest
    cases xs with
    | nil => simp at hi
    | cons x xs => exact ⟨_, by rw [shuffle_update draw x xs hi, hdraw]⟩

end shuffle

theorem orderZones_of_perm {load : String → Binary64} {zones zones' : List String}
    (h : zones.Perm zones') (draw draw' : Nat → Nat) :
    orderZones .balanced load draw zones = orderZones .balanced load draw' zones' := by
  have hsame := idlerFirst_keyed.eq_of_perm (h.map fun z => (load z, z)) fun _ _ _ _ => id
  simp only [orderZones, hsame]

/-- Zones go by load in the total order and then by name, or as chance will have it. -/
theorem orderZones_ordered (load : String → Binary64) (zones : List String) :
    (∀ balance draw, (orderZones balance load draw zones).Perm zones) ∧
      (∀ draw, (orderZones .balanced load draw zones).Pairwise fun a b =>
        Precedes (load a, a) (load b, b)) ∧
      (∀ zones' draw draw', zones.Perm zones' →
        orderZones .balanced load draw zones = orderZones .balanced load draw' zones') ∧
      ∀ ordered, ordered.Perm zones →
        ∃ draw, orderZones .availabilityFirst load draw zones = ordered := by
  refine ⟨?_, ?_, ?_, ?_⟩
  · intro balance draw
    exact orderZones_perm balance load draw zones
  · intro draw
    exact orderZones_sorted load draw zones
  · intro zones' draw draw' h
    exact orderZones_of_perm h draw draw'
  · intro ordered h
    exact exists_shuffle_eq h

/-- The load of one zone is no number, that of another is negative zero. -/
def oddLoad : String → Binary64
  | "z1" => .quietNaN
  | "z2" => .negate .zero
  | _ => .zero

def fewZones : List String := ["z1", "z3", "z2", "z0", "z3"]

theorem orderZones_ordered_odd : fewZones.Perm fewZones.reverse ∧
    orderZones .balanced oddLoad id fewZones =
      orderZones .balanced oddLoad (· + 1) fewZones.reverse ∧
    ∃ draw, orderZones .availabilityFirst oddLoad draw fewZones = fewZones.reverse := by
  have hperm : fewZones.Perm fewZones.reverse := fewZones.reverse_perm.symm
  obtain ⟨-, -, hsame, hany⟩ := orderZones_ordered oddLoad fewZones
  exact ⟨hperm, hsame _ _ _ hperm, hany _ hperm.symm⟩

example : orderZones .balanced oddLoad id fewZones = ["z2", "z0", "z3", "z3", "z1"] := by
  have hperm : fewZones.Perm ["z2", "z0", "z3", "z3", "z1"] := by decide
  rw [orderZones_of_perm hperm id id]
  unfold orderZones
  dsimp only
  rw [List.mergeSort_of_pairwise (by decide)]
  rfl

end NodeProvisioner.Placement
