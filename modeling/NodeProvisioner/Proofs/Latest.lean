import Mathlib.Data.List.Induction

/-! Rows in which a later element overrules the earlier ones. What holds behind such a row is what
the last of its elements says that says anything. -/
namespace NodeProvisioner

/-- The last element of the row that says anything says `b`. -/
def Latest {α β : Type} (Says : α → β → Prop) (row : List α) (b : β) : Prop :=
  ∃ before a after, row = before ++ a :: after ∧ Says a b ∧ ∀ later ∈ after, ∀ c, ¬ Says later c

namespace Latest
variable {α β σ : Type} {Says : α → β → Prop} {row : List α} {b : β}

theorem mem (h : Latest Says row b) : ∃ a ∈ row, Says a b := by
  obtain ⟨before, a, after, rfl, hword, -⟩ := h
  exact ⟨a, by simp, hword⟩

theorem not_nil : ¬ Latest Says [] b := by
  rintro ⟨before, a, after, h, -⟩
  simp at h

theorem concat_iff {a : α} : Latest Says (row ++ [a]) b ↔
    Says a b ∨ (∀ c, ¬ Says a c) ∧ Latest Says row b := by
  constructor
  · rintro ⟨before, x, after, hrow, hword, hlast⟩
    -- Either `x` is the new element or it stands before that.
    rcases after.eq_nil_or_concat with rfl | ⟨after, y, rfl⟩
    · obtain ⟨-, hx⟩ := List.append_inj' hrow rfl
      cases hx
      exact .inl hword
    · rw [List.concat_eq_append, ← List.cons_append, ← List.append_assoc] at hrow
      obtain ⟨rfl, hy⟩ := List.append_inj' hrow rfl
      cases hy
      simp only [List.concat_eq_append, List.mem_append, List.mem_singleton] at hlast
      exact .inr ⟨hlast a (.inr rfl), before, x, after, rfl, hword,
        fun later h => hlast later (.inl h)⟩
  · rintro (hword | ⟨hnot, before, x, after, rfl, hword, hlast⟩)
    · exact ⟨row, a, [], rfl, hword, by simp⟩
    · refine ⟨before, x, after ++ [a], by simp, hword, ?_⟩
      simp only [List.mem_append, List.mem_singleton]
      rintro later (h | rfl)
      · exact hlast later h
      · exact hnot

/-- Where each element puts what it says in the place of what held before it, and an element that
says nothing keeps that, the last one decides. -/
theorem foldl_iff {next : σ → α → σ} (Holds : σ → β → Prop) {s : σ} (hstart : ∀ b, ¬ Holds s b)
    (hstep : ∀ s a b, Holds (next s a) b ↔ Says a b ∨ (∀ c, ¬ Says a c) ∧ Holds s b) :
    Holds (row.foldl next s) b ↔ Latest Says row b := by
  induction row using List.reverseRecOn with
  | nil => exact iff_of_false (hstart b) not_nil
  | append_singleton row a ih =>
    rw [List.foldl_append, List.foldl_cons, List.foldl_nil, hstep, ih, concat_iff]

end Latest
end NodeProvisioner
