/-! Cutting text at separators. Pieces never hold the separator they were cut at, and a text
without it is its own only piece. -/
namespace NodeProvisioner.Text

/-- The pieces between the characters that satisfy `p`: one more than there are such characters. -/
def piecesBy (p : Char → Bool) (s : String) : List String :=
  (s.toList.splitOnP p).map String.ofList

def pieces (sep : Char) (s : String) : List String := piecesBy (· == sep) s

def cutChars (sep : Char) : List Char → Option (List Char × List Char)
  | [] => none
  | c :: cs =>
    if c = sep then some ([], cs) else (cutChars sep cs).map fun p => (c :: p.1, p.2)

theorem cutChars_eq_some {sep : Char} {s a b : List Char} :
    cutChars sep s = some (a, b) ↔ s = a ++ sep :: b ∧ sep ∉ a := by
  induction s generalizing a with
  | nil => simp [cutChars]
  | cons c cs ih =>
    by_cases h : c = sep
    · subst h
      cases a with
      | nil => simp [cutChars]
      | cons x xs =>
        simp only [cutChars, if_true, Option.some.injEq, Prod.mk.injEq, List.cons_append,
          List.cons.injEq, List.mem_cons, not_or]
        constructor
        · rintro ⟨h, _⟩; cases h
        · rintro ⟨⟨rfl, _⟩, h, _⟩; exact absurd rfl h
    · cases a with
      | nil => simp [cutChars, h, Option.map_eq_some_iff]
      | cons x xs =>
        simp only [cutChars, h, if_false, Option.map_eq_some_iff, Prod.mk.injEq, List.cons.injEq,
          List.cons_append, List.mem_cons, not_or]
        constructor
        · rintro ⟨⟨u, v⟩, huv, ⟨rfl, rfl⟩, rfl⟩
          obtain ⟨rfl, hn⟩ := ih.1 huv
          exact ⟨⟨rfl, rfl⟩, Ne.symm h, hn⟩
        · rintro ⟨⟨rfl, rfl⟩, _, hn⟩
          exact ⟨(xs, b), ih.2 ⟨rfl, hn⟩, ⟨rfl, rfl⟩, rfl⟩

theorem cutChars_eq_none {sep : Char} {s : List Char} : cutChars sep s = none ↔ sep ∉ s := by
  induction s with
  | nil => simp [cutChars]
  | cons c cs ih =>
    by_cases h : c = sep
    · simp [cutChars, h]
    · simp [cutChars, h, ih, Ne.symm h]

/-- Cuts at the first `sep`. -/
def cut? (sep : Char) (s : String) : Option (String × String) :=
  (cutChars sep s.toList).map fun p => (String.ofList p.1, String.ofList p.2)

def cutLast? (sep : Char) (s : String) : Option (String × String) :=
  (cutChars sep s.toList.reverse).map fun p =>
    (String.ofList p.2.reverse, String.ofList p.1.reverse)

def after? (start s : String) : Option String :=
  (start.toList.isPrefixOf? s.toList).map String.ofList

def includes (part : List Char) : List Char → Bool
  | [] => part.isEmpty
  | c :: cs => part.isPrefixOf (c :: cs) || includes part cs

end NodeProvisioner.Text
