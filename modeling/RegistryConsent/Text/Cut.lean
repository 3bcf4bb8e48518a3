/-!
# Cutting a text at its first separator

`cut?` gives the parts in front of and behind the first occurrence of a separator. It fails exactly
when the separator does not occur, and the parts joined by the separator are the text again.
-/

namespace RegistryConsent.Text

/-- The parts in front of and behind the first `sep`. -/
def cut? (sep : Char) : List Char → Option (List Char × List Char)
  | [] => none
  | c :: cs => if c = sep then some ([], cs) else (cut? sep cs).map fun (a, b) => (c :: a, b)

/-- A text has no cut exactly when the separator does not occur in it. -/
theorem cut?_eq_none_iff {sep : Char} {cs : List Char} : cut? sep cs = none ↔ sep ∉ cs := by
  induction cs with
  | nil => simp [cut?]
  | cons c cs ih =>
    by_cases h : c = sep
    · simp [cut?, h]
    · simp [cut?, h, ih, Ne.symm h]

/-- A cut is at the first separator. -/
theorem cut?_eq_some_iff {sep : Char} {cs a b : List Char} :
    cut? sep cs = some (a, b) ↔ sep ∉ a ∧ cs = a ++ sep :: b := by
  induction cs generalizing a with
  | nil => simp [cut?]
  | cons c cs ih =>
    by_cases h : c = sep
    · subst h
      cases a <;> simp [cut?]
      intro h1 _ h2
      exact absurd h2.symm (Ne.symm h1)
    · cases a with
      | nil => simp [cut?, h]
      | cons x a =>
        simp only [cut?, h, if_false, Option.map_eq_some_iff, Prod.exists, Prod.mk.injEq,
          List.cons.injEq, List.mem_cons, not_or, List.cons_append]
        constructor
        · rintro ⟨y, z, hyz, ⟨rfl, rfl⟩, rfl⟩
          obtain ⟨h1, h2⟩ := ih.1 hyz
          exact ⟨⟨Ne.symm h, h1⟩, rfl, h2⟩
        · rintro ⟨⟨_, h1⟩, rfl, h2⟩
          exact ⟨a, b, ih.2 ⟨h1, h2⟩, ⟨rfl, rfl⟩, rfl⟩

end RegistryConsent.Text
