import Mathlib.Data.List.DropRight
import RegistryConsent.Text.Blank

/-!
# Texts without blanks at their ends

Trimming leaves a text as it is whose ends are not blank. A character that is not blank keeps apart
what is dropped in front of it and behind it, so that a text can be trimmed at either end first and
is trimmed once and for all.
-/

namespace RegistryConsent.Text

/-- A text of blanks, or none. -/
def AllBlank (cs : List Char) : Prop := ∀ c ∈ cs, isBlank c = true

/-- Nothing is dropped in front of a character that is not blank. -/
theorem dropBlanks_eq_self {cs : List Char} (h : ∀ c ∈ cs.head?, isBlank c = false) :
    dropBlanks cs = cs := by
  cases cs with
  | nil => rfl
  | cons c cs =>
    have visible : ¬isBlank c = true := by
      rw [h c rfl]
      exact Bool.false_ne_true
    exact List.dropWhile_cons_of_neg visible

/-- A text is not trimmed whose first and last characters are not blank. -/
theorem strip_eq_self {cs : List Char} (first : ∀ c ∈ cs.head?, isBlank c = false)
    (last : ∀ c ∈ cs.getLast?, isBlank c = false) : strip cs = cs := by
  rw [← List.head?_reverse] at last
  rw [strip, dropBlanks_eq_self first, dropBlanksEnd, dropBlanks_eq_self last, List.reverse_reverse]

/-- What stands behind a character that is not blank is not dropped in front. -/
theorem dropBlanks_append_cons {c : Char} (visible : isBlank c = false) (a b : List Char) :
    dropBlanks (a ++ c :: b) = dropBlanks a ++ c :: b := by
  rw [dropBlanks, dropBlanks, List.dropWhile_append]
  split
  · next blank =>
    rw [List.isEmpty_iff.mp blank]
    exact List.dropWhile_cons_of_neg (Bool.eq_false_iff.mp visible)
  · rfl

/-- What stands in front of a character that is not blank is not dropped at the end. -/
theorem dropBlanksEnd_append_cons {c : Char} (visible : isBlank c = false) (a b : List Char) :
    dropBlanksEnd (a ++ c :: b) = a ++ c :: dropBlanksEnd b := by
  have mirrored : (a ++ c :: b).reverse = b.reverse ++ c :: a.reverse := by simp
  rw [dropBlanksEnd, mirrored, dropBlanks_append_cons visible, dropBlanksEnd]
  simp

/-- Nothing is left of a text of blanks, and of no other, when those at its end are dropped. -/
theorem dropBlanksEnd_eq_nil_iff {cs : List Char} : dropBlanksEnd cs = [] ↔ AllBlank cs :=
  List.rdropWhile_eq_nil_iff

/-- What is dropped at the end may be longer. -/
theorem dropBlanksEnd_append {blanks : List Char} (blank : AllBlank blanks) (cs : List Char) :
    dropBlanksEnd (cs ++ blanks) = dropBlanksEnd cs := by
  have front : ∀ c ∈ blanks.reverse, isBlank c = true :=
    fun c hc => blank c (List.mem_reverse.mp hc)
  rw [dropBlanksEnd, dropBlanksEnd, List.reverse_append, dropBlanks,
    List.dropWhile_append_of_pos front]
  rfl

/-- A text that is not all blank holds a character that is not. -/
theorem exists_visible {cs : List Char} (h : ¬AllBlank cs) :
    ∃ a c b, cs = a ++ c :: b ∧ isBlank c = false := by
  have visible : ∃ c ∈ cs, isBlank c = false := by simpa [AllBlank] using h
  obtain ⟨c, hc, visible⟩ := visible
  obtain ⟨a, b, rfl⟩ := List.append_of_mem hc
  exact ⟨a, c, b, rfl, visible⟩

/-- Trimming leaves nothing of a text of blanks, and of no other. -/
theorem strip_eq_nil_iff {cs : List Char} : strip cs = [] ↔ AllBlank cs := by
  constructor
  · intro none
    by_contra h
    obtain ⟨a, c, b, rfl, visible⟩ := exists_visible h
    rw [strip, dropBlanks_append_cons visible, dropBlanksEnd_append_cons visible] at none
    exact List.append_ne_nil_of_right_ne_nil _ (List.cons_ne_nil _ _) none
  · intro blank
    have front : dropBlanks cs = [] := List.dropWhile_eq_nil_iff.mpr blank
    rw [strip, front]
    rfl

/-- Either end may be trimmed first. -/
theorem dropBlanks_dropBlanksEnd (cs : List Char) :
    dropBlanks (dropBlanksEnd cs) = dropBlanksEnd (dropBlanks cs) := by
  by_cases blank : AllBlank cs
  · have front : dropBlanks cs = [] := List.dropWhile_eq_nil_iff.mpr blank
    rw [front, dropBlanksEnd_eq_nil_iff.mpr blank]
    rfl
  · obtain ⟨a, c, b, rfl, visible⟩ := exists_visible blank
    rw [dropBlanksEnd_append_cons visible, dropBlanks_append_cons visible,
      dropBlanks_append_cons visible, dropBlanksEnd_append_cons visible]

/-- Blanks at the end do not matter to trimming. -/
theorem strip_dropBlanksEnd (cs : List Char) : strip (dropBlanksEnd cs) = strip cs := by
  rw [strip, dropBlanks_dropBlanksEnd]
  exact List.rdropWhile_idempotent isBlank _

/-- A blank in front does not matter to trimming. -/
theorem strip_cons_of_isBlank {c : Char} (blank : isBlank c = true) (cs : List Char) :
    strip (c :: cs) = strip cs :=
  congrArg dropBlanksEnd (List.dropWhile_cons_of_pos blank)

/-- A text is trimmed once and for all. -/
theorem strip_strip (cs : List Char) : strip (strip cs) = strip cs := by
  change strip (dropBlanksEnd (dropBlanks cs)) = _
  rw [strip_dropBlanksEnd, strip]
  exact congrArg dropBlanksEnd (List.dropWhile_idempotent isBlank cs)

/-- Blanks are dropped in front. -/
theorem exists_dropBlanks (cs : List Char) :
    ∃ front, AllBlank front ∧ cs = front ++ dropBlanks cs :=
  ⟨cs.takeWhile isBlank, List.all_eq_true.mp List.all_takeWhile,
    List.takeWhile_append_dropWhile.symm⟩

/-- Trimming takes blanks away at both ends. -/
theorem exists_strip (cs : List Char) :
    ∃ front back, AllBlank front ∧ AllBlank back ∧ cs = front ++ strip cs ++ back := by
  obtain ⟨front, blank, split⟩ := exists_dropBlanks cs
  obtain ⟨back, blank', mirrored⟩ := exists_dropBlanks (dropBlanks cs).reverse
  have ending : dropBlanks cs = strip cs ++ back.reverse := by
    rw [strip, dropBlanksEnd, ← List.reverse_append, ← mirrored, List.reverse_reverse]
  refine ⟨front, back.reverse, blank, fun c hc => blank' c (List.mem_reverse.mp hc), ?_⟩
  rw [List.append_assoc, ← ending]
  exact split

/-- Blanks at the ends do not matter to trimming. -/
theorem strip_append {front back : List Char} (hf : AllBlank front) (hb : AllBlank back)
    (cs : List Char) : strip (front ++ cs ++ back) = strip cs := by
  rw [← strip_dropBlanksEnd, dropBlanksEnd_append hb, strip_dropBlanksEnd]
  induction front with
  | nil => rfl
  | cons c front ih =>
    rw [List.cons_append, strip_cons_of_isBlank (hf c List.mem_cons_self)]
    exact ih fun b hb => hf b (List.mem_cons_of_mem c hb)

/-- Dropping the blanks at the end adds nothing. -/
theorem dropBlanksEnd_subset (cs : List Char) : dropBlanksEnd cs ⊆ cs :=
  (List.rdropWhile_prefix isBlank cs).subset

/-- Trimming adds nothing. -/
theorem strip_subset (cs : List Char) : strip cs ⊆ cs :=
  List.Subset.trans (dropBlanksEnd_subset _) (List.dropWhile_suffix isBlank).subset

/-- What is left of a text starts with its first character that is not blank. -/
theorem head?_strip {cs : List Char} (h : strip cs ≠ []) :
    (strip cs).head? = (dropBlanks cs).head? := by
  obtain ⟨rest, whole⟩ := List.rdropWhile_prefix isBlank (dropBlanks cs)
  rw [← whole]
  exact (List.head?_append_of_ne_nil _ h).symm

end RegistryConsent.Text
