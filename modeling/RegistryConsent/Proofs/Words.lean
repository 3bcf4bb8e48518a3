import RegistryConsent.Proofs.Blanks
import RegistryConsent.Proofs.FoldedCase

/-!
# Words and the blanks around them

A word is a text of characters that are not blank. A text is read as its words in order, however
many blanks stand around them. All of it rests on one equation: a blank parts the words in front of
it from those behind it.
-/

namespace RegistryConsent.Text

/-- A text of characters that are not blank, and not the empty one. -/
structure IsWord (w : List Char) : Prop where
  nonempty : w ≠ []
  visible : ∀ c ∈ w, isBlank c = false

/-- Two words with blanks between them and, if any, around them. -/
def SpacedPair (v w cs : List Char) : Prop :=
  ∃ before between after, cs = before ++ v ++ between ++ w ++ after ∧ between ≠ [] ∧
    AllBlank before ∧ AllBlank between ∧ AllBlank after

/-- A given text is checked to be a word. -/
theorem isWord_of_all {w : List Char} (nonempty : w ≠ []) (visible : w.all (!isBlank ·) = true) :
    IsWord w :=
  ⟨nonempty, by simpa only [List.all_eq_true, Bool.not_eq_true'] using visible⟩

/-- There is nothing to trim from a word. -/
theorem IsWord.strip_eq_self {w : List Char} (h : IsWord w) : strip w = w := by
  apply Text.strip_eq_self
  · exact fun c hc => h.visible c (List.mem_of_mem_head? hc)
  · exact fun c hc => h.visible c (List.mem_of_mem_getLast? hc)

/-- A word is one in either case. -/
theorem isWord_map_toLower_iff {w : List Char} : IsWord (w.map Char.toLower) ↔ IsWord w := by
  have visible : (∀ c ∈ w.map Char.toLower, isBlank c = false) ↔ ∀ c ∈ w, isBlank c = false := by
    simp only [List.forall_mem_map, isBlank_toLower]
  constructor
  · rintro ⟨nonempty, hw⟩
    exact ⟨fun h => nonempty (List.map_eq_nil_iff.mpr h), visible.mp hw⟩
  · rintro ⟨nonempty, hw⟩
    exact ⟨fun h => nonempty (List.map_eq_nil_iff.mp h), visible.mpr hw⟩

/-- A blank parts the words. -/
theorem words_append_cons {c : Char} (blank : isBlank c = true) (x y : List Char) :
    words (x ++ c :: y) = words x ++ words y := by
  rw [words, words, words, List.splitOnP_append_cons x y blank, List.filter_append]

/-- Blanks in front belong to no word. -/
theorem words_append_of_allBlank {before : List Char} (blank : AllBlank before) (cs : List Char) :
    words (before ++ cs) = words cs := by
  induction before with
  | nil => rfl
  | cons c before ih =>
    obtain ⟨hc, rest⟩ := List.forall_mem_cons.mp blank
    change words ([] ++ c :: (before ++ cs)) = _
    rw [words_append_cons hc, ih rest]
    rfl

/-- A text of blanks has no words. -/
theorem words_of_allBlank {cs : List Char} (blank : AllBlank cs) : words cs = [] := by
  have h := words_append_of_allBlank blank []
  rwa [List.append_nil] at h

/-- A word ends where a blank or nothing follows. -/
theorem IsWord.words_append {w : List Char} (h : IsWord w) {rest : List Char}
    (ends : ∀ c ∈ rest.head?, isBlank c = true) : words (w ++ rest) = w :: words rest := by
  have alone : words w = [w] := by
    rw [words, List.splitOnP_eq_singleton h.visible]
    simp [h.nonempty]
  cases rest with
  | nil => rw [List.append_nil, alone, words_of_allBlank (List.forall_mem_nil _)]
  | cons c rest =>
    have blank : isBlank c = true := ends c rfl
    have skip : words (c :: rest) = words rest := words_append_cons blank [] rest
    rw [words_append_cons blank, alone, skip, List.singleton_append]

/-- A text holds blanks only, or a first word up to a blank or the end. -/
theorem allBlank_or_exists_word (cs : List Char) :
    AllBlank cs ∨ ∃ before w rest, cs = before ++ (w ++ rest) ∧ AllBlank before ∧ IsWord w ∧
      ∀ c ∈ rest.head?, isBlank c = true := by
  have front : cs.takeWhile isBlank ++ dropBlanks cs = cs := List.takeWhile_append_dropWhile
  have blank : AllBlank (cs.takeWhile isBlank) := List.all_eq_true.mp List.all_takeWhile
  cases start : dropBlanks cs with
  | nil =>
    left
    rw [← front, start, List.append_nil]
    exact blank
  | cons c tail =>
    right
    have visible : isBlank c = false := not_isBlank_head_dropBlanks start
    refine ⟨cs.takeWhile isBlank, (c :: tail).takeWhile (!isBlank ·),
      (c :: tail).dropWhile (!isBlank ·), ?_, blank, ⟨?_, ?_⟩, ?_⟩
    · rw [List.takeWhile_append_dropWhile, ← start, front]
    · rw [List.takeWhile_cons_of_pos (by simp [visible])]
      exact List.cons_ne_nil _ _
    · have all := List.all_eq_true.mp (List.all_takeWhile (p := (!isBlank ·)) (l := c :: tail))
      simpa only [Bool.not_eq_true'] using all
    · intro x hx
      have stop := List.head?_dropWhile_not (!isBlank ·) (c :: tail)
      rw [Option.mem_def] at hx
      rw [hx] at stop
      simpa using stop

/-- Only a text of blanks has no words. -/
theorem words_eq_nil_iff {cs : List Char} : words cs = [] ↔ AllBlank cs := by
  refine ⟨fun none => ?_, words_of_allBlank⟩
  rcases allBlank_or_exists_word cs with blank | ⟨before, w, rest, rfl, blank, word, ends⟩
  · exact blank
  · rw [words_append_of_allBlank blank, word.words_append ends] at none
    cases none

/-- The first word of a text stands behind some blanks, and the others are the words of the rest. -/
theorem words_eq_cons_iff {cs w : List Char} {ws : List (List Char)} :
    words cs = w :: ws ↔ ∃ before rest, cs = before ++ (w ++ rest) ∧ AllBlank before ∧ IsWord w ∧
      (∀ c ∈ rest.head?, isBlank c = true) ∧ words rest = ws := by
  constructor
  · intro h
    rcases allBlank_or_exists_word cs with blank | ⟨before, v, rest, rfl, blank, word, ends⟩
    · rw [words_of_allBlank blank] at h
      cases h
    · rw [words_append_of_allBlank blank, word.words_append ends] at h
      obtain ⟨rfl, others⟩ := List.cons.inj h
      exact ⟨before, rest, rfl, blank, word, ends, others⟩
  · rintro ⟨before, rest, rfl, blank, word, ends, rfl⟩
    rw [words_append_of_allBlank blank, word.words_append ends]

/-- A text has two words when they stand in it with blanks between and around them only. -/
theorem words_eq_pair_iff {cs v w : List Char} :
    words cs = [v, w] ↔ IsWord v ∧ IsWord w ∧ SpacedPair v w cs := by
  constructor
  · intro h
    obtain ⟨before, rest, rfl, blank, first, ends, h⟩ := words_eq_cons_iff.mp h
    obtain ⟨between, after, rfl, blank', second, -, h⟩ := words_eq_cons_iff.mp h
    refine ⟨first, second, before, between, after, ?_, ?_, blank, blank', words_eq_nil_iff.mp h⟩
    · simp only [List.append_assoc]
    · rintro rfl
      obtain ⟨c, w, rfl⟩ := List.exists_cons_of_ne_nil second.nonempty
      exact Bool.noConfusion ((second.visible c List.mem_cons_self).symm.trans (ends c rfl))
  · rintro ⟨first, second, before, between, after, rfl, apart, blank, blank', blank''⟩
    obtain ⟨b, between, rfl⟩ := List.exists_cons_of_ne_nil apart
    have ends : ∀ c ∈ (b :: between ++ (w ++ after)).head?, isBlank c = true := by
      rintro _ ⟨⟩
      exact blank' b List.mem_cons_self
    have ends' : ∀ c ∈ after.head?, isBlank c = true :=
      fun c hc => blank'' c (List.mem_of_mem_head? hc)
    simp only [List.append_assoc]
    rw [words_append_of_allBlank blank, first.words_append ends, words_append_of_allBlank blank',
      second.words_append ends', words_of_allBlank blank'']

end RegistryConsent.Text
