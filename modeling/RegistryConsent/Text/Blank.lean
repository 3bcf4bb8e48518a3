/-!
# Blank characters, trimming and words

A blank is a character with the Unicode property White_Space. Trimming removes blanks from the ends
of a text and words are the maximal runs of other characters. Everything is stated over lists of
characters; the functions on strings only wrap them.
-/

namespace RegistryConsent.Text

/-- Whether a character has the Unicode property White_Space. -/
def isBlank (c : Char) : Bool :=
  ('\t' ≤ c && c ≤ '\r') || c == ' ' || c == '\u0085' || c == '\u00a0' || c == '\u1680' ||
  ('\u2000' ≤ c && c ≤ '\u200a') || c == '\u2028' || c == '\u2029' || c == '\u202f' ||
  c == '\u205f' || c == '\u3000'

/-- Drops the blanks in front. -/
def dropBlanks (cs : List Char) : List Char := cs.dropWhile isBlank

/-- Drops the blanks at the end. -/
def dropBlanksEnd (cs : List Char) : List Char := (dropBlanks cs.reverse).reverse

/-- Drops the blanks at both ends. -/
def strip (cs : List Char) : List Char := dropBlanksEnd (dropBlanks cs)

/-- The maximal runs of characters that are not blank, in order. -/
def words (cs : List Char) : List (List Char) := (cs.splitOnP isBlank).filter (!·.isEmpty)

/-- A text without the blanks at its ends. -/
def trim (s : String) : String := .ofList (strip s.toList)

/-- Whether a text holds blanks only. -/
def isBlankText (s : String) : Bool := s.toList.all isBlank

/-- What is left starts with no blank. -/
theorem not_isBlank_head_dropBlanks {c : Char} {cs r : List Char} (h : dropBlanks cs = c :: r) :
    isBlank c = false := by
  have := List.head?_dropWhile_not isBlank cs
  simp_all [dropBlanks]

end RegistryConsent.Text
