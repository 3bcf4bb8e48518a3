import RegistryConsent.Handle

/-!
# Characters up to ASCII case

Folding a character changes ASCII capitals into small letters and nothing else. It therefore keeps
apart what is blank and what is not, and what is ASCII and what is not.
-/

namespace RegistryConsent

/-- A text is folded character by character. -/
theorem foldCase_ofList (cs : List Char) : foldCase (.ofList cs) = cs.map Char.toLower := by
  rw [foldCase, String.toList_ofList]

/-- A text names a handle when it is the name up to case. -/
theorem Handle.ofList_beq_iff {cs : List Char} {h : Handle} :
    ((⟨.ofList cs⟩ : Handle) == h) = true ↔ cs.map Char.toLower = foldCase h.spelling := by
  rw [beq_iff, folded, folded, foldCase_ofList]

/-- Names in lower case are told apart as the names are. -/
theorem Handle.lowered_inj {a b : Handle} : a.lowered = b.lowered ↔ (a == b) = true := by
  rw [Handle.beq_iff, lowered, lowered, String.ofList_inj]

namespace Text

/-- A property of ASCII characters is checked by a table. -/
theorem of_ascii {P : Char → Prop} (table : ∀ n < 128, P (Char.ofNat n)) {c : Char}
    (h : c.toNat < 128) : P c := by
  have checked := table c.toNat h
  rwa [Char.ofNat_toNat] at checked

/-- Folding leaves all characters behind ASCII as they are. -/
theorem toLower_of_le {c : Char} (h : 128 ≤ c.toNat) : c.toLower = c := by
  have small : ¬(c.val ≥ 'A'.val ∧ c.val ≤ 'Z'.val) := by
    rintro ⟨-, le⟩
    have upper : c.toNat ≤ 'Z'.toNat := le
    have bound : 'Z'.toNat < 128 := by decide
    omega
  exact dif_neg small

/-- Folding neither makes nor hides a blank. -/
theorem isBlank_toLower (c : Char) : isBlank c.toLower = isBlank c := by
  rcases Nat.lt_or_ge c.toNat 128 with ascii | other
  · exact of_ascii (P := fun c => isBlank c.toLower = isBlank c) (by decide) ascii
  · rw [toLower_of_le other]

private theorem isBlank_comp_toLower : isBlank ∘ Char.toLower = isBlank := funext isBlank_toLower

/-- Folding keeps ASCII characters and no others in ASCII. -/
theorem toNat_toLower_lt_iff (c : Char) : c.toLower.toNat < 128 ↔ c.toNat < 128 := by
  rcases Nat.lt_or_ge c.toNat 128 with ascii | other
  · exact of_ascii (P := fun c => c.toLower.toNat < 128 ↔ c.toNat < 128) (by decide) ascii
  · rw [toLower_of_le other]

/-- Folding makes no character into one that stands for itself only. -/
theorem toLower_eq_iff {mark : Char}
    (table : ∀ n < 128, (Char.ofNat n).toLower = mark ↔ Char.ofNat n = mark) (c : Char) :
    c.toLower = mark ↔ c = mark := by
  rcases Nat.lt_or_ge c.toNat 128 with ascii | other
  · exact of_ascii (P := fun c => c.toLower = mark ↔ c = mark) table ascii
  · rw [toLower_of_le other]

/-- The blanks in front are the same in either case. -/
theorem dropBlanks_map_toLower (cs : List Char) :
    dropBlanks (cs.map Char.toLower) = (dropBlanks cs).map Char.toLower := by
  rw [dropBlanks, List.dropWhile_map, isBlank_comp_toLower, dropBlanks]

/-- It does not matter whether a text is trimmed or folded first. -/
theorem strip_map_toLower (cs : List Char) :
    strip (cs.map Char.toLower) = (strip cs).map Char.toLower := by
  rw [strip, dropBlanksEnd, dropBlanks_map_toLower, ← List.map_reverse, dropBlanks_map_toLower,
    ← List.map_reverse]
  rfl

end Text

/-- Whether a name is blank shows in its folded form. -/
theorem Handle.isBlank_eq (h : Handle) : h.isBlank = h.folded.all Text.isBlank := by
  rw [isBlank, Text.isBlankText, folded, foldCase, List.all_map, Text.isBlank_comp_toLower]

end RegistryConsent
