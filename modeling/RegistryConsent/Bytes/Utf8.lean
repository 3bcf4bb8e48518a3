/-!
# Texts as bytes

The UTF-8 form of a text, and the text of which some bytes are the UTF-8 form.
-/

namespace RegistryConsent.Bytes

/-- The UTF-8 form of a text. -/
def ofText (s : String) : List UInt8 := s.toUTF8.data.toList

/-- The text of which some bytes are the UTF-8 form, if there is one. -/
def toText? (bytes : List UInt8) : Option String := String.fromUTF8? ⟨bytes.toArray⟩

/-- Different texts have different bytes. -/
theorem ofText_inj {s t : String} : ofText s = ofText t ↔ s = t := by
  simp only [ofText, Array.toList_inj, String.toUTF8_eq_toByteArray]
  exact ⟨fun h => String.toByteArray_inj.1 (ByteArray.ext h), fun h => h ▸ rfl⟩

/-- The UTF-8 form of a text stands for the text. -/
@[simp] theorem toText?_ofText (s : String) : toText? (ofText s) = some s := by
  rw [toText?, ofText, String.fromUTF8?]
  exact (dif_pos s.isValidUTF8).trans rfl

end RegistryConsent.Bytes
