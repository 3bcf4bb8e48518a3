import RegistryConsent.Bytes.Utf8
import RegistryConsent.Text.Blank

/-!
# Handles

A handle is a name of the registry: a primary key, a maintainer name or an attribute name. It keeps
its spelling, but letters of the ASCII alphabet count as equal in both cases. `=` compares
spellings; `==`, `compare` and `hash` see only the folded form.
-/

namespace RegistryConsent

/-- A name that is compared without regard to ASCII case. -/
structure Handle where
  /-- The name as it was written. -/
  spelling : String
deriving DecidableEq, Inhabited

/-- A text with its ASCII capitals in lower case. -/
def foldCase (s : String) : List Char := s.toList.map Char.toLower

namespace Handle

/-- The form that comparisons see. -/
def folded (h : Handle) : List Char := foldCase h.spelling

/-- The spelling with its ASCII capitals in lower case. -/
def lowered (h : Handle) : String := .ofList h.folded

/-- Whether the spelling holds blanks only. -/
def isBlank (h : Handle) : Bool := Text.isBlankText h.spelling

/-- Handles are compared in their folded forms. -/
instance : BEq Handle := ⟨fun a b => a.folded == b.folded⟩

/-- Handles are in the order of their folded forms. -/
instance : Ord Handle := ⟨compareOn folded⟩

/-- The order of handles is that of their folded forms, hence transitive. -/
instance : Std.TransOrd Handle := inferInstanceAs (Std.TransCmp (compareOn folded))

/-- Two handles are the same exactly when their folded forms are. -/
theorem beq_iff {a b : Handle} : (a == b) = true ↔ a.folded = b.folded := by
  show (a.folded == b.folded) = true ↔ _
  exact beq_iff_eq

/-- To be the same up to case is an equivalence. -/
instance : EquivBEq Handle where
  rfl := beq_iff.2 rfl
  symm := fun h => beq_iff.2 (beq_iff.1 h).symm
  trans := fun h h' => beq_iff.2 ((beq_iff.1 h).trans (beq_iff.1 h'))

/-- The bytes of the folded form, closed by a byte that no text contains. -/
def hashedBytes (h : Handle) : List UInt8 := Bytes.ofText h.lowered ++ [0xff]

/-- Handles are hashed in their folded forms. -/
instance : Hashable Handle := ⟨fun h => hash h.hashedBytes⟩

/-- Handles that are the same up to case have the same hash. -/
instance : LawfulHashable Handle where
  hash_eq := by
    intro a b h
    simp [hash, hashedBytes, lowered, beq_iff.1 h]

end Handle

end RegistryConsent
