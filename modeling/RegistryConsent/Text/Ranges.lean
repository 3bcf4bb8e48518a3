/-!
# Tables of code points

A property of characters is given as an ascending list of ranges of code points, both ends included.
-/

namespace RegistryConsent.Text

/-- Whether a character lies in one of the ranges of an ascending table. -/
def inRanges : List (Nat × Nat) → Char → Bool
  | [], _ => false
  | (lo, hi) :: rest, c =>
    if c.toNat < lo then false else if c.toNat ≤ hi then true else inRanges rest c

end RegistryConsent.Text
