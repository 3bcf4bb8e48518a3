/-!
# Internet addresses

An address of either family is a string of bits of the width of its family.
-/

namespace RegistryConsent

/-- The two families of addresses. -/
inductive Family where
  | v4
  | v6
deriving DecidableEq, Inhabited

/-- The number of bits of an address. -/
def Family.width : Family → Nat
  | .v4 => 32
  | .v6 => 128

/-- The mask of the `n` leading bits. Neither may the number of the other bits underflow, nor may a
word be shifted by its whole width: there is no mask where one would happen. -/
def Family.mask? (f : Family) : Nat → Option (BitVec f.width)
  | 0 => some 0
  | n =>
    if n ≤ f.width ∧ f.width - n < f.width then
      some (BitVec.allOnes f.width <<< (f.width - n))
    else none

/-- A mask whose bits fit the family is there. -/
theorem Family.mask?_of_le {f : Family} {n : Nat} (h : n ≤ f.width) :
    f.mask? n = some (BitVec.allOnes f.width <<< (f.width - n)) := by
  cases n with
  | zero =>
    -- The other bits are the whole word here, and the mask is not the result of a shift.
    apply congrArg some
    exact (BitVec.shiftLeft_eq_zero (Nat.le_refl f.width)).symm
  | succ n =>
    have others : f.width - (n + 1) < f.width := by omega
    exact if_pos ⟨h, others⟩

/-- An internet address. -/
structure Address where
  family : Family
  bits : BitVec family.width
deriving DecidableEq

end RegistryConsent
