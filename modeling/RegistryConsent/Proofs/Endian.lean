import RegistryConsent.Bytes.Endian

/-!
# Numbers as bytes are read back

A number that fits the bytes it is written in is read back from them, in either order of the bytes.
-/

namespace RegistryConsent.Bytes

/-- How many numbers there are of a count of bytes. -/
def capacity : (count : Nat) → Nat
  | 0 => 1
  | count + 1 => 256 * capacity count

/-- The number of some bytes is read back modulo the capacity of their count. -/
theorem ofLittleEndian_littleEndian (count value : Nat) :
    ofLittleEndian (littleEndian count value) = value % capacity count := by
  induction count generalizing value with
  | zero => exact (Nat.mod_one value).symm
  | succ count ih =>
    have byte : (UInt8.ofNat value).toNat = value % 256 := UInt8.toNat_ofNat'
    change (UInt8.ofNat value).toNat + 256 * ofLittleEndian (littleEndian count (value / 256)) = _
    rw [byte, ih, capacity, Nat.mod_mul]

/-- The most significant byte is written first. -/
theorem ofBigEndian_bigEndian (count value : Nat) :
    ofBigEndian (bigEndian count value) = value % capacity count := by
  have mirrored : ofBigEndian (bigEndian count value) =
      ofLittleEndian (littleEndian count value) := by
    simp [ofBigEndian, bigEndian, ofLittleEndian, Nat.add_comm]
  rw [mirrored, ofLittleEndian_littleEndian]

/-- The written form has the given count of bytes. -/
@[simp] theorem length_bigEndian (count value : Nat) : (bigEndian count value).length = count := by
  rw [bigEndian, List.length_reverse, length_littleEndian]

end RegistryConsent.Bytes
