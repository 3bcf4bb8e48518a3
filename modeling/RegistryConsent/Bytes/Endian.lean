/-!
# Numbers as bytes

A number is written in a fixed count of bytes, least significant byte first or last, and the bytes
are read back to the number modulo a power of 256. `groupsOf` cuts bytes into groups of equal size.
-/

namespace RegistryConsent.Bytes

/-- A number in `count` bytes, the least significant first. -/
def littleEndian : (count value : Nat) → List UInt8
  | 0, _ => []
  | count + 1, value => .ofNat value :: littleEndian count (value / 256)

/-- The number whose bytes are given, the least significant first. -/
def ofLittleEndian (bytes : List UInt8) : Nat := bytes.foldr (fun b n => b.toNat + 256 * n) 0

/-- A number in `count` bytes, the most significant first. -/
def bigEndian (count value : Nat) : List UInt8 := (littleEndian count value).reverse

/-- The number whose bytes are given, the most significant first. -/
def ofBigEndian (bytes : List UInt8) : Nat := bytes.foldl (fun n b => 256 * n + b.toNat) 0

/-- The written form has the given count of bytes. -/
theorem length_littleEndian (count value : Nat) : (littleEndian count value).length = count := by
  induction count generalizing value with
  | zero => rfl
  | succ count ih => simp [littleEndian, ih]

/-- Cuts a list into groups of `size + 1` elements, the last of which may be shorter. -/
def groupsOf {α : Type} (size : Nat) : List α → List (List α)
  | [] => []
  | x :: xs => (x :: xs.take size) :: groupsOf size (xs.drop size)
termination_by xs => xs.length
decreasing_by rw [List.length_drop, List.length_cons]; omega

end RegistryConsent.Bytes
