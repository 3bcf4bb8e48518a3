import RegistryConsent.Bytes.Utf8
import RegistryConsent.Text.Digits
import RegistryConsent.Text.Quoted

/-!
# Hexadecimal text

Bytes are written as two lower-case digits each. Reading accepts both cases; it refuses an odd
number of bytes of text first, then the first byte that is no digit, then a wrong number of bytes.
-/

namespace RegistryConsent.Hex

/-- Why a text is not the hexadecimal form of some bytes. -/
inductive Error where
  /-- A byte of the text, shown as the character of its value, is no digit. -/
  | invalidCharacter (c : Char) (position : Nat)
  | oddLength
  /-- The text is well formed but stands for the wrong number of bytes. -/
  | wrongLength
deriving DecidableEq

/-- The wording of an error. -/
def Error.message : Error → String
  | .invalidCharacter c position =>
    "Invalid character " ++ Text.quotedChar c ++ " at position " ++ toString position
  | .oddLength => "Odd number of digits"
  | .wrongLength => "Invalid string length"

/-- The two digits of a byte. -/
def encodeByte (b : UInt8) : List Char :=
  [Nat.digitChar (b.toNat / 16), Nat.digitChar (b.toNat % 16)]

/-- The digits of some bytes. -/
def encodeChars (bytes : List UInt8) : List Char := bytes.flatMap encodeByte

/-- The hexadecimal text of some bytes. -/
def encode (bytes : List UInt8) : String := .ofList (encodeChars bytes)

/-- The value of the digit at a position. -/
def digitAt (position : Nat) (c : Char) : Except Error Nat :=
  match Text.hexValue? c with
  | some v => .ok v
  | none => .error (.invalidCharacter c position)

/-- Reads pairs of digits, the first of which stands at `position`. -/
def decodePairs (position : Nat) : List Char → Except Error (List UInt8)
  | [] => .ok []
  | [_] => .error .oddLength
  | a :: b :: rest => do
    let high ← digitAt position a
    let low ← digitAt (position + 1) b
    let tail ← decodePairs (position + 2) rest
    return .ofNat (high * 16 + low) :: tail

/-- The bytes of a text, each as the character of its value. -/
def byteChars (s : String) : List Char := (Bytes.ofText s).map fun b => .ofNat b.toNat

/-- Reads a hexadecimal text. -/
def decode (s : String) : Except Error (List UInt8) :=
  if (byteChars s).length % 2 = 1 then .error .oddLength else decodePairs 0 (byteChars s)

/-- Reads the hexadecimal text of exactly `n` bytes. -/
def decodeVector (n : Nat) (s : String) : Except Error (Vector UInt8 n) := do
  let bytes ← decode s
  if h : bytes.toArray.size = n then return ⟨bytes.toArray, h⟩ else throw .wrongLength

end RegistryConsent.Hex
