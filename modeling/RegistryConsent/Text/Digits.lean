/-!
# Digits

Natural numbers are read from lists of ASCII digits, decimal or hexadecimal ones in either case.
There must be a digit; zeros in front are read like any other.
-/

namespace RegistryConsent.Text

/-- The value of a hexadecimal digit. -/
def hexValue? (c : Char) : Option Nat :=
  if c.isDigit then some (c.toNat - '0'.toNat)
  else if 'a' ≤ c ∧ c ≤ 'f' then some (c.toNat - 'a'.toNat + 10)
  else if 'A' ≤ c ∧ c ≤ 'F' then some (c.toNat - 'A'.toNat + 10)
  else none

/-- The number that hexadecimal digits stand for behind the digits read so far. -/
def readHex : Nat → List Char → Option Nat
  | n, [] => some n
  | n, c :: cs => (hexValue? c).bind fun v => readHex (16 * n + v) cs

/-- The number that a list of hexadecimal digits stands for. -/
def natOfHex? (cs : List Char) : Option Nat := if cs.isEmpty then none else readHex 0 cs

/-- The number that decimal digits stand for behind the digits read so far. -/
def readDigits : Nat → List Char → Option Nat
  | n, [] => some n
  | n, c :: cs => if c.isDigit then readDigits (10 * n + (c.toNat - '0'.toNat)) cs else none

/-- The number that a list of decimal digits stands for. -/
def natOfDigits? (cs : List Char) : Option Nat := if cs.isEmpty then none else readDigits 0 cs

end RegistryConsent.Text
