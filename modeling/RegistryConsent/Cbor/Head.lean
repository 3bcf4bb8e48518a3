import RegistryConsent.Bytes.Endian

/-!
# CBOR heads

Every CBOR item starts with a head: its kind and a number, or the mark that its length is not given.
Heads are written as short as they can be and read at any length.
-/

namespace RegistryConsent.Cbor

/-- The start of an item. Strings, arrays and maps have a length unless they end at a stop. -/
inductive Head where
  | positive (n : Nat)
  /-- The number `-1 - n`. -/
  | negative (n : Nat)
  | bytes (length : Option Nat)
  | text (length : Option Nat)
  | array (length : Option Nat)
  | map (length : Option Nat)
  | tag (n : Nat)
  | simple (n : Nat)
  | float
  | stop
deriving DecidableEq

/-- Writes a kind and a number. -/
def encodeHead (kind n : Nat) : List UInt8 :=
  let first (short : Nat) : UInt8 := .ofNat (32 * kind + short)
  if n < 24 then [first n]
  else if n < UInt8.size then first 24 :: Bytes.bigEndian 1 n
  else if n < UInt16.size then first 25 :: Bytes.bigEndian 2 n
  else if n < UInt32.size then first 26 :: Bytes.bigEndian 4 n
  else first 27 :: Bytes.bigEndian 8 n

/-- Takes exactly `n` bytes. -/
def take? (n : Nat) (bytes : List UInt8) : Option (List UInt8 × List UInt8) :=
  if bytes.length < n then none else some (bytes.take n, bytes.drop n)

/-- Reads a number of `n` bytes. -/
def readNumber (n : Nat) (bytes : List UInt8) : Option (Nat × List UInt8) :=
  (take? n bytes).map fun (number, rest) => (Bytes.ofBigEndian number, rest)

/-- Reads the number of a head; none is given behind the mark 31. -/
def readArgument (short : Nat) (bytes : List UInt8) : Option (Option Nat × List UInt8) :=
  let given (n : Nat) := (readNumber n bytes).map fun (number, rest) => (some number, rest)
  if short < 24 then some (some short, bytes)
  else if short = 24 then given 1
  else if short = 25 then given 2
  else if short = 26 then given 4
  else if short = 27 then given 8
  else if short = 31 then some (none, bytes)
  else none

/-- The head of a kind with its number. -/
def headOf? (kind short : Nat) (number : Option Nat) : Option Head :=
  match kind with
  | 0 => number.map .positive
  | 1 => number.map .negative
  | 2 => some (.bytes number)
  | 3 => some (.text number)
  | 4 => some (.array number)
  | 5 => some (.map number)
  | 6 => number.map .tag
  | _ =>
    match number with
    | none => some .stop
    | some n => if short < 25 then some (.simple n) else some .float

/-- Reads a head. -/
def readHead : List UInt8 → Option (Head × List UInt8)
  | [] => none
  | first :: bytes => do
    let (number, rest) ← readArgument (first.toNat % 32) bytes
    let head ← headOf? (first.toNat / 32) (first.toNat % 32) number
    return (head, rest)

/-- Reads a head behind at most `limit` tags. -/
def readPastTags : (limit : Nat) → List UInt8 → Option (Head × List UInt8)
  | limit, bytes =>
    match readHead bytes with
    | some (.tag n, rest) =>
      match limit with
      | 0 => some (.tag n, rest)
      | limit + 1 => readPastTags limit rest
    | other => other

/-- Reads the head behind all tags. -/
def readUntagged (bytes : List UInt8) : Option (Head × List UInt8) :=
  readPastTags bytes.length bytes

end RegistryConsent.Cbor
