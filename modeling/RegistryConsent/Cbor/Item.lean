import RegistryConsent.Bytes.Utf8
import RegistryConsent.Cbor.Head

/-!
# CBOR items

Reading strings, sequences and maps, and passing over items that are not needed. A string or
sequence without a length goes on to a stop; a string without a length consists of strings, which
may be of the same sort again. Items may be nested 256 deep.
-/

namespace RegistryConsent.Cbor

/-- A part of a reading that takes bytes from the front. -/
abbrev Reader (α : Type) := List UInt8 → Option (α × List UInt8)

/-- The number of items that may be nested. -/
def nesting : Nat := 256

/-- Whether a string is one of text. -/
inductive StringKind where
  | bytes
  | text
deriving DecidableEq

/-- The length that a head gives for a string of a kind, if it is one. -/
def lengthIn? : StringKind → Head → Option (Option Nat)
  | .bytes, .bytes length => some length
  | .text, .text length => some length
  | _, _ => none

/-- Takes the content of a string of known length, which must be UTF-8 for a text. -/
def readContent (kind : StringKind) (length : Nat) : Reader (List UInt8) := fun bytes =>
  (take? length bytes).filter fun (content, _) => kind == .bytes || (Bytes.toText? content).isSome

/-- Reads the strings up to the stop that closes the outermost of `open + 1` strings without
length. -/
def readSegments (kind : StringKind) : (steps level : Nat) → Reader (List UInt8)
  | 0, _, _ => none
  | steps + 1, level, bytes =>
    match readHead bytes with
    | some (.stop, rest) =>
      match level with
      | 0 => some ([], rest)
      | level + 1 => readSegments kind steps level rest
    | some (head, rest) =>
      match lengthIn? kind head with
      | none => none
      | some none => readSegments kind steps (level + 1) rest
      | some (some length) => do
        let (content, rest) ← readContent kind length rest
        let (more, rest) ← readSegments kind steps level rest
        return (content ++ more, rest)
    | none => none

/-- Reads the content of a string whose head has been read. -/
def readString (kind : StringKind) : (length : Option Nat) → Reader (List UInt8)
  | some length, bytes => readContent kind length bytes
  | none, bytes => readSegments kind bytes.length 0 bytes

/-- Reads a text. -/
def readText : Reader String := fun bytes =>
  match readUntagged bytes with
  | some (.text length, rest) => do
    let (content, rest) ← readString .text length rest
    return (← Bytes.toText? content, rest)
  | _ => none

/-- The longest name that is read. -/
def longestName : Nat := 4096

/-- Reads a name: a text or bytes of given length. -/
def readName : Reader (List UInt8) := fun bytes =>
  match readUntagged bytes with
  | some (.text (some length), rest) =>
    if length ≤ longestName then readContent .text length rest else none
  | some (.bytes (some length), rest) =>
    if length ≤ longestName then readContent .bytes length rest else none
  | _ => none

/-- Reads `n` steps of a sequence, each of which changes a state. -/
def readCounted {σ : Type} (step : σ → Reader σ) : (n : Nat) → σ → Reader σ
  | 0, s, bytes => some (s, bytes)
  | n + 1, s, bytes => do
    let (s, rest) ← step s bytes
    readCounted step n s rest

/-- Reads steps of a sequence up to a stop. -/
def readToStop {σ : Type} (step : σ → Reader σ) : (steps : Nat) → σ → Reader σ
  | 0, _, _ => none
  | steps + 1, s, bytes =>
    match readHead bytes with
    | some (.stop, rest) => some (s, rest)
    | _ => do
      let (s, rest) ← step s bytes
      readToStop step steps s rest

/-- Reads the steps of a sequence whose head has been read. -/
def readSteps {σ : Type} (step : σ → Reader σ) : (length : Option Nat) → σ → Reader σ
  | some n, s, bytes => readCounted step n s bytes
  | none, s, bytes => readToStop step (bytes.length + 1) s bytes

/-- The length of the bytes that stand for a number under a tag, and what follows their head. The
tags of numbers are 2 and 3, and a number has at most 16 bytes. -/
def numberLength? (tag : Nat) : Reader Nat := fun bytes =>
  match readHead bytes with
  | some (.bytes (some length), rest) =>
    if (tag = 2 ∨ tag = 3) ∧ length ≤ 16 then some (length, rest) else none
  | _ => none

/-- Passes over the bytes of a number, which fits 128 bits with its sign if it is negative. -/
def skipNumber (negative : Bool) (length : Nat) : Reader Unit := fun bytes => do
  let (content, rest) ← take? length bytes
  if negative ∧ 1 <<< 127 ≤ Bytes.ofBigEndian content then none else some ((), rest)

/-- Passes over one item, inside of which at most `depth` others are nested. What a tag is put on
counts as nested, unless the two are a number. -/
def skip : (depth : Nat) → Reader Unit
  | depth, bytes =>
    match readHead bytes with
    | some (.positive _, rest) | some (.negative _, rest) | some (.float, rest) => some ((), rest)
    | some (.bytes length, rest) => (readString .bytes length rest).map fun (_, rest) => ((), rest)
    | some (.text length, rest) => (readString .text length rest).map fun (_, rest) => ((), rest)
    | some (.simple n, rest) => if 20 ≤ n ∧ n ≤ 23 then some ((), rest) else none
    | some (.tag n, rest) =>
      match numberLength? n rest with
      | some (length, rest) => skipNumber (n == 3) length rest
      | none =>
        match depth with
        | 0 => none
        | depth + 1 => skip depth rest
    | some (.array length, rest) =>
      match depth with
      | 0 => none
      | depth + 1 => readSteps (fun () => skip depth) length () rest
    | some (.map length, rest) =>
      match depth with
      | 0 => none
      | depth + 1 =>
        readSteps (fun () bytes => do
          let ((), rest) ← skip depth bytes
          skip depth rest) length () rest
    | some (.stop, _) | none => none

/-- Reads a sequence of items; bytes count as one if there are none. -/
def readList {α : Type} (item : Reader α) : Reader (List α) := fun bytes =>
  match readUntagged bytes with
  | some (.array length, rest) =>
    let step (xs : List α) (bytes : List UInt8) := (item bytes).map fun (x, rest) => (x :: xs, rest)
    (readSteps step length [] rest).map fun (xs, rest) => (xs.reverse, rest)
  | some (.bytes length, rest) => do
    let (content, rest) ← readString .bytes length rest
    if content.isEmpty then some ([], rest) else none
  | _ => none

/-- Reads the members of a map, each changing a state according to its name. -/
def readMap {σ : Type} (member : List UInt8 → σ → Reader σ) (start : σ) : Reader σ := fun bytes =>
  match readUntagged bytes with
  | some (.map length, rest) =>
    readSteps (fun s bytes => do
      let (name, rest) ← readName bytes
      member name s rest) length start rest
  | _ => none

/-- Writes a text. -/
def encodeText (s : String) : List UInt8 := encodeHead 3 (Bytes.ofText s).length ++ Bytes.ofText s

/-- Writes a sequence of written items. -/
def encodeList (items : List (List UInt8)) : List UInt8 :=
  encodeHead 4 items.length ++ items.flatten

/-- Writes a map of written members. -/
def encodeMap (members : List (String × List UInt8)) : List UInt8 :=
  encodeHead 5 members.length ++ members.flatMap fun (name, value) => encodeText name ++ value

end RegistryConsent.Cbor
