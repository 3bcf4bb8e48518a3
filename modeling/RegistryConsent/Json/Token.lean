import RegistryConsent.Text.Digits

/-!
# JSON tokens

A JSON text is a sequence of tokens with blanks between them. A token is recognised by its first
character, and no token is the beginning of a longer one except among numbers, which extend as far
as they can.
-/

namespace RegistryConsent.Json

/-- A unit of a JSON text. -/
inductive Token where
  | openArray
  | closeArray
  | openObject
  | closeObject
  | comma
  | colon
  | null
  | bool (b : Bool)
  | natural (n : Nat)
  | number (literal : String)
  | string (s : Option String)
deriving DecidableEq, Inhabited

/-- What one character or escape of a string literal stands for. -/
inductive Piece where
  | char (c : Char)
  /-- Half of a surrogate pair. -/
  | surrogate (n : Nat)
deriving DecidableEq

/-- What a code unit of sixteen bits stands for. -/
def pieceOfUnit (n : Nat) : Piece :=
  if 0xd800 ≤ n ∧ n < 0xe000 then .surrogate n else .char (.ofNat n)

/-- What the character behind a backslash stands for. -/
def escaped? : Char → Option Char
  | '\x22' => some '\x22'
  | '\\' => some '\\'
  | '/' => some '/'
  | 'b' => some '\x08'
  | 'f' => some '\x0c'
  | 'n' => some '\n'
  | 'r' => some '\r'
  | 't' => some '\t'
  | _ => none

/-- Reads a string literal behind its opening quote: its pieces and what follows it. -/
def readPieces : List Char → Option (List Piece × List Char)
  | [] => none
  | '\x22' :: cs => some ([], cs)
  | '\\' :: 'u' :: a :: b :: c :: d :: cs => do
    let n ← Text.natOfHex? [a, b, c, d]
    let (ps, rest) ← readPieces cs
    return (pieceOfUnit n :: ps, rest)
  | '\\' :: e :: cs => do
    let c ← escaped? e
    let (ps, rest) ← readPieces cs
    return (.char c :: ps, rest)
  | c :: cs => do
    if c < ' ' ∨ c = '\\' then none
    let (ps, rest) ← readPieces cs
    return (.char c :: ps, rest)

/-- The text that some pieces stand for, if each half of a surrogate pair has its other half. -/
def textOfPieces? : List Piece → Option (List Char)
  | [] => some []
  | .char c :: ps => (textOfPieces? ps).map (c :: ·)
  | .surrogate high :: .surrogate low :: ps =>
    if high < 0xdc00 ∧ 0xdc00 ≤ low then
      (textOfPieces? ps).map (Char.ofNat (0x10000 + (high - 0xd800) * 0x400 + (low - 0xdc00)) :: ·)
    else none
  | .surrogate _ :: _ => none

/-- Reads a fraction, if one follows. -/
def readFraction : List Char → Option (List Char × List Char)
  | '.' :: cs =>
    let (digits, rest) := cs.span Char.isDigit
    if digits.isEmpty then none else some ('.' :: digits, rest)
  | cs => some ([], cs)

/-- Reads the digits of an exponent behind its mark. -/
def readExponentDigits (mark cs : List Char) : Option (List Char × List Char) :=
  let (digits, rest) := cs.span Char.isDigit
  if digits.isEmpty then none else some (mark ++ digits, rest)

/-- Reads an exponent, if one follows. -/
def readExponent : List Char → Option (List Char × List Char)
  | [] => some ([], [])
  | e :: cs =>
    if e = 'e' ∨ e = 'E' then
      match cs with
      | '+' :: cs => readExponentDigits [e, '+'] cs
      | '-' :: cs => readExponentDigits [e, '-'] cs
      | cs => readExponentDigits [e] cs
    else some ([], e :: cs)

/-- Reads the digits in front of fraction and exponent; a zero stands in front of no other digit. -/
def readWhole (cs : List Char) : Option (List Char × List Char) :=
  let (digits, rest) := cs.span Char.isDigit
  if digits.isEmpty || (digits.head? == some '0' && digits.length != 1) then none
  else some (digits, rest)

/-- Reads a number without sign. -/
def readUnsigned (cs : List Char) : Option (Token × List Char) := do
  let (whole, rest) ← readWhole cs
  let (fraction, rest) ← readFraction rest
  let (exponent, rest) ← readExponent rest
  if fraction.isEmpty && exponent.isEmpty then
    return (.natural ((Text.natOfDigits? whole).getD 0), rest)
  else return (.number (.ofList (whole ++ fraction ++ exponent)), rest)

/-- A number behind a minus sign. -/
def negated : Token → Token
  | .natural n => .number ("-" ++ toString n)
  | .number literal => .number ("-" ++ literal)
  | t => t

/-- Reads the token that starts a text without leading blank. -/
def readToken : List Char → Option (Token × List Char)
  | '[' :: cs => some (.openArray, cs)
  | ']' :: cs => some (.closeArray, cs)
  | '\x7b' :: cs => some (.openObject, cs)
  | '\x7d' :: cs => some (.closeObject, cs)
  | ',' :: cs => some (.comma, cs)
  | ':' :: cs => some (.colon, cs)
  | 'n' :: 'u' :: 'l' :: 'l' :: cs => some (.null, cs)
  | 't' :: 'r' :: 'u' :: 'e' :: cs => some (.bool true, cs)
  | 'f' :: 'a' :: 'l' :: 's' :: 'e' :: cs => some (.bool false, cs)
  | '\x22' :: cs =>
    (readPieces cs).map fun (ps, rest) => (.string ((textOfPieces? ps).map .ofList), rest)
  | '-' :: cs => (readUnsigned cs).map fun (t, rest) => (negated t, rest)
  | cs => readUnsigned cs

/-- Whether a character may stand between tokens. -/
def isGap (c : Char) : Bool := c == ' ' || c == '\t' || c == '\n' || c == '\r'

/-- Reads tokens, at most `limit` of them. -/
def scanUpTo : (limit : Nat) → List Char → Option (List Token)
  | limit, cs =>
    match cs.dropWhile isGap with
    | [] => some []
    | cs =>
      match limit with
      | 0 => none
      | limit + 1 => do
        let (t, rest) ← readToken cs
        return t :: (← scanUpTo limit rest)

/-- The tokens of a text. -/
def scan (cs : List Char) : Option (List Token) := scanUpTo cs.length cs

end RegistryConsent.Json
