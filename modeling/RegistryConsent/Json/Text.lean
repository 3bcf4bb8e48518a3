import RegistryConsent.Json.Token
import RegistryConsent.Json.Value

/-!
# JSON texts

Reading takes a whole text as one value. Writing gives the shortest text: no blanks, and only those
escapes that a string literal needs.
-/

namespace RegistryConsent.Json

mutual

/-- Reads one value, within a bound on the steps taken. -/
def readValue : (steps : Nat) → List Token → Option (Json × List Token)
  | 0, _ => none
  | steps + 1, ts =>
    match ts with
    | .null :: ts => some (.null, ts)
    | .bool b :: ts => some (.bool b, ts)
    | .natural n :: ts => some (.natural n, ts)
    | .number literal :: ts => some (.number literal, ts)
    | .string s :: ts => some (.string s, ts)
    | .openArray :: .closeArray :: ts => some (.array [], ts)
    | .openArray :: ts => (readItems steps ts).map fun (xs, ts) => (.array xs, ts)
    | .openObject :: .closeObject :: ts => some (.object [], ts)
    | .openObject :: ts => (readMembers steps ts).map fun (ms, ts) => (.object ms, ts)
    | _ => none

/-- Reads the items of an array and its closing bracket. -/
def readItems : (steps : Nat) → List Token → Option (List Json × List Token)
  | 0, _ => none
  | steps + 1, ts =>
    match readValue steps ts with
    | some (x, .comma :: ts) => (readItems steps ts).map fun (xs, ts) => (x :: xs, ts)
    | some (x, .closeArray :: ts) => some ([x], ts)
    | _ => none

/-- Reads the members of an object and its closing brace. -/
def readMembers : (steps : Nat) → List Token → Option (List (Option String × Json) × List Token)
  | 0, _ => none
  | steps + 1, ts =>
    match ts with
    | .string name :: .colon :: ts =>
      match readValue steps ts with
      | some (x, .comma :: ts) => (readMembers steps ts).map fun (ms, ts) => ((name, x) :: ms, ts)
      | some (x, .closeObject :: ts) => some ([(name, x)], ts)
      | _ => none
    | _ => none

end

/-- The value that some tokens stand for. Each token is reached in at most two steps. -/
def ofTokens? (ts : List Token) : Option Json :=
  match readValue (2 * ts.length) ts with
  | some (x, []) => some x
  | _ => none

/-- The value that a text stands for. -/
def parse? (s : String) : Option Json := (scan s.toList).bind ofTokens?

/-- Four hexadecimal digits. -/
def hexFour (n : Nat) : List Char :=
  [n / 4096 % 16, n / 256 % 16, n / 16 % 16, n % 16].map Nat.digitChar

/-- How a character is written in a string literal. -/
def renderChar (c : Char) : List Char :=
  if c = '\x22' ∨ c = '\\' then ['\\', c]
  else if c = '\x08' then ['\\', 'b']
  else if c = '\x0c' then ['\\', 'f']
  else if c = '\n' then ['\\', 'n']
  else if c = '\r' then ['\\', 'r']
  else if c = '\t' then ['\\', 't']
  else if c < ' ' then '\\' :: 'u' :: hexFour c.toNat
  else [c]

/-- The literal of a string; one that denotes no text is written as half of a surrogate pair. -/
def renderString : Option String → List Char
  | some s => '\x22' :: s.toList.flatMap renderChar ++ ['\x22']
  | none => '\x22' :: '\\' :: 'u' :: hexFour 0xd800 ++ ['\x22']

mutual

/-- The characters of the text of a value. -/
def render : Json → List Char
  | .null => "null".toList
  | .bool b => (if b then "true" else "false").toList
  | .natural n => Nat.toDigits 10 n
  | .number literal => literal.toList
  | .string s => renderString s
  | .array items => '[' :: renderItems items
  | .object members => '\x7b' :: renderMembers members

/-- The items of an array and its closing bracket. -/
def renderItems : List Json → List Char
  | [] => [']']
  | [x] => render x ++ [']']
  | x :: xs => render x ++ ',' :: renderItems xs

/-- The members of an object and its closing brace. -/
def renderMembers : List (Option String × Json) → List Char
  | [] => ['\x7d']
  | [(name, x)] => renderString name ++ ':' :: render x ++ ['\x7d']
  | (name, x) :: ms => renderString name ++ ':' :: render x ++ ',' :: renderMembers ms

end

/-- The text of a value. -/
def toText (j : Json) : String := .ofList j.render

end RegistryConsent.Json
