/-!
# JSON values

A value keeps what its text says: members in order, repeated names included, and numbers other than
plain natural ones as they were written. A string literal may denote no text, when an escape in it
stands for half of a surrogate pair alone.
-/

namespace RegistryConsent

/-- A JSON value. -/
inductive Json where
  | null
  | bool (b : Bool)
  /-- A number written without sign, fraction and exponent. -/
  | natural (n : Nat)
  /-- Any other number, as it was written. -/
  | number (literal : String)
  /-- A string; `none` if its literal denotes no text. -/
  | string (s : Option String)
  | array (items : List Json)
  | object (members : List (Option String × Json))
deriving Inhabited

namespace Json

/-- The string of a text. -/
def text (s : String) : Json := .string (some s)

/-- The object with the given members. -/
def record (members : List (String × Json)) : Json :=
  .object (members.map fun (name, value) => (some name, value))

/-- The array of the strings of some texts. -/
def texts (ss : List String) : Json := .array (ss.map text)

/-- The array of the numbers of some bytes. -/
def bytes (bs : List UInt8) : Json := .array (bs.map fun b => .natural b.toNat)

end Json

end RegistryConsent
