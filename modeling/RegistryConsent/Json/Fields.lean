import RegistryConsent.Json.Value

/-!
# Structures in JSON

A structure is written as an object with one member for each field, or as the array of its fields
in order. Members of other names are passed over; a field that is given twice, an array with more
items than there are fields and a member name that denotes no text are refused. What is read is one
slot for each field, empty if the field is missing.
-/

namespace RegistryConsent.Json

/-- The values of the members of a name. -/
def membersNamed (name : String) (members : List (Option String × Json)) : List Json :=
  (members.filter fun m => m.1 == some name).map (·.2)

/-- The slot of a field among some members; none if the field is given twice. -/
def slot? (members : List (Option String × Json)) (name : String) : Option (Option Json) :=
  match membersNamed name members with
  | [] => some none
  | [x] => some (some x)
  | _ => none

/-- The slots of the fields of the given names. -/
def slots? (names : List String) : Json → Option (List (Option Json))
  | .object members =>
    if members.all (·.1.isSome) then names.mapM (slot? members) else none
  | .array items =>
    if items.length ≤ names.length then
      some (items.map some ++ List.replicate (names.length - items.length) none)
    else none
  | _ => none

/-- The text of a string. -/
def asText? : Json → Option String
  | .string s => s
  | _ => none

/-- The truth value. -/
def asBool? : Json → Option Bool
  | .bool b => some b
  | _ => none

/-- The natural number, if it is below a bound. -/
def asNatural? (bound : Nat) : Json → Option Nat
  | .natural n => if n < bound then some n else none
  | _ => none

/-- The items of an array, each read in the same way. -/
def asList? {α : Type} (read : Json → Option α) : Json → Option (List α)
  | .array items => items.mapM read
  | _ => none

/-- An array of exactly `n` bytes. -/
def asBytes? (n : Nat) (j : Json) : Option (Vector UInt8 n) := do
  let bytes ← asList? (asNatural? 256) j
  let bytes := (bytes.map UInt8.ofNat).toArray
  if h : bytes.size = n then return ⟨bytes, h⟩ else none

/-- One of some named values: its name, or an object whose only member has that name and is null. -/
def asNamed? {α : Type} (all : List α) (name : α → String) : Json → Option α
  | .string (some s) => all.find? fun a => name a == s
  | .object [(some s, .null)] => all.find? fun a => name a == s
  | _ => none

/-- A field that must be there. -/
def required? {α : Type} (read : Json → Option α) (slot : Option Json) : Option α := slot.bind read

/-- A field that has a value of its own when it is missing. -/
def optional? {α : Type} (missing : α) (read : Json → Option α) : Option Json → Option α
  | none => some missing
  | some j => read j

end RegistryConsent.Json
