import RegistryConsent.Handle
import RegistryConsent.InputError

/-!
# Actions

What an update does to its record.
-/

namespace RegistryConsent

/-- What an update does to its record. -/
inductive Action where
  | create
  | modify
  | delete
deriving DecidableEq, Inhabited

namespace Action

/-- The name of an action. -/
def name : Action → String
  | create => "create"
  | modify => "modify"
  | delete => "delete"

/-- Reads a name, up to blanks at its ends and ASCII case. -/
def ofName (s : String) : Except InputError Action :=
  match [create, modify, delete].find? fun a => foldCase a.name == foldCase (Text.trim s) with
  | some a => .ok a
  | none => .error (.unknownAction s)

end Action

end RegistryConsent
