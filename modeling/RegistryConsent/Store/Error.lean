import RegistryConsent.InputError

/-!
# Store errors

Why a store does not answer, or does not find a user.
-/

namespace RegistryConsent

/-- Why a store does not answer. -/
inductive StoreError where
  /-- The database refused the operation. -/
  | database
  /-- A stored value is not in the form in which values are stored. -/
  | serialization
  /-- There is no override user of that name. -/
  | unknownUser (name : String)
  /-- A stored text is not the written form of its value. -/
  | invalidData (e : InputError)
  /-- The store cannot be reached. -/
  | unavailable
deriving DecidableEq

namespace StoreError

/-- Whether the error only says that there is no such entry. -/
def isNotFound : StoreError → Bool
  | unknownUser _ => true
  | _ => false

/-- The wording of an error, except where the database or the decoder words it. -/
def message : StoreError → String
  | database => "database error"
  | serialization => "serialization error"
  | unknownUser name => "not found: override user " ++ name
  | invalidData e => "invalid data: " ++ e.message
  | unavailable => "background task failed: store unavailable"

end StoreError

end RegistryConsent
