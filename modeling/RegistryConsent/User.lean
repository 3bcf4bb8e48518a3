import RegistryConsent.ObjectType
import RegistryConsent.PasswordHash
import RegistryConsent.SortedSet

/-!
# Override users

The administrators who may override, each for some types of objects.
-/

namespace RegistryConsent

/-- An administrator. -/
structure User where
  username : String
  password : PasswordHash
  /-- The types of objects for which the user may override. -/
  objectTypes : SortedSet ObjectType
deriving DecidableEq

namespace User

/-- A user with a password under a salt and the types of a list. -/
def ofPassword (username password : String) (salt : Vector UInt8 16) (types : List ObjectType) :
    User :=
  ⟨username, .ofPassword password salt, .ofList types⟩

/-- Whether a login's password and the type of an object let the user override. -/
def mayOverride (u : User) (password : String) (t : ObjectType) : Bool :=
  u.password.verifies password && u.objectTypes.contains t

end User

end RegistryConsent
