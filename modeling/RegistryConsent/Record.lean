import RegistryConsent.Text.Cut
import RegistryConsent.ObjectType

/-!
# Records

A record is a registry object: its type, its primary key and its attributes in order. `=` compares
records by spelling; `==` ignores the case of the key and of attribute names, but not of values.
-/

namespace RegistryConsent

/-- One line of a record. -/
structure Attribute where
  name : Handle
  value : String
deriving DecidableEq, Inhabited, BEq

/-- A registry object. -/
structure Record where
  objectType : ObjectType
  key : Handle
  attributes : List Attribute := []
deriving DecidableEq, Inhabited, BEq

namespace Record

/-- The attribute that names the maintainers of a record. -/
def mntBy : Handle := ⟨"mnt-by"⟩

/-- The attribute that holds the authentication lines of a maintainer. -/
def auth : Handle := ⟨"auth"⟩

/-- The attribute that names the autonomous system a route starts from. -/
def origin : Handle := ⟨"origin"⟩

/-- What a record is known by: its type and its key. -/
def identity (r : Record) : ObjectType × Handle := (r.objectType, r.key)

/-- Whether two records have the same type and, up to case, the same key. -/
def sameIdentity (r s : Record) : Bool := r.objectType == s.objectType && r.key == s.key

/-- The values of the attributes of a name, in order. -/
def values (r : Record) (name : Handle) : List String :=
  (r.attributes.filter (·.name == name)).map (·.value)

/-- The parts of a value between its commas, trimmed, without the blank ones. -/
def listed (value : String) : List Handle :=
  (((value.toList.splitOn ',').map Text.strip).filter (!·.isEmpty)).map fun p => ⟨.ofList p⟩

/-- The listed parts of all values of a name, each once and in its first spelling. -/
def valueSet (r : Record) (name : Handle) : List Handle :=
  ((r.values name).flatMap listed).eraseDups

/-- The maintainers that a record names. -/
def maintainers (r : Record) : List Handle := r.valueSet mntBy

/-- The autonomous system that a record names: the first `origin` value that is not blank. -/
def originHandle (r : Record) : Option Handle :=
  (((r.values origin).map Text.trim).find? (!·.isEmpty)).map Handle.mk

end Record

end RegistryConsent
