import RegistryConsent.Consult

/-!
# Stores in memory

Users by their exact names and records by their identity. What was put last under a name or identity
is what is found.
-/

namespace RegistryConsent

/-- A store in memory, what was put last in front. -/
structure MemoryStore where
  users : List User := []
  records : List Record := []

namespace MemoryStore

/-- The store without entries. -/
def empty : MemoryStore := {}

/-- Puts a user in place of any other of the name. -/
def putUser (s : MemoryStore) (u : User) : MemoryStore :=
  { s with users := u :: s.users.filter (·.username != u.username) }

/-- Puts a record in place of any other of its identity. -/
def putRecord (s : MemoryStore) (r : Record) : MemoryStore :=
  { s with records := r :: s.records.filter (!·.sameIdentity r) }

/-- Looks up a user. -/
def getUser (s : MemoryStore) (name : String) : UserAnswer :=
  match s.users.find? (·.username == name) with
  | some u => .ok u
  | none => .error (.unknownUser name)

/-- Looks up a record. -/
def getRecord (s : MemoryStore) (t : ObjectType) (key : Handle) : ObjectAnswer :=
  .ok (s.records.find? fun r => r.objectType == t && r.key == key)

/-- The answers of the store. -/
def answers (s : MemoryStore) : Answers := ⟨s.getUser, s.getRecord⟩

end MemoryStore

end RegistryConsent
