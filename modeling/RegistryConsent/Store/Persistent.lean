import RegistryConsent.Cbor.Forms
import RegistryConsent.Consult
import RegistryConsent.Store.Migration

/-!
# Stores in a database

Users and records as rows. A user's row is found by the exact name, a record's by the name of its
type and its key in lower case; what is read back must be in the form in which it is stored.
-/

namespace RegistryConsent.Database

/-- The row of a user. -/
def userRow (u : User) : UserRow := ⟨u.username, u.password.text, typesToCbor u.objectTypes⟩

/-- The row of a record. -/
def recordRow (r : Record) : ObjectRow := ⟨r.objectType.name, r.key.lowered, r.toCbor⟩

/-- Reads the row of a user. -/
def userOfRow (row : UserRow) : UserAnswer := do
  let password ← (PasswordHash.parse row.hash).mapError .invalidData
  match typesOfCbor? row.types with
  | some types => return ⟨row.username, password, types⟩
  | none => throw .serialization

/-- Reads the row of a record. -/
def recordOfRow (row : ObjectRow) : ObjectAnswer :=
  match Record.ofCbor? row.record with
  | some r => .ok (some r)
  | none => .error .serialization

/-- Puts a user. -/
def putUser (db : Database) (u : User) : Except StoreError Database :=
  match db.putUserRow? (userRow u) with
  | some db => .ok db
  | none => .error .database

/-- Puts a record. -/
def putRecord (db : Database) (r : Record) : Except StoreError Database :=
  match db.putObjectRow? (recordRow r) with
  | some db => .ok db
  | none => .error .database

/-- Looks up a user. -/
def getUser (db : Database) (name : String) : UserAnswer :=
  match db.users with
  | none => .error .database
  | some rows =>
    match rows.find? (·.primaryKey == name) with
    | some row => userOfRow row
    | none => .error (.unknownUser name)

/-- Looks up a record. -/
def getRecord (db : Database) (t : ObjectType) (key : Handle) : ObjectAnswer :=
  match db.objects with
  | none => .error .database
  | some rows =>
    match rows.find? (·.primaryKey == (t.name, key.lowered)) with
    | some row => recordOfRow row
    | none => .ok none

/-- The answers of the store. -/
def answers (db : Database) : Answers := ⟨db.getUser, db.getRecord⟩

end RegistryConsent.Database
