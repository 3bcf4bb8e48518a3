/-!
# Tables

The database behind a store: three tables, each of which may be missing. Rows have a primary key and
putting a row replaces the one with its key.
-/

namespace RegistryConsent

/-- A row of the table of override users. -/
structure UserRow where
  username : String
  /-- The text form of the password hash. -/
  hash : String
  /-- The CBOR form of the types. -/
  types : List UInt8
deriving DecidableEq

/-- A row of the table of objects. -/
structure ObjectRow where
  /-- The name of the type. -/
  objectType : String
  /-- The key in lower case. -/
  key : String
  /-- The CBOR form of the record. -/
  record : List UInt8
deriving DecidableEq

/-- The tables of a database, of which a missing one is `none`. -/
structure Database where
  /-- The versions that are recorded, in no order. -/
  versions : Option (List Int) := none
  users : Option (List UserRow) := none
  objects : Option (List ObjectRow) := none
deriving DecidableEq

/-- Puts a row in place of those with the same key. -/
def putRow {α κ : Type} [BEq κ] (key : α → κ) (row : α) (rows : List α) : List α :=
  rows.filter (fun r => !(key r == key row)) ++ [row]

namespace UserRow

/-- The primary key. -/
def primaryKey (r : UserRow) : String := r.username

end UserRow

namespace ObjectRow

/-- The primary key. -/
def primaryKey (r : ObjectRow) : String × String := (r.objectType, r.key)

end ObjectRow

namespace Database

/-- The database without tables. -/
def empty : Database := {}

/-- Puts a user row, if there is the table for it. -/
def putUserRow? (db : Database) (row : UserRow) : Option Database :=
  db.users.map fun rows => { db with users := some (putRow UserRow.primaryKey row rows) }

/-- Puts an object row, if there is the table for it. -/
def putObjectRow? (db : Database) (row : ObjectRow) : Option Database :=
  db.objects.map fun rows => { db with objects := some (putRow ObjectRow.primaryKey row rows) }

end Database

end RegistryConsent
