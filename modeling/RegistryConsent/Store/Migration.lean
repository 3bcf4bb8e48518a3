import RegistryConsent.Store.Error
import RegistryConsent.Store.Tables

/-!
# Migration

Opening a database brings its tables to the current version. The table of versions is created first
and stays; all else happens in one transaction, which leaves no trace when it fails.
-/

namespace RegistryConsent.Database

/-- The version of the tables that stores use. -/
def currentVersion : Nat := 1

/-- The versions recorded so far, if there is a table for them. -/
def recordedVersions (db : Database) : List Int := db.versions.getD []

/-- The greatest of some numbers, zero if there is none. -/
def greatest : List Int → Int
  | [] => 0
  | v :: vs => vs.foldl max v

/-- The database with a table of versions. -/
def withVersions (db : Database) : Database := { db with versions := some db.recordedVersions }

/-- Creates the tables of version 1, neither of which may be there. -/
def createTables? (db : Database) : Option Database :=
  match db.users, db.objects with
  | none, none => some { db with users := some [], objects := some [] }
  | _, _ => none

/-- Records a version. -/
def recordVersion (db : Database) (v : Int) : Database :=
  { db with versions := some (putRow id v db.recordedVersions) }

/-- Takes the steps from no version to the current one. -/
def upgrade? (db : Database) : Option Database :=
  db.createTables?.map (·.recordVersion currentVersion)

/-- Brings a database to the current version. The result is the database that is left, and the error
if there was one. -/
def migrate (db : Database) : Database × Except StoreError Unit :=
  let prepared := db.withVersions
  let version := greatest prepared.recordedVersions
  if version < 0 ∨ UInt32.size ≤ version then (prepared, .error .database)
  else if (currentVersion : Int) ≤ version then (prepared, .ok ())
  else
    match prepared.upgrade? with
    | some upgraded => (upgraded, .ok ())
    | none => (prepared, .error .database)

end RegistryConsent.Database
