import RegistryConsent.Store.Migration

/-!
# Sessions

A session performs commands one at a time until one of them fails. A statement outside a transaction
is stored at once. Inside, it changes a copy of the database, which is stored by the commit; what
has not been committed when a command fails is rolled back.

A command fails when the database refuses it, or in an outage, which may strike any command.
-/

namespace RegistryConsent

namespace Database

/-- The statements that change the tables. -/
inductive Statement where
  /-- Creates the table of versions unless it is there. -/
  | ensureVersions
  | createUsers
  | createObjects
  /-- Records a version, which may not be recorded yet. -/
  | insertVersion (v : Nat)
  /-- Leads to a version that is not known, and is always refused. -/
  | unknown (v : Nat)
deriving DecidableEq

/-- The database after a statement, unless it is refused. -/
def Statement.run? : Statement → Database → Option Database
  | .ensureVersions, db => some db.withVersions
  | .createUsers, db =>
    match db.users with
    | some _ => none
    | none => some { db with users := some [] }
  | .createObjects, db =>
    match db.objects with
    | some _ => none
    | none => some { db with objects := some [] }
  | .insertVersion v, db => db.versions.bind fun recorded =>
    if (v : Int) ∈ recorded then none else some { db with versions := some (recorded ++ [↑v]) }
  | .unknown _, _ => none

/-- The database after some statements, unless one of them is refused. -/
def runAll? (db : Database) : List Statement → Option Database
  | [] => some db
  | statement :: rest => (statement.run? db).bind (·.runAll? rest)

end Database

/-- A session with a database. -/
structure Session where
  /-- What is stored. -/
  stored : Database
  /-- The copy that the open transaction has changed, if there is one. -/
  working : Option Database := none

/-- What a session performs. -/
inductive Command where
  | begin
  | execute (statement : Database.Statement)
  | commit

/-- The session after a command, unless it is refused. -/
def Command.perform? : Command → Session → Option Session
  | .begin, ⟨stored, none⟩ => some ⟨stored, some stored⟩
  | .begin, ⟨_, some _⟩ => none
  | .execute statement, ⟨stored, none⟩ => (statement.run? stored).map (⟨·, none⟩)
  | .execute statement, ⟨stored, some working⟩ =>
    (statement.run? working).map (⟨stored, some ·⟩)
  | .commit, ⟨_, some working⟩ => some ⟨working, none⟩
  | .commit, ⟨_, none⟩ => none

namespace Session

/-- Gives up the open transaction. -/
def rollback (s : Session) : Session := ⟨s.stored, none⟩

/-- Performs commands until one fails, and tells whether all have been performed. The outage strikes
commands by their number. -/
def performAll (outage : Nat → Bool) : List Command → Session → Session × Bool
  | [], s => (s, true)
  | command :: rest, s =>
    match if outage 0 then none else command.perform? s with
    | none => (s.rollback, false)
    | some s => performAll (fun n => outage (n + 1)) rest s

end Session

namespace Command

/-- The commands of a transaction. -/
def transaction (statements : List Database.Statement) : List Command :=
  .begin :: (statements.map .execute ++ [.commit])

end Command

namespace Database

/-- The statements that create what a version adds. -/
def additions : Nat → List Statement
  | 1 => [.createUsers, .createObjects]
  | v => [.unknown v]

/-- The statements that lead from a version to the current one. Each version on the way is recorded
when what it adds has been created. -/
def stepsFrom (version : Nat) : List Statement :=
  (List.range' (version + 1) (currentVersion - version)).flatMap fun v =>
    additions v ++ [.insertVersion v]

/-- Brings a database to the current version, command by command, while an outage may strike any of
them: first that which creates the table of versions, next the look-up of the greatest version, then
those of the transaction. -/
def migrateAmid (outage : Nat → Bool) (db : Database) : Database × Except StoreError Unit :=
  match Session.performAll outage [.execute .ensureVersions] ⟨db, none⟩ with
  | (s, false) => (s.stored, .error .database)
  | (s, true) =>
    let version := greatest s.stored.recordedVersions
    if outage 1 ∨ version < 0 ∨ UInt32.size ≤ version then (s.stored, .error .database)
    else if (currentVersion : Int) ≤ version then (s.stored, .ok ())
    else
      match Session.performAll (fun n => outage (n + 2))
        (Command.transaction (stepsFrom version.toNat)) s with
      | (s, done) => (s.stored, if done then .ok () else .error .database)

end Database

end RegistryConsent
