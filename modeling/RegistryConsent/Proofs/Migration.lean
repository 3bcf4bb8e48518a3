import RegistryConsent.Proofs.Stores
import RegistryConsent.Store.Session

/-!
# Migration leaves no damage

Whatever an outage strikes, a transaction is either stored as a whole or leaves what is stored as it
was. So a migration either brings the tables to the current version, and then another one changes
nothing, or leaves at most an empty table of versions behind. Without an outage it is the migration
that a store performs when it is opened.
-/

namespace RegistryConsent

namespace Session

/-- One statement of a transaction changes the copy. If it fails the copy is given up; what is stored
stays as it was in any case. -/
theorem performAll_execute (outage : Nat → Bool) (statement : Database.Statement)
    (rest : List Command) (stored working : Database) :
    performAll outage (.execute statement :: rest) ⟨stored, some working⟩ =
      match if outage 0 then none else statement.run? working with
      | none => (⟨stored, none⟩, false)
      | some next => performAll (fun n => outage (n + 1)) rest ⟨stored, some next⟩ := by
  rw [performAll, Command.perform?]
  cases outage 0 with
  | true => rfl
  | false => cases statement.run? working <;> rfl

/-- From inside a transaction its statements are stored with the commit as a whole, or what is
stored stays as it was. -/
theorem performAll_commit (outage : Nat → Bool) (statements : List Database.Statement)
    (stored working : Database) :
    (∃ left, working.runAll? statements = some left ∧
      performAll outage (statements.map .execute ++ [.commit]) ⟨stored, some working⟩ =
        (⟨left, none⟩, true)) ∨
    performAll outage (statements.map .execute ++ [.commit]) ⟨stored, some working⟩ =
      (⟨stored, none⟩, false) := by
  -- The outage is counted anew from each command, and only the copy differs between them.
  induction statements generalizing outage working with
  | nil =>
    rw [List.map_nil, List.nil_append, performAll]
    cases outage 0 with
    | true => exact .inr rfl
    | false => exact .inl ⟨working, rfl, rfl⟩
  | cons statement rest ih =>
    rw [List.map_cons, List.cons_append, performAll_execute, Database.runAll?]
    cases outage 0 with
    | true => exact .inr rfl
    | false =>
      cases statement.run? working with
      | none => exact .inr rfl
      | some next => exact ih (fun n => outage (n + 1)) next

/-- Without an outage a transaction is stored when no statement is refused. -/
theorem performAll_commit_of_ran {statements : List Database.Statement}
    {stored working left : Database} (ran : working.runAll? statements = some left) :
    performAll (fun _ => false) (statements.map .execute ++ [.commit]) ⟨stored, some working⟩ =
      (⟨left, none⟩, true) := by
  induction statements generalizing working with
  | nil =>
    cases ran
    rfl
  | cons statement rest ih =>
    obtain ⟨next, run, ran⟩ := Option.bind_eq_some_iff.mp ran
    rw [List.map_cons, List.cons_append, performAll_execute, run]
    exact ih ran

/-- A transaction is stored as a whole, or what is stored stays as it was. -/
theorem performAll_transaction (outage : Nat → Bool) (statements : List Database.Statement)
    (db : Database) :
    (∃ left, db.runAll? statements = some left ∧
      performAll outage (Command.transaction statements) ⟨db, none⟩ = (⟨left, none⟩, true)) ∨
    performAll outage (Command.transaction statements) ⟨db, none⟩ = (⟨db, none⟩, false) := by
  rw [Command.transaction, performAll]
  cases outage 0 with
  | true => exact .inr rfl
  | false => exact performAll_commit (fun n => outage (n + 1)) statements db db

/-- Without an outage a transaction comes to what its statements come to. -/
theorem performAll_transaction_without_outage (statements : List Database.Statement)
    (db : Database) :
    performAll (fun _ => false) (Command.transaction statements) ⟨db, none⟩ =
      match db.runAll? statements with
      | some left => (⟨left, none⟩, true)
      | none => (⟨db, none⟩, false) := by
  split
  · next left ran =>
    rw [Command.transaction, performAll]
    exact performAll_commit_of_ran ran
  · next refused =>
    refine (performAll_transaction (fun _ => false) statements db).resolve_left ?_
    rintro ⟨left, ran, -⟩
    rw [refused] at ran
    cases ran

end Session

namespace Database

variable {db : Database}

/-- The greatest of some numbers is that of the library, or zero. -/
theorem greatest_eq (vs : List Int) : greatest vs = vs.max?.getD 0 := by
  cases vs <;> rfl

/-- A positive greatest number is one of the numbers, and none is greater. -/
theorem greatest_mem_of_pos {vs : List Int} (pos : 0 < greatest vs) :
    greatest vs ∈ vs ∧ ∀ w ∈ vs, w ≤ greatest vs := by
  rw [greatest_eq] at pos ⊢
  cases found : vs.max? with
  | none =>
    rw [found] at pos
    exact absurd pos (Int.lt_irrefl 0)
  | some v => exact List.max?_eq_some_iff.mp found

/-- No number is greater than the greatest. -/
theorem le_greatest {vs : List Int} {v : Int} (h : v ∈ vs) : v ≤ greatest vs := by
  rw [greatest_eq]
  cases found : vs.max? with
  | none => rw [List.max?_eq_none_iff.mp found] at h; cases h
  | some w => exact (List.max?_eq_some_iff.mp found).2 v h

/-- The statements that lead to the current version make the upgrade where it is not recorded. -/
theorem runAll?_stepsFrom {recorded : List Int} (versions : db.versions = some recorded)
    (new : 1 ∉ recorded) : db.runAll? (stepsFrom 0) = db.upgrade? := by
  have others : recorded.filter (fun r => !(r == (1 : Int))) = recorded := by
    rw [List.filter_eq_self]
    intro v hv
    rw [Bool.not_eq_true', beq_eq_false_iff_ne]
    rintro rfl
    exact new hv
  have steps : stepsFrom 0 = [.createUsers, .createObjects, .insertVersion 1] := rfl
  obtain ⟨_, users, objects⟩ := db
  cases versions
  rw [steps, upgrade?, createTables?]
  cases users with
  | some => rfl
  | none =>
    cases objects with
    | some => rfl
    | none =>
      simp [runAll?, Statement.run?, new, recordVersion, putRow, recordedVersions, others,
        currentVersion]

/-- The upgrade creates both tables, neither of which may be there, and records its version. -/
theorem upgrade?_eq_some_iff {left : Database} :
    db.upgrade? = some left ↔ db.users = none ∧ db.objects = none ∧
      left = ⟨some (putRow id (currentVersion : Int) db.recordedVersions), some [], some []⟩ := by
  obtain ⟨_, users, objects⟩ := db
  cases users <;> cases objects <;>
    simp [upgrade?, createTables?, recordVersion, recordedVersions, eq_comm]

/-- The first command of a migration creates the table of versions, unless the outage strikes it. -/
theorem performAll_ensureVersions (outage : Nat → Bool) (db : Database) :
    Session.performAll outage [.execute .ensureVersions] ⟨db, none⟩ =
      if outage 0 then (⟨db, none⟩, false) else (⟨db.withVersions, none⟩, true) := by
  rw [Session.performAll]
  cases outage 0 <;> rfl

/-- What a migration may come to. -/
inductive Migrated (db : Database) : Database × Except StoreError Unit → Prop where
  /-- Nothing has changed but that there is a table of versions. -/
  | failed {left : Database} (kept : left = db ∨ left = db.withVersions) :
      Migrated db (left, .error .database)
  /-- The current version was recorded before. -/
  | known (current : currentVersion ≤ greatest db.recordedVersions)
      (below : greatest db.recordedVersions < UInt32.size) : Migrated db (db.withVersions, .ok ())
  /-- The tables have been created and the version is recorded. -/
  | upgraded (version : greatest db.recordedVersions = 0) (users : db.users = none)
      (objects : db.objects = none) :
      Migrated db
        (⟨some (putRow id (currentVersion : Int) db.recordedVersions), some [], some []⟩, .ok ())

/-- A version that is known but not the current one is zero. -/
theorem eq_zero_of_known {version : Int} (known : ¬(version < 0 ∨ UInt32.size ≤ version))
    (old : ¬currentVersion ≤ version) : version = 0 := by
  rw [currentVersion] at old
  omega

/-- Where no version is recorded the current one is not. -/
theorem currentVersion_not_mem {vs : List Int} (version : greatest vs = 0) :
    (currentVersion : Int) ∉ vs := by
  intro recorded
  have atMost := le_greatest recorded
  rw [version] at atMost
  exact absurd atMost (by decide)

/-- The statements of a migration upgrade a database with a table of versions. -/
theorem runAll?_withVersions (version : greatest db.recordedVersions = 0) :
    db.withVersions.runAll? (stepsFrom (greatest db.recordedVersions).toNat) =
      db.withVersions.upgrade? := by
  rw [version]
  exact runAll?_stepsFrom rfl (currentVersion_not_mem version)

/-- A migration by the version that is found once there is a table of versions. -/
theorem migrateAmid_eq (outage : Nat → Bool) (db : Database) :
    let version := greatest db.recordedVersions
    let performed := Session.performAll (fun n => outage (n + 2))
      (Command.transaction (stepsFrom version.toNat)) ⟨db.withVersions, none⟩
    db.migrateAmid outage =
      if outage 0 then (db, .error .database)
      else if outage 1 ∨ version < 0 ∨ UInt32.size ≤ version then
        (db.withVersions, .error .database)
      else if currentVersion ≤ version then (db.withVersions, .ok ())
      else (performed.1.stored, if performed.2 then .ok () else .error .database) := by
  intro version performed
  rw [migrateAmid, performAll_ensureVersions]
  cases outage 0 <;> rfl

/-- Whatever an outage strikes, a migration comes to one of the things it may come to. -/
theorem migrated_migrateAmid (outage : Nat → Bool) (db : Database) :
    db.Migrated (db.migrateAmid outage) := by
  rw [migrateAmid_eq]
  split
  · exact .failed (.inl rfl)
  · split
    · exact .failed (.inr rfl)
    · next known =>
      rw [not_or] at known
      split
      · next current => exact .known current (Int.not_le.mp (not_or.mp known.2).2)
      · next old =>
        -- Only from version zero is there anything to do, as long as the current one is the first.
        have version : greatest db.recordedVersions = 0 := eq_zero_of_known known.2 old
        obtain ⟨left, ran, performed⟩ | failed := Session.performAll_transaction
          (fun n => outage (n + 2)) (stepsFrom (greatest db.recordedVersions).toNat) db.withVersions
        · rw [performed]
          rw [runAll?_withVersions version] at ran
          obtain ⟨users, objects, rfl⟩ := upgrade?_eq_some_iff.mp ran
          exact .upgraded version users objects
        · rw [failed]
          exact .failed (.inr rfl)

/-- Without an outage the commands of a migration come to the migration of a store. -/
theorem migrateAmid_without_outage (db : Database) :
    (db.migrateAmid fun _ => false) = db.migrate := by
  have prepared : db.withVersions.recordedVersions = db.recordedVersions := rfl
  rw [migrateAmid_eq, migrate, prepared]
  simp only [Bool.false_eq_true, ↓reduceIte, false_or]
  split
  · rfl
  · next known =>
    split
    · rfl
    · next old =>
      have version : greatest db.recordedVersions = 0 := eq_zero_of_known known old
      rw [Session.performAll_transaction_without_outage, runAll?_withVersions version]
      cases db.withVersions.upgrade? <;> rfl

/-- The version that an upgrade records is the greatest. -/
theorem greatest_putRow {recorded : List Int} (version : greatest recorded = 0) :
    greatest (putRow id (currentVersion : Int) recorded) = currentVersion := by
  have recordedNow : (currentVersion : Int) ∈ putRow id (currentVersion : Int) recorded :=
    List.mem_append_right _ (List.mem_singleton_self _)
  have atLeast := le_greatest recordedNow
  have pos : 0 < greatest (putRow id (currentVersion : Int) recorded) :=
    Int.lt_of_lt_of_le (by decide) atLeast
  rcases List.mem_append.mp (greatest_mem_of_pos pos).1 with former | new
  · have old := le_greatest (List.mem_filter.mp former).1
    omega
  · exact List.mem_singleton.mp new

namespace Migrated

variable {left : Database}

/-- Where a migration was made the current version is recorded, and no greater version than stores
can read. -/
theorem recorded (h : db.Migrated (left, .ok ())) :
    ∃ recorded, left.versions = some recorded ∧ currentVersion ≤ greatest recorded ∧
      greatest recorded < UInt32.size := by
  cases h with
  | known current below => exact ⟨_, rfl, current, below⟩
  | upgraded version =>
    refine ⟨_, rfl, ?_⟩
    rw [greatest_putRow version]
    decide

/-- A migration leaves the rows of all tables as they were. -/
theorem rows {result : Except StoreError Unit} (h : db.Migrated (left, result)) :
    db.recordedVersions ⊆ left.recordedVersions ∧
      (∀ rows, db.users = some rows → left.users = some rows) ∧
      ∀ rows, db.objects = some rows → left.objects = some rows := by
  cases h with
  | failed kept => obtain rfl | rfl := kept <;> exact ⟨fun _ => id, fun _ => id, fun _ => id⟩
  | known => exact ⟨fun _ => id, fun _ => id, fun _ => id⟩
  | upgraded version users objects =>
    refine ⟨fun v former => List.mem_append_left _ ?_, fun rows there => ?_, fun rows there => ?_⟩
    · have other : v ≠ currentVersion := by
        rintro rfl
        exact currentVersion_not_mem version former
      exact List.mem_filter.mpr ⟨former, by simpa using other⟩
    · rw [users] at there
      cases there
    · rw [objects] at there
      cases there

/-- A migration that fails leaves all as it was, or an empty table of versions where there was
none. -/
theorem trace {e : StoreError} (h : db.Migrated (left, .error e)) :
    left = db ∨ db.versions = none ∧ left = { db with versions := some [] } := by
  cases h with
  | failed kept =>
    obtain rfl | rfl := kept
    · exact .inl rfl
    · cases versions : db.versions with
      | none =>
        refine .inr ⟨rfl, ?_⟩
        rw [withVersions, recordedVersions, versions]
        rfl
      | some recorded => exact .inl (withVersions_eq versions)

/-- A database that has recorded the current version is left as it was. -/
theorem eq_of_recorded {recorded : List Int} (versions : db.versions = some recorded)
    (current : currentVersion ≤ greatest recorded) {result : Except StoreError Unit}
    (h : db.Migrated (left, result)) : left = db := by
  cases h with
  | failed kept => exact kept.elim id (·.trans (withVersions_eq versions))
  | known => exact withVersions_eq versions
  | upgraded version =>
    rw [recordedVersions, versions] at version
    exact absurd (version ▸ current) (by decide)

end Migrated

/-- There is no upgrade where one of the tables is there. -/
theorem upgrade?_eq_none_iff : db.upgrade? = none ↔ db.users ≠ none ∨ db.objects ≠ none := by
  rw [← Option.not_isSome_iff_eq_none, Option.isSome_iff_exists]
  simp only [upgrade?_eq_some_iff, exists_and_left, exists_eq, and_true]
  exact not_and_or

/-- A migration fails when the greatest version that is recorded is none that stores can read, or
when it is old and one of the tables is there. -/
theorem exists_migrate_error_iff (db : Database) :
    (∃ e, db.migrate.2 = .error e) ↔
      greatest db.recordedVersions < 0 ∨ UInt32.size ≤ greatest db.recordedVersions ∨
        greatest db.recordedVersions < currentVersion ∧ (db.users ≠ none ∨ db.objects ≠ none) := by
  have prepared : db.withVersions.recordedVersions = db.recordedVersions := rfl
  have refused : db.withVersions.upgrade? = none ↔ db.users ≠ none ∨ db.objects ≠ none :=
    upgrade?_eq_none_iff
  rw [migrate, prepared, ← refused, ← or_assoc]
  split
  · next unreadable => exact iff_of_true ⟨_, rfl⟩ (.inl unreadable)
  · next known =>
    rw [or_iff_right known]
    split
    · next current =>
      refine iff_of_false ?_ fun old => absurd current (Int.not_le.mpr old.1)
      rintro ⟨_, ⟨⟩⟩
    · next old =>
      rw [and_iff_right (Int.not_le.mp old)]
      cases db.withVersions.upgrade? <;> simp

/-- Whatever an outage strikes, a migration that succeeds has recorded the current version as
greatest, or a later one; the rows that were there are there as they were, and a further migration
succeeds and changes nothing. One that fails leaves all as it was, or an empty table of versions
where there was none. Without an outage it is the migration that opens a store. This makes the three
tables and one row of an empty database, and fails exactly when the greatest version that is
recorded is none that stores can read, or is old while one of the tables is there. -/
theorem migrate_leaves_no_damage (db : Database) :
    (∀ outage,
      let left := (db.migrateAmid outage).1
      ((db.migrateAmid outage).2 = .ok () →
        left.migrate = (left, .ok ()) ∧ (∀ again, (left.migrateAmid again).1 = left) ∧
        (∃ recorded, left.versions = some recorded ∧ ∃ v ∈ recorded, currentVersion ≤ v ∧
          ∀ w ∈ recorded, w ≤ v) ∧
        db.recordedVersions ⊆ left.recordedVersions ∧
        (∀ rows, db.users = some rows → left.users = some rows) ∧
        ∀ rows, db.objects = some rows → left.objects = some rows) ∧
      ∀ e, (db.migrateAmid outage).2 = .error e →
        left = db ∨ db.versions = none ∧ left = { db with versions := some [] }) ∧
    (db.migrateAmid fun _ => false) = db.migrate ∧
    empty.migrate = (⟨some [currentVersion], some [], some []⟩, .ok ()) ∧
    ((∃ e, db.migrate.2 = .error e) ↔
      greatest db.recordedVersions < 0 ∨ UInt32.size ≤ greatest db.recordedVersions ∨
        greatest db.recordedVersions < currentVersion ∧
          (db.users ≠ none ∨ db.objects ≠ none)) := by
  refine ⟨fun outage => ?_, migrateAmid_without_outage db, rfl, exists_migrate_error_iff db⟩
  have migrated := migrated_migrateAmid outage db
  intro left
  refine ⟨fun succeeded => ?_, fun e failed => ?_⟩
  · have made : db.Migrated (left, .ok ()) := succeeded ▸ migrated
    obtain ⟨recorded, versions, current, below⟩ := made.recorded
    obtain ⟨there, greatest⟩ := greatest_mem_of_pos (Int.lt_of_lt_of_le (by decide) current)
    exact ⟨migrate_of_recorded versions current below,
      fun again => (migrated_migrateAmid again left).eq_of_recorded versions current,
      ⟨recorded, versions, _, there, current, greatest⟩, made.rows⟩
  · have stopped : db.Migrated (left, .error e) := failed ▸ migrated
    exact stopped.trace

/-- A database with a table of objects but no version. -/
private def halfPrepared : Database := { objects := some [⟨"person", "jd1-test", []⟩] }

/-- A database with a table of objects but no version is not migrated. An outage that strikes the
last statement of the first migration leaves none of the tables that were created before it. A
migration that no outage strikes is not made again. -/
theorem outage_leaves_no_table :
    (∃ e, halfPrepared.migrate.2 = .error e) ∧
      (empty.migrateAmid (· == 5)).1 = { versions := some [] } ∧
      (empty.migrateAmid (· == 7)).1.migrate = ((empty.migrateAmid (· == 7)).1, .ok ()) := by
  obtain ⟨-, -, -, fails⟩ := migrate_leaves_no_damage halfPrepared
  obtain ⟨amid, -⟩ := migrate_leaves_no_damage empty
  refine ⟨fails.mpr (by decide), ?_, ((amid (· == 7)).1 rfl).1⟩
  exact ((amid (· == 5)).2 .database rfl).elim (fun same => absurd same (by decide)) (·.2)

end Database

end RegistryConsent
