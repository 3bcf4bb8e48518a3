import RegistryConsent.Proofs.PasswordHash
import RegistryConsent.Proofs.StoreHistory
import RegistryConsent.Store.Persistent
import RegistryConsent.Trial

/-!
# Both stores answer by their history

The store in memory keeps the last user of each name and the last record of each identity. The store
in a database keeps rows under the names of types and keys in lower case, which tell the same
identities apart, and reads each row back as what was put. So both answer every sequence of calls by
its history, and it does not matter when the database is opened again.
-/

namespace RegistryConsent

/-- A search is not disturbed when only elements are taken out that it does not look for. -/
theorem find?_filter_of_imp {α : Type} {kept sought : α → Bool}
    (h : ∀ x, sought x = true → kept x = true) (xs : List α) :
    (xs.filter kept).find? sought = xs.find? sought := by
  rw [List.find?_filter]
  congr 1
  funext x
  cases hx : sought x with
  | false => simp
  | true => simp [h x hx]

/-! ### Memory -/

namespace MemoryStore

variable (s : MemoryStore)

/-- Serves a call. -/
def serve : StoreCall → StoreReply × MemoryStore
  | .putUser u => (.put (.ok ()), s.putUser u)
  | .getUser name => (.user (s.getUser name), s)
  | .putRecord r => (.put (.ok ()), s.putRecord r)
  | .getRecord t key => (.record (s.getRecord t key), s)

/-- A user that was put is found under the name, and all others as before. -/
theorem getUser_putUser (u : User) (name : String) :
    (s.putUser u).getUser name = if u.username = name then .ok u else s.getUser name := by
  by_cases same : u.username = name
  · simp [getUser, putUser, same]
  · have apart (x : User) (hx : (x.username == name) = true) :
        (x.username != u.username) = true := by
      rw [beq_iff_eq.mp hx, bne_iff_ne]
      exact Ne.symm same
    simp only [getUser, putUser, List.find?_cons, beq_false_of_ne same, if_neg same,
      find?_filter_of_imp apart]

/-- A record that was put is found under its identity, and all others as before. -/
theorem getRecord_putRecord (r : Record) (t : ObjectType) (key : Handle) :
    (s.putRecord r).getRecord t key =
      if r.objectType = t ∧ (r.key == key) = true then .ok (some r) else s.getRecord t key := by
  by_cases same : r.objectType = t ∧ (r.key == key) = true
  · simp [getRecord, putRecord, same]
  · have differs : (r.objectType == t && r.key == key) = false := by
      simpa using same
    have apart (x : Record) (hx : (x.objectType == t && x.key == key) = true) :
        (!x.sameIdentity r) = true := by
      rw [Bool.and_eq_true, beq_iff_eq] at hx
      obtain ⟨rfl, found⟩ := hx
      rw [Bool.not_eq_true', Bool.eq_false_iff, Record.sameIdentity, ne_eq, Bool.and_eq_true,
        beq_iff_eq]
      rintro ⟨objectType, own⟩
      exact same ⟨objectType.symm, BEq.trans (BEq.symm own) found⟩
    simp only [getRecord, putRecord, List.find?_cons, differs, if_neg same,
      find?_filter_of_imp apart]

/-- A call updates the answers. -/
theorem answers_serve (call : StoreCall) :
    (s.serve call).2.answers = s.answers.updated call := by
  cases call with
  | putUser u => exact congrArg (Answers.mk · _) (funext (getUser_putUser s u))
  | putRecord r =>
    exact congrArg (Answers.mk _) (funext fun t => funext fun key => getRecord_putRecord s r t key)
  | getUser | getRecord => rfl

/-- Every store serves all calls by its answers. -/
theorem servesBy : ServesBy serve answers (fun _ => True) (fun _ => True) where
  reply {s call} _ _ := by cases call <;> rfl
  kept _ _ := trivial
  updated _ _ := answers_serve _ _

end MemoryStore

/-! ### Databases -/

/-- A row that was put is found under its key, and all others as before. -/
theorem find?_putRow {α κ : Type} [BEq κ] [LawfulBEq κ] (key : α → κ) (row : α) (rows : List α)
    (k : κ) : (putRow key row rows).find? (key · == k) =
      if key row == k then some row else rows.find? (key · == k) := by
  rw [putRow, List.find?_append]
  by_cases same : key row = k
  · have replaced : (rows.filter fun r => !(key r == key row)).find? (key · == k) = none := by
      rw [List.find?_eq_none]
      simp [same]
    rw [replaced]
    simp [same]
  · have apart (r : α) (hr : (key r == k) = true) : (!(key r == key row)) = true := by
      rw [beq_iff_eq.mp hr, Bool.not_eq_true', beq_eq_false_iff_ne]
      exact Ne.symm same
    simp [find?_filter_of_imp apart, same]

namespace Database

/-- A user is read back from his row. -/
theorem userOfRow_userRow (u : User) : userOfRow (userRow u) = .ok u := by
  simp only [userOfRow, userRow, PasswordHash.parse_text, typesOfCbor?_typesToCbor]
  rfl

/-- A record is read back from its row. -/
theorem recordOfRow_recordRow {r : Record} (fits : r.Fits) :
    recordOfRow (recordRow r) = .ok (some r) := by
  simp only [recordOfRow, recordRow, Record.ofCbor?_toCbor fits]

/-- Serves a call. -/
def serve (db : Database) : StoreCall → StoreReply × Database
  | .putUser u =>
    match db.putUser u with
    | .ok db => (.put (.ok ()), db)
    | .error e => (.put (.error e), db)
  | .getUser name => (.user (db.getUser name), db)
  | .putRecord r =>
    match db.putRecord r with
    | .ok db => (.put (.ok ()), db)
    | .error e => (.put (.error e), db)
  | .getRecord t key => (.record (db.getRecord t key), db)

/-- The tables are those of the current version. -/
structure Current (db : Database) : Prop where
  versions : ∃ recorded, db.versions = some recorded ∧ currentVersion ≤ greatest recorded ∧
    greatest recorded < UInt32.size
  users : ∃ rows, db.users = some rows
  objects : ∃ rows, db.objects = some rows

/-- A table of versions that is there stays as it is. -/
theorem withVersions_eq {db : Database} {recorded : List Int} (h : db.versions = some recorded) :
    db.withVersions = db := by
  cases db
  cases h
  rfl

/-- A database that has recorded the current version stays as it is when it is opened. -/
theorem migrate_of_recorded {db : Database} {recorded : List Int}
    (versions : db.versions = some recorded) (current : currentVersion ≤ greatest recorded)
    (below : greatest recorded < UInt32.size) : db.migrate = (db, .ok ()) := by
  have version : db.recordedVersions = recorded := by rw [recordedVersions, versions]; rfl
  have known : ¬(greatest recorded < 0 ∨ UInt32.size ≤ greatest recorded) := by
    have positive : (0 : Int) ≤ currentVersion := by decide
    omega
  simp only [migrate, withVersions_eq versions, version, if_neg known, if_pos current]

/-- A database of the current version stays as it is when it is opened. -/
theorem migrate_of_current {db : Database} (h : db.Current) : db.migrate = (db, .ok ()) := by
  obtain ⟨recorded, versions, current, below⟩ := h.versions
  exact migrate_of_recorded versions current below

/-- Putting a user succeeds; the user is found under the name, and all else as before. -/
theorem serve_putUser {db : Database} (h : db.Current) (u : User) :
    (db.serve (.putUser u)).1 = .put (.ok ()) ∧ (db.serve (.putUser u)).2.Current ∧
      (db.serve (.putUser u)).2.answers = db.answers.updated (.putUser u) := by
  obtain ⟨rows, users⟩ := h.users
  have put : db.putUser u =
      .ok { db with users := some (putRow UserRow.primaryKey (userRow u) rows) } := by
    simp only [putUser, putUserRow?, users, Option.map_some]
  simp only [serve, put, true_and]
  refine ⟨⟨h.versions, ⟨_, rfl⟩, h.objects⟩, congr (congrArg Answers.mk (funext fun name => ?_)) rfl⟩
  have own : ((userRow u).primaryKey == name) = true ↔ u.username = name := beq_iff_eq
  simp only [getUser, find?_putRow, own]
  by_cases same : u.username = name
  · simp only [if_pos same, userOfRow_userRow]
  · simp only [if_neg same, answers, getUser, users]

/-- Putting a record that fits succeeds; the record is found under its identity, and all else as
before. -/
theorem serve_putRecord {db : Database} (h : db.Current) {r : Record} (fits : r.Fits) :
    (db.serve (.putRecord r)).1 = .put (.ok ()) ∧ (db.serve (.putRecord r)).2.Current ∧
      (db.serve (.putRecord r)).2.answers = db.answers.updated (.putRecord r) := by
  obtain ⟨rows, objects⟩ := h.objects
  have put : db.putRecord r =
      .ok { db with objects := some (putRow ObjectRow.primaryKey (recordRow r) rows) } := by
    simp only [putRecord, putObjectRow?, objects, Option.map_some]
  simp only [serve, put, true_and]
  refine ⟨⟨h.versions, h.users, ⟨_, rfl⟩⟩,
    congrArg (Answers.mk _) (funext fun t => funext fun key => ?_)⟩
  have own : ((recordRow r).primaryKey == (t.name, key.lowered)) = true ↔
      r.objectType = t ∧ (r.key == key) = true := by
    change ((r.objectType.name, r.key.lowered) == _) = true ↔ _
    rw [beq_iff_eq, Prod.mk.injEq, ObjectType.name_inj, Handle.lowered_inj]
  simp only [getRecord, find?_putRow, own]
  by_cases same : r.objectType = t ∧ (r.key == key) = true
  · simp only [if_pos same, recordOfRow_recordRow fits]
  · simp only [if_neg same, answers, getRecord, objects]

/-- A database of the current version serves the calls that fit by its answers. -/
theorem servesBy : ServesBy serve answers Current StoreCall.Fits where
  reply {db call} h fits := by
    cases call with
    | putUser u => exact (serve_putUser h u).1
    | putRecord r => exact (serve_putRecord h fits).1
    | getUser | getRecord => rfl
  kept {db call} h fits := by
    cases call with
    | putUser u => exact (serve_putUser h u).2.1
    | putRecord r => exact (serve_putRecord h fits).2.1
    | getUser | getRecord => exact h
  updated {db call} h fits := by
    cases call with
    | putUser u => exact (serve_putUser h u).2.2
    | putRecord r => exact (serve_putRecord h fits).2.2
    | getUser | getRecord => rfl

/-- The replies to the calls of some sessions. The database is opened for each session anew. -/
def serveSessions (db : Database) : List (List StoreCall) → Except StoreError (List StoreReply)
  | [] => .ok []
  | calls :: sessions =>
    match db.migrate with
    | (_, .error e) => .error e
    | (opened, .ok ()) =>
      let (replies, left) := serveAll serve opened calls
      (serveSessions left sessions).map (replies ++ ·)

/-- A database that opens with the answers of a history replies to sessions by that history. -/
theorem serveSessions_eq {db opened : Database} {history : List StoreCall}
    (opens : db.migrate = (opened, .ok ())) (current : opened.Current)
    (answers : opened.answers = .after history) {sessions : List (List StoreCall)}
    (fits : ∀ calls ∈ sessions, ∀ call ∈ calls, call.Fits) :
    db.serveSessions sessions = .ok (repliesAfter history sessions.flatten) := by
  induction sessions generalizing db opened history with
  | nil => rfl
  | cons calls sessions ih =>
    obtain ⟨replies, current', answers'⟩ := servesBy.serveAll_eq (fits calls List.mem_cons_self)
      current answers
    have later := ih (migrate_of_current current') current' answers'
      fun c hc => fits c (List.mem_cons_of_mem calls hc)
    simp only [serveSessions, opens, later, replies, Except.map, List.flatten_cons,
      repliesAfter_append]

/-- A new database opens with its tables empty. -/
theorem migrate_empty : ∃ opened, empty.migrate = (opened, .ok ()) ∧ opened.Current ∧
    opened.answers = .after [] :=
  ⟨⟨some [1], some [], some []⟩, rfl, ⟨⟨[1], rfl, by decide, by decide⟩, ⟨[], rfl⟩, ⟨[], rfl⟩⟩, rfl⟩

end Database

/-- The store in memory and the store in a database reply to every sequence of calls by its history:
a look-up finds what was put last under the name, or under the type and the key up to case. This
holds wherever the database is opened again in between. A call that does not concern a look-up has
no influence on it. -/
theorem stores_reply_by_history :
    (∀ calls, (serveAll MemoryStore.serve .empty calls).1 = repliesAfter [] calls) ∧
    (∀ sessions : List (List StoreCall), (∀ calls ∈ sessions, ∀ call ∈ calls, call.Fits) →
      Database.empty.serveSessions sessions = .ok (repliesAfter [] sessions.flatten)) ∧
    ∀ history later call lookup, ¬StoreCall.Concerns call lookup →
      lookup.reply (.after (history ++ call :: later)) =
        lookup.reply (.after (history ++ later)) := by
  refine ⟨fun calls => ?_, fun sessions fits => ?_, fun history later _ _ foreign => ?_⟩
  · have fresh : MemoryStore.empty.answers = .after [] := rfl
    exact (MemoryStore.servesBy.serveAll_eq (fun _ _ => trivial) trivial fresh).1
  · obtain ⟨opened, opens, current, answers⟩ := Database.migrate_empty
    exact Database.serveSessions_eq opens current answers fits
  · exact reply_after_insert history later foreign

/-- An administrator of persons. -/
private def clerk : User := ⟨"clerk", ⟨.replicate 16 1, .replicate 32 2⟩, .single .person⟩

/-- A maintainer whose key and attributes are in mixed case. -/
private def mixedMaintainer : Record := Trial.maintainer "Own-MNT" "None"

/-- A first session puts a user and a maintainer twice, a second one looks for them. -/
private def twoSessions : List (List StoreCall) :=
  [[.putUser clerk, .putRecord (Trial.maintainer "OWN-MNT" "old"), .putRecord mixedMaintainer],
    [.getRecord .mntner ⟨"own-mnt"⟩, .getRecord .person ⟨"Own-MNT"⟩, .getUser "clerk",
      .getUser "Clerk"]]

/-- After the database was opened again the last maintainer is found in its own spelling under a key
in another case, though under no other type, and the user under the very name alone. The store in
memory replies the same. -/
theorem found_after_reopening :
    let replies : List StoreReply :=
      [.put (.ok ()), .put (.ok ()), .put (.ok ()), .record (.ok (some mixedMaintainer)),
        .record (.ok none), .user (.ok clerk), .user (.error (.unknownUser "Clerk"))]
    Database.empty.serveSessions twoSessions = .ok replies ∧
      (serveAll MemoryStore.serve .empty twoSessions.flatten).1 = replies := by
  intro replies
  have fits : ∀ calls ∈ twoSessions, ∀ call ∈ calls, call.Fits := by decide +kernel
  have told : repliesAfter [] twoSessions.flatten = replies := by decide +kernel
  obtain ⟨memory, reopened, -⟩ := stores_reply_by_history
  exact ⟨(reopened twoSessions fits).trans (congrArg Except.ok told),
    (memory twoSessions.flatten).trans told⟩

end RegistryConsent
