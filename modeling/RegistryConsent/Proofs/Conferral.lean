import RegistryConsent.Proofs.Aggregation
import RegistryConsent.Proofs.Consent
import RegistryConsent.Proofs.Registry

/-!
# Who confers principals

With the standard strategies a principal comes from a stored maintainer that vouches for the update.
A record that decides names the maintainer, and the configuration lists its key for the principal.
The maintainer that an update itself creates vouches for it but confers nothing.
-/

namespace RegistryConsent

/-- Every object that is found has the type and, up to case, the key that was asked for. -/
def Answers.Faithful (answers : Answers) : Prop :=
  ∀ t key r, answers.stored t key = some r → r.objectType = t ∧ (r.key == key) = true

/-- A store in memory finds what was asked for. -/
theorem MemoryStore.faithful (s : MemoryStore) : s.answers.Faithful := by
  intro t key r stored
  have found : s.records.find? (fun r => r.objectType == t && r.key == key) = some r := stored
  have matched := List.find?_some found
  simpa using matched

/-- The maintainer of a name is asked about an update. The name stands in the governing version of
the record, or in the autonomous system that a new route starts from, and the strategy that asks it
belongs to the authority and supports the update. -/
inductive Answers.Asks (answers : Answers) (a : Authority) (u : Update) (name : Handle) : Prop where
  | governing {r : Record} (registered : .mntBy ∈ a.strategies)
      (supported : Strategy.mntBy.supports u = true) (found : answers.governing u = some r)
      (named : name ∈ r.maintainers)
  | origin {origin : Handle} {autNum : Record} (registered : .routeOrigin ∈ a.strategies)
      (supported : Strategy.routeOrigin.supports u = true)
      (starts : u.record.originHandle = some origin)
      (found : answers.stored .autNum origin = some autNum) (named : name ∈ autNum.maintainers)

namespace Authority

variable (a : Authority) (u : Update) (c : Context) (answers : Answers)

/-- The principals of a subject are those of the maintainers that supporting strategies return. -/
theorem mem_principals_under (p : Principal) :
    p ∈ (a.subjectOf u ((a.answers u c).under answers)).principals.toList ↔
      ∃ strategy ∈ a.strategies, strategy.supports u = true ∧
        ∃ r, Outcome.Returns ((strategy.authenticate u c).under answers) r ∧
          r.objectType = .mntner ∧ u.createsMaintainer r.key = false ∧
          p ∈ (a.registry.lookup r.key).toList := by
  rw [principals_subjectOf]
  simp only [mem_principalsOf, List.mem_flatMap, Answer.mem_records_iff, under_answers,
    List.mem_map, List.mem_filter]
  constructor
  · rintro ⟨r, ⟨_, ⟨strategy, ⟨hmem, supported⟩, rfl⟩, returned⟩, conferred⟩
    exact ⟨strategy, hmem, supported, r, returned, conferred⟩
  · rintro ⟨strategy, hmem, supported, r, returned, conferred⟩
    exact ⟨r, ⟨_, ⟨strategy, ⟨hmem, supported⟩, rfl⟩, returned⟩, conferred⟩

/-- What the standard strategies return are the maintainers that are asked and vouch. -/
theorem returned_iff
    (hs : ∀ strategy ∈ a.strategies, strategy = .mntBy ∨ strategy = .routeOrigin) (r : Record) :
    (∃ strategy ∈ a.strategies, strategy.supports u = true ∧
        Outcome.Returns ((strategy.authenticate u c).under answers) r) ↔
      ∃ name, answers.Asks a u name ∧ answers.maintainer u name = some r ∧
        r.vouchesFor u = true := by
  constructor
  · rintro ⟨strategy, hmem, supported, returned⟩
    rcases hs strategy hmem with rfl | rfl
    · obtain ⟨governing, found, name, named, vouching⟩ :=
        (Strategy.returns_mntBy answers u c r).mp returned
      exact ⟨name, .governing hmem supported found named, vouching⟩
    · obtain ⟨origin, autNum, starts, found, name, named, vouching⟩ :=
        (Strategy.returns_routeOrigin answers u c r).mp returned
      exact ⟨name, .origin hmem supported starts found named, vouching⟩
  · rintro ⟨name, asked, vouching⟩
    cases asked with
    | governing registered supported found named =>
      exact ⟨.mntBy, registered, supported, (Strategy.returns_mntBy answers u c r).mpr
        ⟨_, found, name, named, vouching⟩⟩
    | origin registered supported starts found named =>
      exact ⟨.routeOrigin, registered, supported, (Strategy.returns_routeOrigin answers u c r).mpr
        ⟨_, _, starts, found, name, named, vouching⟩⟩

end Authority

/-- A maintainer that the update does not create itself is the stored one of its name. -/
theorem Answers.maintainer_eq_some_iff {answers : Answers} (hf : answers.Faithful) (u : Update)
    (name : Handle) {r : Record} (hr : u.createsMaintainer r.key = false) :
    answers.maintainer u name = some r ↔ answers.stored .mntner name = some r := by
  rw [maintainer]
  cases created : u.createsMaintainer name with
  | false => exact .rfl
  | true =>
    obtain ⟨action, objectType, key⟩ := (u.createsMaintainer_iff name).mp created
    -- Both the submitted record and a stored one of the name have the key that is created.
    have own : (u.key == r.key) = true → False := fun same => by
      rw [(u.createsMaintainer_iff r.key).mpr ⟨action, objectType, same⟩] at hr
      cases hr
    constructor
    · intro submitted
      obtain rfl : u.record = r := Option.some.inj submitted
      exact (own (BEq.refl u.key)).elim
    · intro stored
      have same : (r.key == name) = true := (hf .mntner name r stored).2
      exact (own (BEq.trans key (BEq.symm same))).elim

namespace Authority

/-- With the standard strategies and few enough passwords, a principal is conferred exactly when the
maintainer of a name that is asked is stored and vouches for the update, the configuration lists the
key of the maintainer for the principal, and the update does not create it. With more passwords than
are allowed nothing is conferred. -/
theorem mem_principals_iff_vouched (m : Maintainers) (a : Authority)
    (hm : m.registry = .ok a.registry)
    (hs : ∀ strategy ∈ a.strategies, strategy = .mntBy ∨ strategy = .routeOrigin)
    (o : Origin) (u : Update) (c : Context) (answers : Answers) (hf : answers.Faithful)
    (ho : o.channel ≠ .internal) (hu : u.isOverride = false) :
    let e := (a.authenticate o u c).under answers
    (u.credentials.passwords.length ≤ a.maxPasswords → ∀ p, p ∈ e.subject.principals.toList ↔
      ∃ name r, answers.Asks a u name ∧ answers.stored .mntner name = some r ∧
        r.vouchesFor u = true ∧ (∃ listed ∈ (m.names p).toList, listed == r.key) ∧
        ¬(u.action = .create ∧ u.objectType = .mntner ∧ (u.key == r.key) = true)) ∧
    (a.maxPasswords < u.credentials.passwords.length → e.subject.principals.toList = []) := by
  intro e
  constructor
  · intro few p
    have subject : e.subject = a.subjectOf u ((a.answers u c).under answers) := by
      simp only [e, under_authenticate_of_le a o u c answers ho hu few]
      rfl
    rw [subject, mem_principals_under]
    simp only [m.mem_lookup_iff a.registry hm, ← Update.createsMaintainer_iff, Bool.not_eq_true]
    constructor
    · rintro ⟨strategy, hmem, supported, r, returned, -, foreign, listed⟩
      obtain ⟨name, asked, found, vouches⟩ := (returned_iff a u c answers hs r).mp
        ⟨strategy, hmem, supported, returned⟩
      have stored := (Answers.maintainer_eq_some_iff hf u name foreign).mp found
      exact ⟨name, r, asked, stored, vouches, listed, foreign⟩
    · rintro ⟨name, r, asked, stored, vouches, listed, foreign⟩
      have found := (Answers.maintainer_eq_some_iff hf u name foreign).mpr stored
      obtain ⟨strategy, hmem, supported, returned⟩ := (returned_iff a u c answers hs r).mpr
        ⟨name, asked, found, vouches⟩
      exact ⟨strategy, hmem, supported, r, returned, (hf .mntner name r stored).1, foreign, listed⟩
  · intro many
    simp only [e, under_authenticate, decide_of_not_isOverride a o u c ho hu,
      judge_of_lt a o u c many, Consult.under_pure]
    rfl

/-- A route from an autonomous system of the power maintainer, with the password of the latter. -/
private def powerRoute : Update :=
  .prepare ⟨1⟩ .create (Trial.route "192.0.2.0/24" "AS65000" "OWN-MNT")
    [.credential (.password "secret")]

/-- A power maintainer that accepts the password. -/
private def powerMaintainer : Record :=
  Trial.maintainer "RIR-POWER-MNT" ("BLAKE3-PW $00000000000000000000000000000000$" ++
    "ea8b5fff7a30254cca765db6fd15e8001aaaa8c7fa07819cba69414526f4518d")

/-- A store with the power maintainer and its autonomous system. -/
private def powerStore : MemoryStore :=
  (MemoryStore.empty.putRecord powerMaintainer).putRecord (Trial.autNum "AS65000" "RIR-POWER-MNT")

/-- The authority of the standard strategies that lists the power maintainer in lower case. -/
private def conferring : Authority where
  strategies := Trial.standardStrategies
  distinct := Trial.nodup_standardStrategies
  registry := ⟨[(⟨"rir-power-mnt"⟩, .single .powerMaintainer)]⟩
  trusts := Range.trusts []
  maxPasswords := 20
  restricted := true

/-- The power maintainer confers its principal on a route through the autonomous system, and no
other principal comes with it. -/
theorem conferred_through_origin :
    let e := (conferring.authenticate Trial.trustedOrigin powerRoute (.fresh powerRoute)).under
      powerStore.answers
    let m : Maintainers := { power := .single ⟨"rir-power-mnt"⟩ }
    m.registry = .ok conferring.registry ∧ powerStore.answers.Faithful ∧
      .powerMaintainer ∈ e.subject.principals.toList ∧
      .dbmMaintainer ∉ e.subject.principals.toList := by
  obtain ⟨few, -⟩ := mem_principals_iff_vouched { power := .single ⟨"rir-power-mnt"⟩ } conferring
    rfl (by simp [conferring, Trial.standardStrategies]) Trial.trustedOrigin powerRoute
    (.fresh powerRoute) powerStore.answers powerStore.faithful nofun rfl
  have principals := few (by decide)
  have asked : powerStore.answers.Asks conferring powerRoute ⟨"RIR-POWER-MNT"⟩ :=
    .origin (List.mem_cons_of_mem _ List.mem_cons_self) rfl rfl rfl (List.mem_singleton_self _)
  have vouches : powerMaintainer.vouchesFor powerRoute = true := by decide +kernel
  refine ⟨rfl, powerStore.faithful, (principals .powerMaintainer).mpr ?_, ?_⟩
  · exact ⟨_, powerMaintainer, asked, rfl, vouches, ⟨_, List.mem_singleton_self _, rfl⟩, nofun⟩
  · intro conferred
    obtain ⟨-, -, -, -, -, ⟨_, listed, -⟩, -⟩ := (principals .dbmMaintainer).mp conferred
    cases listed

end Authority

end RegistryConsent
