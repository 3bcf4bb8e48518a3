import RegistryConsent.Proofs.Consent
import RegistryConsent.Proofs.PasswordHash
import RegistryConsent.Trial

/-!
# The governing version decides

Who consents to a change of a record is decided by one version of it: the submitted one when the
record is created, and the stored one otherwise. The strategy of a record's maintainers comes to one
of four ends: the governing version is missing, it has no maintainer, some of its maintainers
vouch, or none does.
-/

namespace RegistryConsent

/-- Adds a name unless it was seen in this or another spelling. -/
def addUnseen (seen : List Handle) (name : Handle) : List Handle :=
  if seen.contains name then seen else seen ++ [name]

/-- Names in the order in which they are first seen, each in its first spelling. -/
def firstSeen (names : List Handle) : List Handle := names.foldl addUnseen []

/-- Names without duplicates are those that are seen first. -/
theorem eraseDups_eq_firstSeen (names : List Handle) : names.eraseDups = firstSeen names := by
  -- The names that were seen are kept in reverse while the duplicates are erased.
  have loop (seen : List Handle) : List.eraseDupsBy.loop (· == ·) names seen =
      names.foldl addUnseen seen.reverse := by
    induction names generalizing seen with
    | nil => rfl
    | cons name rest ih =>
      rw [List.eraseDupsBy.loop, List.foldl_cons, addUnseen, List.contains_reverse,
        List.contains_eq_any_beq]
      cases seen.any (name == ·) with
      | true => exact ih seen
      | false => simpa using ih (name :: seen)
  exact loop []

/-- The maintainers of a record are the names that are seen first in its lists. -/
theorem Record.maintainers_eq_firstSeen (r : Record) :
    r.maintainers = firstSeen ((r.values mntBy).flatMap listed) :=
  eraseDups_eq_firstSeen _

variable (answers : Answers) (u : Update) (c : Context)

/-- The maintainer of a name when a record is created: only then may it be the submitted one. -/
theorem Answers.maintainer_of_create (h : u.action = .create) (name : Handle) :
    answers.maintainer u name =
      if u.objectType = .mntner ∧ (u.key == name) = true then some u.record
      else answers.stored .mntner name := by
  simp [maintainer, Update.createsMaintainer, h]

/-- The maintainer of a name is the stored one unless a record is created. -/
theorem Answers.maintainer_of_ne_create (h : u.action ≠ .create) (name : Handle) :
    answers.maintainer u name = answers.stored .mntner name := by
  simp [maintainer, Update.createsMaintainer, h]

/-- The ends that the judgement of a governing version comes to. -/
inductive Answers.Governs : Outcome → Prop
  | missing (absent : answers.governing u = none) :
      Governs (.error (.because (.referenceMissing u.objectType.name u.key.spelling)))
  | unmaintained {r : Record} (found : answers.governing u = some r) (nobody : r.maintainers = []) :
      Governs (.ok [])
  | vouched {r : Record} (found : answers.governing u = some r)
      (somebody : answers.Vouched u r.maintainers) :
      Governs (.ok ((vouchers u r.maintainers).under answers))
  | unvouched {r : Record} (found : answers.governing u = some r) (named : r.maintainers ≠ [])
      (nobody : ¬answers.Vouched u r.maintainers) :
      Governs (.error (.because (.notAuthenticated r Record.mntBy.spelling r.maintainers)))

/-- The judgement of a governing version comes to one of its ends. -/
theorem governs_judgeByMaintainers :
    answers.Governs u ((judgeByMaintainers u (answers.governing u)).under answers) := by
  cases found : answers.governing u with
  | none => exact .missing found
  | some r =>
    rw [judgeByMaintainers]
    by_cases named : r.maintainers = []
    · rw [if_pos (List.isEmpty_iff.mpr named)]
      exact .unmaintained found named
    · rw [if_neg (by rwa [List.isEmpty_iff]), under_authenticateBy]
      have silence := vouchers_eq_nil_iff answers u r.maintainers
      rw [← List.isEmpty_iff] at silence
      split
      · next nobody => exact .unvouched found named (silence.mp nobody)
      · next somebody => exact .vouched found (not_not.mp (mt silence.mpr somebody))

/-- The strategy of a record's maintainers comes to one of the four ends. -/
theorem Strategy.governs_mntBy : answers.Governs u ((mntBy.authenticate u c).under answers) := by
  show answers.Governs u ((governingRecord u >>= judgeByMaintainers u).under answers)
  rw [Consult.under_bind, under_governingRecord]
  exact governs_judgeByMaintainers answers u

/-! ## The questions -/

/-- Every maintainer of a governing version is looked up but one that the update creates. -/
theorem questions_judgeByMaintainers (r : Record) :
    (judgeByMaintainers u (some r)).questions answers.source () =
      (r.maintainers.filter (!u.createsMaintainer ·)).map (.object .mntner ·) := by
  rw [judgeByMaintainers]
  split
  · next nobody =>
    rw [List.isEmpty_iff.mp nobody]
    rfl
  · rw [authenticateBy, Consult.questions_bind, questions_vouchers]
    split <;> rw [Consult.questions_pure, List.append_nil]

namespace Strategy

/-- When a record is created, its maintainers are looked up, but not one that the update itself
creates. -/
theorem questions_mntBy_of_create (h : u.action = .create) :
    (mntBy.authenticate u c).questions answers.source () =
      (u.record.maintainers.filter (!u.createsMaintainer ·)).map (.object .mntner ·) := by
  show (governingRecord u >>= judgeByMaintainers u).questions answers.source () = _
  rw [governingRecord, if_pos h, pure_bind]
  exact questions_judgeByMaintainers answers u u.record

/-- Otherwise the stored version is looked up first, and then its maintainers. -/
theorem questions_mntBy_of_ne_create (h : u.action ≠ .create) :
    (mntBy.authenticate u c).questions answers.source () =
      .object u.objectType u.key ::
        (((answers.stored u.objectType u.key).map (·.maintainers)).getD []).map
          (.object .mntner ·) := by
  have foreign (name : Handle) : u.createsMaintainer name = false := by
    simp [Update.createsMaintainer, h]
  show (governingRecord u >>= judgeByMaintainers u).questions answers.source () = _
  rw [governingRecord, if_neg h, Consult.questions_bind, Consult.questions_stored,
    Consult.run_source, Consult.under_stored]
  cases answers.stored u.objectType u.key with
  | none => rfl
  | some r =>
    rw [questions_judgeByMaintainers]
    simp [foreign]

/-! ## The outcome -/

/-- The creation of a record passes when one of its maintainers vouches. -/
theorem isOk_mntBy_of_create (h : u.action = .create) (supported : mntBy.supports u = true) :
    ((mntBy.authenticate u c).under answers).isOk = true ↔
      answers.Vouched u u.record.maintainers := by
  have named : u.record.maintainers ≠ [] := by
    simpa [mntBy, h] using supported
  rw [isOk_mntBy, Answers.governing, if_pos h]
  simp [named]

/-- A change of a stored record passes when it has no maintainer or one of them vouches. -/
theorem isOk_mntBy_of_ne_create (h : u.action ≠ .create) :
    ((mntBy.authenticate u c).under answers).isOk = true ↔
      ∃ r, answers.stored u.objectType u.key = some r ∧
        (r.maintainers = [] ∨ answers.Vouched u r.maintainers) := by
  rw [isOk_mntBy, Answers.governing, if_neg h]

/-- On success the records are the maintainers that vouch. -/
theorem records_mntBy {records : List Record}
    (h : (mntBy.authenticate u c).under answers = .ok records) :
    ∃ r, answers.governing u = some r ∧ records = r.maintainers.filterMap fun name =>
      (answers.maintainer u name).filter (·.vouchesFor u) := by
  have decided := governs_mntBy answers u c
  rw [h] at decided
  cases decided with
  | @unmaintained r found nobody => exact ⟨r, found, by rw [nobody]; rfl⟩
  | @vouched r found somebody => exact ⟨r, found, under_vouchers answers u r.maintainers⟩

/-- On failure there is one message, of one of two kinds. -/
theorem messages_mntBy {refusal : Refusal}
    (h : (mntBy.authenticate u c).under answers = .error refusal) :
    answers.governing u = none ∧
        refusal.messages = [.referenceMissing u.objectType.name u.key.spelling] ∨
      ∃ r, answers.governing u = some r ∧
        refusal.messages = [.notAuthenticated r Record.mntBy.spelling r.maintainers] := by
  have decided := governs_mntBy answers u c
  rw [h] at decided
  cases decided with
  | missing absent => exact .inl ⟨absent, rfl⟩
  | @unvouched r found named nobody => exact .inr ⟨r, found, rfl⟩

/-- An update that the strategy of a record's maintainers judges is decided by its governing
version. When a record is created, one of the names that it gives itself must lead to a maintainer
that vouches, which is the submitted record under its own name and the stored one under any other,
and only the others are looked up. Otherwise there must be a stored version, which names no
maintainer or one that is stored and vouches; the submitted record is never asked. On success
exactly the maintainers that vouch are returned, in the order of their names; on failure there is
one error, which says that there is no governing version or lists all its names in the order in
which they are first seen. -/
theorem mntBy_decides (answers : Answers) (u : Update) (c : Context)
    (supported : mntBy.supports u = true) :
    let outcome := (mntBy.authenticate u c).under answers
    let questions := (mntBy.authenticate u c).questions answers.source ()
    (u.action = .create →
      (outcome.isOk = true ↔ ∃ name ∈ u.record.maintainers, ∃ r,
        (if u.objectType = .mntner ∧ (u.key == name) = true then some u.record
          else answers.stored .mntner name) = some r ∧ r.vouchesFor u = true) ∧
      questions = (u.record.maintainers.filter fun name =>
        !(u.objectType == .mntner && u.key == name)).map (.object .mntner ·)) ∧
    (u.action ≠ .create →
      (outcome.isOk = true ↔ ∃ r, answers.stored u.objectType u.key = some r ∧
        (r.maintainers = [] ∨ ∃ name ∈ r.maintainers, ∃ m,
          answers.stored .mntner name = some m ∧ m.vouchesFor u = true)) ∧
      questions = .object u.objectType u.key ::
        (((answers.stored u.objectType u.key).map (·.maintainers)).getD []).map
          (.object .mntner ·)) ∧
    (∀ records, outcome = .ok records → ∃ r, answers.governing u = some r ∧
      records = r.maintainers.filterMap fun name =>
        (answers.maintainer u name).filter (·.vouchesFor u)) ∧
    (∀ refusal, outcome = .error refusal → ∃ m, refusal.messages = [m] ∧ m.isError = true ∧
      (answers.governing u = none ∧ m = .referenceMissing u.objectType.name u.key.spelling ∨
        ∃ r, answers.governing u = some r ∧
          m = .notAuthenticated r Record.mntBy.spelling
            (firstSeen ((r.values Record.mntBy).flatMap Record.listed)))) := by
  refine ⟨fun created => ⟨?_, ?_⟩, fun changed => ⟨?_, ?_⟩, fun records => ?_, fun refusal h => ?_⟩
  · rw [isOk_mntBy_of_create answers u c created supported]
    simp only [Answers.Vouched, answers.maintainer_of_create u created]
  · rw [questions_mntBy_of_create answers u c created]
    simp [Update.createsMaintainer, created]
  · rw [isOk_mntBy_of_ne_create answers u c changed]
    simp only [Answers.Vouched, answers.maintainer_of_ne_create u changed]
  · exact questions_mntBy_of_ne_create answers u c changed
  · exact records_mntBy answers u c
  · obtain ⟨absent, said⟩ | ⟨r, found, said⟩ := messages_mntBy answers u c h
    · exact ⟨_, said, rfl, .inl ⟨absent, rfl⟩⟩
    · rw [r.maintainers_eq_firstSeen] at said
      exact ⟨_, said, rfl, .inr ⟨r, found, rfl⟩⟩

/-- A maintainer that maintains itself and accepts one password. -/
private def newcomer : Record :=
  Trial.maintainer "NEW-MNT" (passwordLine "fresh" (Vector.replicate 16 0))

/-- The newcomer is submitted with its password. -/
private def enrolment (action : Action) : Update :=
  .prepare ⟨1⟩ action newcomer [.credential (.password "fresh")]

/-- The answers of a store with a maintainer of the same name that accepts no password. -/
private def occupied : Answers :=
  (MemoryStore.empty.putRecord (Trial.maintainer "NEW-MNT" "NONE")).answers

private theorem newcomer_vouches (action : Action) :
    newcomer.vouchesFor (enrolment action) = true := by
  have lines : newcomer.values Record.auth = [passwordLine "fresh" (.replicate 16 0)] := rfl
  rw [Record.vouchesFor, lines, List.any_cons, List.any_nil, Bool.or_false,
    Update.matchesLine_passwordLine]
  exact ⟨"fresh", List.mem_singleton_self _, rfl⟩

/-- The newcomer vouches for its creation, but not for a change of the maintainer that is there. -/
theorem newcomer_vouches_when_created :
    let evaluation action := mntBy.authenticate (enrolment action) (.fresh (enrolment action))
    (evaluation .create).under occupied = .ok [newcomer] ∧
      (evaluation .create).questions occupied.source () = [] ∧
      ((evaluation .modify).under occupied).isOk = false ∧
      (evaluation .modify).questions occupied.source () =
        [.object .mntner ⟨"NEW-MNT"⟩, .object .mntner ⟨"NEW-MNT"⟩] := by
  intro evaluation
  obtain ⟨created, -, returned, -⟩ := mntBy_decides occupied (enrolment .create)
    (.fresh (enrolment .create)) rfl
  obtain ⟨-, changed, -, -⟩ := mntBy_decides occupied (enrolment .modify)
    (.fresh (enrolment .modify)) rfl
  refine ⟨?_, (created rfl).2.trans rfl, ?_, (changed nofun).2.trans rfl⟩
  · have passed : ((evaluation .create).under occupied).isOk = true := by
      apply (created rfl).1.mpr
      exact ⟨⟨"NEW-MNT"⟩, List.mem_singleton_self _, newcomer, rfl, newcomer_vouches .create⟩
    cases h : (evaluation .create).under occupied with
    | error refusal => rw [h] at passed; cases passed
    | ok records =>
      obtain ⟨r, found, same⟩ := returned records h
      cases found
      have named : (enrolment .create).record.maintainers = [⟨"NEW-MNT"⟩] := rfl
      have own : occupied.maintainer (enrolment .create) ⟨"NEW-MNT"⟩ = some newcomer := rfl
      rw [same, named]
      simp [own, Option.filter, newcomer_vouches .create]
  · apply Bool.eq_false_iff.mpr
    intro passed
    obtain ⟨r, found, nobody | ⟨name, named, m, stored, vouches⟩⟩ := (changed nofun).1.mp passed
    · cases found
      cases nobody
    · cases found
      cases List.mem_singleton.mp named
      cases stored
      cases vouches

end Strategy

end RegistryConsent
