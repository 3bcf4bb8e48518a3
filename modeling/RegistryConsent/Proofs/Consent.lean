import RegistryConsent.Proofs.Consultation
import RegistryConsent.Strategy.MntBy
import RegistryConsent.Strategy.RouteOrigin

/-!
# Whose consent counts

Under fixed answers each name has its maintainer or none, and the strategies pass an update exactly
when one of the maintainers they ask vouches for it. The maintainers of a record are those of its
governing version; the maintainers of a route's origin are those that its autonomous system names.
A strategy that does not pass an update always says why.
-/

namespace RegistryConsent

/-- A refusal that carries a message. -/
def Outcome.Explained (outcome : Outcome) : Prop :=
  ∀ refusal, outcome = .error refusal → refusal.messages ≠ []

/-- A refusal with one message is explained. -/
theorem explained_because (m : Message) : Outcome.Explained (.error (.because m)) := by
  rintro _ ⟨⟩
  exact List.cons_ne_nil m []

/-- A strategy passed and returned a record. -/
def Outcome.Returns (outcome : Outcome) (r : Record) : Prop :=
  ∃ records, outcome = .ok records ∧ r ∈ records

namespace Answers

variable (answers : Answers) (u : Update)

/-- The maintainer that decides under a name: the submitted record if the update creates it, else
the stored one. -/
def maintainer (name : Handle) : Option Record :=
  if u.createsMaintainer name then some u.record else answers.stored .mntner name

/-- The version of the record whose maintainers decide. -/
def governing : Option Record :=
  if u.action = .create then some u.record else answers.stored u.objectType u.key

/-- Some maintainer of a list of names vouches for the update. -/
def Vouched (names : List Handle) : Prop :=
  ∃ name ∈ names, ∃ r, answers.maintainer u name = some r ∧ r.vouchesFor u = true

end Answers

variable (answers : Answers) (u : Update)

/-- Under fixed answers a name leads to its maintainer. -/
@[simp] theorem under_maintainerNamed (name : Handle) :
    (maintainerNamed u name).under answers = answers.maintainer u name := by
  unfold maintainerNamed Answers.maintainer
  split
  · rfl
  · rw [Consult.under_stored]

/-- Under fixed answers the governing version is found. -/
@[simp] theorem under_governingRecord :
    (governingRecord u).under answers = answers.governing u := by
  unfold governingRecord Answers.governing
  split
  · rfl
  · rw [Consult.under_stored]

/-- The maintainers that vouch are found name by name. -/
@[simp] theorem under_vouchers (names : List Handle) :
    (vouchers u names).under answers =
      names.filterMap fun name => (answers.maintainer u name).filter (·.vouchesFor u) := by
  induction names with
  | nil => rfl
  | cons name rest ih =>
    rw [vouchers, Consult.under_bind, under_maintainerNamed, Consult.under_bind, ih,
      Consult.under_pure, List.filterMap_cons]
    cases (answers.maintainer u name).filter (·.vouchesFor u) <;> rfl

/-- Every name but that of a maintainer which the update creates is looked up, whatever is found. -/
theorem questions_vouchers {σ : Type} (source : Source σ) (names : List Handle) (s : σ) :
    (vouchers u names).questions source s =
      (names.filter (!u.createsMaintainer ·)).map (.object .mntner ·) := by
  induction names generalizing s with
  | nil => rfl
  | cons name rest ih =>
    rw [vouchers, Consult.questions_bind, Consult.questions_bind, Consult.questions_pure,
      List.append_nil, ih, maintainerNamed]
    cases h : u.createsMaintainer name with
    | true =>
      rw [List.filter_cons_of_neg (by simp [h])]
      rfl
    | false =>
      rw [List.filter_cons_of_pos (by simp [h]), if_neg Bool.false_ne_true,
        Consult.questions_stored]
      rfl

/-- A maintainer vouches exactly under a name that leads to it. -/
theorem mem_vouchers (names : List Handle) (r : Record) :
    r ∈ (vouchers u names).under answers ↔
      ∃ name ∈ names, answers.maintainer u name = some r ∧ r.vouchesFor u = true := by
  rw [under_vouchers, List.mem_filterMap]
  simp only [Option.filter_eq_some_iff]

/-- Nobody vouches exactly when no maintainer is found that does. -/
theorem vouchers_eq_nil_iff (names : List Handle) :
    (vouchers u names).under answers = [] ↔ ¬answers.Vouched u names := by
  rw [List.eq_nil_iff_forall_not_mem]
  constructor
  · rintro h ⟨name, hname, r, hr⟩
    exact h r ((mem_vouchers answers u names r).mpr ⟨name, hname, hr⟩)
  · intro h r hr
    obtain ⟨name, hname, hr⟩ := (mem_vouchers answers u names r).mp hr
    exact h ⟨name, hname, r, hr⟩

/-- The outcome under fixed answers tells whether somebody vouches. -/
theorem under_authenticateBy (target : Record) (attr : String) (names : List Handle) :
    (authenticateBy u target attr names).under answers =
      if ((vouchers u names).under answers).isEmpty then
        .error (.because (.notAuthenticated target attr names))
      else .ok ((vouchers u names).under answers) := by
  rw [authenticateBy, Consult.under_bind]
  split <;> rfl

/-- Maintainers pass an update when one of them vouches for it. -/
theorem isOk_authenticateBy (target : Record) (attr : String) (names : List Handle) :
    ((authenticateBy u target attr names).under answers).isOk = true ↔
      answers.Vouched u names := by
  have hn := vouchers_eq_nil_iff answers u names
  rw [under_authenticateBy]
  by_cases h : answers.Vouched u names
  · rw [if_neg (by rw [List.isEmpty_iff, hn]; exact not_not_intro h)]
    exact ⟨fun _ => h, fun _ => rfl⟩
  · rw [if_pos (by rw [List.isEmpty_iff, hn]; exact h)]
    exact ⟨nofun, fun hv => absurd hv h⟩

/-- Maintainers return those of them that vouch. -/
theorem returns_authenticateBy (target : Record) (attr : String) (names : List Handle)
    (r : Record) :
    Outcome.Returns ((authenticateBy u target attr names).under answers) r ↔
      ∃ name ∈ names, answers.maintainer u name = some r ∧ r.vouchesFor u = true := by
  rw [← mem_vouchers, under_authenticateBy]
  split
  · next nobody =>
    rw [List.isEmpty_iff.mp nobody]
    exact ⟨nofun, nofun⟩
  · simp [Outcome.Returns]

/-- Maintainers that do not pass an update say why. -/
theorem explained_authenticateBy (target : Record) (attr : String) (names : List Handle) :
    Outcome.Explained ((authenticateBy u target attr names).under answers) := by
  rw [under_authenticateBy]
  split
  · exact explained_because _
  · exact nofun

namespace Strategy

variable (c : Context)

/-- The strategy of a record's maintainers refuses what has no governing version, passes what nobody
maintains, and otherwise leaves it to the maintainers that the governing version names. -/
theorem mntBy_cases :
    let outcome := (mntBy.authenticate u c).under answers
    (answers.governing u = none ∧ ∃ m, outcome = .error (.because m)) ∨
    ∃ governing, answers.governing u = some governing ∧
      (governing.maintainers = [] ∧ outcome = .ok [] ∨
        governing.maintainers ≠ [] ∧ outcome = (authenticateBy u governing
          Record.mntBy.spelling governing.maintainers).under answers) := by
  intro outcome
  have judged : outcome = (judgeByMaintainers u (answers.governing u)).under answers := by
    change (governingRecord u >>= judgeByMaintainers u).under answers = _
    rw [Consult.under_bind, under_governingRecord]
  rw [judged]
  cases answers.governing u with
  | none => exact .inl ⟨rfl, _, rfl⟩
  | some governing =>
    refine .inr ⟨governing, rfl, ?_⟩
    rw [judgeByMaintainers]
    by_cases nobody : governing.maintainers = []
    · exact .inl ⟨nobody, by rw [if_pos (List.isEmpty_iff.mpr nobody)]; rfl⟩
    · exact .inr ⟨nobody, by rw [if_neg (by rwa [List.isEmpty_iff])]⟩

/-- The strategy of a route's origin refuses without an origin or without its autonomous system, and
otherwise leaves it to the maintainers that the autonomous system names. -/
theorem routeOrigin_cases :
    let outcome := (routeOrigin.authenticate u c).under answers
    ((∀ origin, u.record.originHandle = some origin → answers.stored .autNum origin = none) ∧
      ∃ m, outcome = .error (.because m)) ∨
    ∃ origin autNum, u.record.originHandle = some origin ∧
      answers.stored .autNum origin = some autNum ∧
      outcome = (authenticateBy u autNum Record.mntBy.spelling autNum.maintainers).under
        answers := by
  intro outcome
  have judged : outcome = (judgeByOrigin u u.record.originHandle).under answers := rfl
  rw [judged]
  cases u.record.originHandle with
  | none => exact .inl ⟨nofun, _, rfl⟩
  | some origin =>
    rw [judgeByOrigin, Consult.under_bind, Consult.under_stored]
    cases stored : answers.stored .autNum origin with
    | none => exact .inl ⟨fun _ same => by cases same; exact stored, _, rfl⟩
    | some autNum => exact .inr ⟨origin, autNum, rfl, stored, rfl⟩

/-- The strategy of a record's maintainers passes an update when its governing version names none
or one of them vouches. -/
theorem isOk_mntBy :
    ((mntBy.authenticate u c).under answers).isOk = true ↔
      ∃ r, answers.governing u = some r ∧
        (r.maintainers = [] ∨ answers.Vouched u r.maintainers) := by
  obtain ⟨missing, m, refused⟩ | ⟨r, found, ⟨nobody, passed⟩ | ⟨named, left⟩⟩ :=
    mntBy_cases answers u c
  · rw [refused, missing]
    exact ⟨nofun, nofun⟩
  · rw [passed]
    exact ⟨fun _ => ⟨r, found, .inl nobody⟩, fun _ => rfl⟩
  · rw [left, isOk_authenticateBy]
    simp [found, named]

/-- The strategy of a record's maintainers returns those that the governing version names and that
vouch. -/
theorem returns_mntBy (r : Record) :
    Outcome.Returns ((mntBy.authenticate u c).under answers) r ↔
      ∃ governing, answers.governing u = some governing ∧
        ∃ name ∈ governing.maintainers, answers.maintainer u name = some r ∧
          r.vouchesFor u = true := by
  obtain ⟨missing, m, refused⟩ | ⟨governing, found, ⟨nobody, passed⟩ | ⟨named, left⟩⟩ :=
    mntBy_cases answers u c
  · rw [refused, missing]
    exact ⟨nofun, nofun⟩
  · rw [passed]
    simp [Outcome.Returns, found, nobody]
  · rw [left, returns_authenticateBy]
    simp [found]

/-- The strategy of a record's maintainers says why it does not pass an update. -/
theorem explained_mntBy : Outcome.Explained ((mntBy.authenticate u c).under answers) := by
  obtain ⟨-, m, refused⟩ | ⟨r, -, ⟨-, passed⟩ | ⟨-, left⟩⟩ := mntBy_cases answers u c
  · rw [refused]
    exact explained_because m
  · rw [passed]
    exact nofun
  · rw [left]
    exact explained_authenticateBy answers u _ _ _

/-- The strategy of a route's origin passes an update when the autonomous system is stored and a
maintainer of it vouches. -/
theorem isOk_routeOrigin :
    ((routeOrigin.authenticate u c).under answers).isOk = true ↔
      ∃ origin autNum, u.record.originHandle = some origin ∧
        answers.stored .autNum origin = some autNum ∧ answers.Vouched u autNum.maintainers := by
  obtain ⟨missing, m, refused⟩ | ⟨origin, autNum, starts, stored, left⟩ :=
    routeOrigin_cases answers u c
  · rw [refused]
    refine ⟨nofun, ?_⟩
    rintro ⟨origin, autNum, starts, stored, -⟩
    cases (missing origin starts).symm.trans stored
  · rw [left, isOk_authenticateBy]
    simp [starts, stored]

/-- The strategy of a route's origin returns the maintainers that the autonomous system names and
that vouch. -/
theorem returns_routeOrigin (r : Record) :
    Outcome.Returns ((routeOrigin.authenticate u c).under answers) r ↔
      ∃ origin autNum, u.record.originHandle = some origin ∧
        answers.stored .autNum origin = some autNum ∧
        ∃ name ∈ autNum.maintainers, answers.maintainer u name = some r ∧
          r.vouchesFor u = true := by
  obtain ⟨missing, m, refused⟩ | ⟨origin, autNum, starts, stored, left⟩ :=
    routeOrigin_cases answers u c
  · rw [refused]
    refine ⟨nofun, ?_⟩
    rintro ⟨origin, autNum, starts, stored, -⟩
    cases (missing origin starts).symm.trans stored
  · rw [left, returns_authenticateBy]
    simp [starts, stored]

/-- The strategy of a route's origin says why it does not pass an update. -/
theorem explained_routeOrigin :
    Outcome.Explained ((routeOrigin.authenticate u c).under answers) := by
  obtain ⟨-, m, refused⟩ | ⟨origin, autNum, -, -, left⟩ := routeOrigin_cases answers u c
  · rw [refused]
    exact explained_because m
  · rw [left]
    exact explained_authenticateBy answers u _ _ _

end Strategy

end RegistryConsent
