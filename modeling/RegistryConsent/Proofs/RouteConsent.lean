import RegistryConsent.Proofs.Consent
import RegistryConsent.Proofs.Verdict

/-!
# The two parties of a route

A new route needs the consent of a maintainer that it names and of a maintainer of the autonomous
system it starts from. With both it succeeds unless a principal is conferred from outside the
trusted network, with one of them it waits for the other, and with none it has failed.
-/

namespace RegistryConsent

/-- A route is created that names its maintainers and the autonomous system it starts from. -/
structure Update.CreatesRoute (u : Update) (origin : Handle) : Prop where
  action : u.action = .create
  objectType : u.objectType = .route ∨ u.objectType = .route6
  maintainers : u.record.maintainers ≠ []
  origin : u.record.originHandle = some origin

namespace Answers

variable (answers : Answers) (u : Update)

/-- Some maintainer of a list of names is stored and vouches for the update. -/
def Consent (names : List Handle) : Prop :=
  ∃ name ∈ names, ∃ r, answers.stored .mntner name = some r ∧ r.vouchesFor u = true

/-- The autonomous system of a name is stored, and some maintainer that it names is stored and
vouches for the update. -/
def OriginConsent (origin : Handle) : Prop :=
  ∃ autNum, answers.stored .autNum origin = some autNum ∧ answers.Consent u autNum.maintainers

/-- An update that creates no maintainer is vouched for by stored maintainers only. -/
theorem vouched_iff_consent (h : u.objectType ≠ .mntner) (names : List Handle) :
    answers.Vouched u names ↔ answers.Consent u names := by
  have stored : ∀ name, answers.maintainer u name = answers.stored .mntner name := by
    intro name
    rw [maintainer, if_neg]
    simp [Update.createsMaintainer, h]
  simp only [Vouched, Consent, stored]

end Answers

namespace Update.CreatesRoute

variable {u : Update} {origin : Handle} (h : u.CreatesRoute origin)
  (answers : Answers) (c : Context)

include h

/-- A route is no maintainer. -/
theorem ne_mntner : u.objectType ≠ .mntner := by
  rcases h.objectType with ht | ht <;> rw [ht] <;> nofun

/-- The maintainers of a new route are asked. -/
theorem supports_mntBy : Strategy.mntBy.supports u = true := by
  simp [Strategy.mntBy, h.maintainers]

/-- The origin of a new route is asked. -/
theorem supports_routeOrigin : Strategy.routeOrigin.supports u = true := by
  rcases h.objectType with ht | ht <;> simp [Strategy.routeOrigin, h.action, ht, h.origin]

/-- The maintainers that a new route names pass it by their consent. -/
theorem isOk_mntBy_iff :
    ((Strategy.mntBy.authenticate u c).under answers).isOk = true ↔
      answers.Consent u u.record.maintainers := by
  rw [Strategy.isOk_mntBy, Answers.governing, if_pos h.action]
  simp [h.maintainers, Answers.vouched_iff_consent answers u h.ne_mntner]

/-- The maintainers of the origin of a new route pass it by their consent. -/
theorem isOk_routeOrigin_iff :
    ((Strategy.routeOrigin.authenticate u c).under answers).isOk = true ↔
      answers.OriginConsent u origin := by
  rw [Strategy.isOk_routeOrigin, h.origin]
  simp [Answers.OriginConsent, Answers.vouched_iff_consent answers u h.ne_mntner]

/-- Either party of a new route may be waited for. -/
theorem mem_declaring {strategies : List Strategy}
    (hs : strategies = [.mntBy, .routeOrigin] ∨ strategies = [.routeOrigin, .mntBy])
    (name : String) :
    name ∈ Deferral.declaring strategies u.objectType ↔
      name = Strategy.mntBy.name ∨ name = Strategy.routeOrigin.name := by
  rcases h.objectType with ht | ht <;> rw [ht] <;> rcases hs with rfl | rfl <;>
    simp [Deferral.declaring, Strategy.mntBy, Strategy.routeOrigin, or_comm]

end Update.CreatesRoute

/-- An answer whose refusal is explained has a message unless it passes. -/
theorem Answer.messages_eq_nil_iff_passed (answer : Answer) (h : answer.outcome.Explained) :
    answer.messages = [] ↔ answer.passed = true := by
  rw [messages_eq_nil_iff, passed]
  cases hanswer : answer.outcome with
  | ok records => simp [Except.isOk, Except.toBool]
  | error refusal =>
    have said : refusal.messages ≠ [] := h refusal hanswer
    simp [Except.isOk, Except.toBool, said]

namespace Authority

section Parties

variable (a : Authority) (o : Origin) {u : Update} {origin : Handle} (h : u.CreatesRoute origin)
  (hs : a.strategies = [.mntBy, .routeOrigin] ∨ a.strategies = [.routeOrigin, .mntBy])
  (answers : Answers) (c : Context)

include h hs

/-- A new route is judged by its two parties. -/
theorem mem_answers_of_createsRoute (answer : Answer) :
    answer ∈ (a.answers u c).under answers ↔
      answer = ⟨Strategy.mntBy.name, (Strategy.mntBy.authenticate u c).under answers⟩ ∨
      answer = ⟨Strategy.routeOrigin.name,
        (Strategy.routeOrigin.authenticate u c).under answers⟩ := by
  rw [under_answers]
  rcases hs with hs | hs <;> rw [hs] <;>
    simp [h.supports_mntBy, h.supports_routeOrigin, or_comm]

/-- The parties that pass a new route are those that consent. -/
theorem mem_passed_of_createsRoute (name : String) :
    name ∈ (a.subjectOf u ((a.answers u c).under answers)).passed.toList ↔
      name = Strategy.mntBy.name ∧ answers.Consent u u.record.maintainers ∨
      name = Strategy.routeOrigin.name ∧ answers.OriginConsent u origin := by
  rw [mem_passed_subjectOf, ← h.isOk_mntBy_iff answers c, ← h.isOk_routeOrigin_iff answers c]
  simp only [mem_answers_of_createsRoute a h hs answers c, Answer.passed]
  constructor
  · rintro ⟨answer, rfl | rfl, hpassed, rfl⟩
    · exact .inl ⟨rfl, hpassed⟩
    · exact .inr ⟨rfl, hpassed⟩
  · rintro (⟨rfl, hpassed⟩ | ⟨rfl, hpassed⟩)
    · exact ⟨_, .inl rfl, hpassed, rfl⟩
    · exact ⟨_, .inr rfl, hpassed, rfl⟩

/-- The parties that fail a new route are those that do not consent. -/
theorem mem_failed_of_createsRoute (name : String) :
    name ∈ (a.subjectOf u ((a.answers u c).under answers)).failed.toList ↔
      name = Strategy.mntBy.name ∧ ¬answers.Consent u u.record.maintainers ∨
      name = Strategy.routeOrigin.name ∧ ¬answers.OriginConsent u origin := by
  rw [mem_failed_subjectOf, ← h.isOk_mntBy_iff answers c, ← h.isOk_routeOrigin_iff answers c]
  simp only [mem_answers_of_createsRoute a h hs answers c, Answer.passed, Bool.not_eq_true]
  constructor
  · rintro ⟨answer, rfl | rfl, hfailed, rfl⟩
    · exact .inl ⟨rfl, hfailed⟩
    · exact .inr ⟨rfl, hfailed⟩
  · rintro (⟨rfl, hfailed⟩ | ⟨rfl, hfailed⟩)
    · exact ⟨_, .inl rfl, hfailed, rfl⟩
    · exact ⟨_, .inr rfl, hfailed, rfl⟩

/-- Nothing speaks against a new route exactly when both parties consent and no principal is
conferred from outside the trusted network. -/
theorem reasons_eq_nil_iff_of_createsRoute (subject : Subject) :
    a.reasons o ((a.answers u c).under answers) subject = [] ↔
      answers.Consent u u.record.maintainers ∧ answers.OriginConsent u origin ∧
        a.violatesRestriction o subject = false := by
  have mntBy := Answer.messages_eq_nil_iff_passed ⟨Strategy.mntBy.name, _⟩
    (Strategy.explained_mntBy answers u c)
  have routeOrigin := Answer.messages_eq_nil_iff_passed ⟨Strategy.routeOrigin.name, _⟩
    (Strategy.explained_routeOrigin answers u c)
  rw [reasons_eq_nil_iff, ← h.isOk_mntBy_iff answers c, ← h.isOk_routeOrigin_iff answers c]
  simp only [mem_answers_of_createsRoute a h hs answers c, forall_eq_or_imp, forall_eq, mntBy,
    routeOrigin, Answer.passed, and_assoc]

/-- A new route with one consenting party may wait, and with none it may not. -/
theorem mayWait_iff_of_createsRoute (hc : c.hasErrors = false) :
    a.MayWait u c (a.subjectOf u ((a.answers u c).under answers)) ↔
      answers.Consent u u.record.maintainers ∨ answers.OriginConsent u origin := by
  have declared := h.mem_declaring hs
  simp only [MayWait, mem_passed_of_createsRoute a h hs, mem_failed_of_createsRoute a h hs,
    declared]
  constructor
  · rintro ⟨-, -, -, name, ⟨-, hn⟩ | ⟨-, hn⟩, -⟩
    · exact .inl hn
    · exact .inr hn
  · intro hparty
    refine ⟨hc, h.action, ?_, ?_⟩
    · rintro name (⟨hname, -⟩ | ⟨hname, -⟩)
      · exact .inl hname
      · exact .inr hname
    · rcases hparty with hp | hp
      · exact ⟨_, .inl ⟨rfl, hp⟩, .inl rfl⟩
      · exact ⟨_, .inr ⟨rfl, hp⟩, .inr rfl⟩

/-- The judgement of a new route that is recorded in a fresh context. -/
theorem status_concludeFrom_of_createsRoute :
    let answered := (a.answers u (.fresh u)).under answers
    let e := (a.concludeFrom o u (.fresh u) answered).recordIn (.fresh u)
    let own := answers.Consent u u.record.maintainers
    let other := answers.OriginConsent u origin
    let accepted := own ∧ other ∧ a.violatesRestriction o e.subject = false
    (accepted → e.context.status = .success) ∧
    (¬accepted → own ∨ other → e.context.status = .pendingAuthentication) ∧
    (¬own → ¬other → e.context.status = .failedAuthentication) := by
  intro answered e own other accepted
  have accepts : a.reasons o answered (a.subjectOf u answered) = [] ↔ accepted :=
    reasons_eq_nil_iff_of_createsRoute a o h hs answers (.fresh u) _
  have waits : a.deferral.isPending u (.fresh u) (a.subjectOf u answered) = true ↔ own ∨ other :=
    (isPending_deferral_iff a u _ _).trans (mayWait_iff_of_createsRoute a h hs answers _ rfl)
  have rejected := fun hr => status_concludeFrom_of_ne_nil a o u (.fresh u) (mt accepts.mp hr)
  refine ⟨?_, ?_, ?_⟩
  · intro ha
    exact status_concludeFrom_of_nil a o u (.fresh u) (accepts.mpr ha)
  · intro hr hparty
    exact (rejected hr).trans (if_pos (waits.mpr hparty))
  · intro hown hother
    have hr : ¬accepted := fun ha => hown ha.1
    exact (rejected hr).trans (if_neg fun hw => (waits.mp hw).elim hown hother)

/-- A new route succeeds when both of its parties consent and no principal is conferred from outside
the trusted network. With the consent of one party it waits, and with none it has failed. Each party
passes it by its consent and fails it without. -/
theorem status_of_consent (ho : o.channel ≠ .internal) (hu : u.isOverride = false)
    (hp : u.credentials.passwords.length ≤ a.maxPasswords) :
    let e := (a.authenticate o u (.fresh u)).under answers
    let own := answers.Consent u u.record.maintainers
    let other := answers.OriginConsent u origin
    (e.context.status = .success ↔ own ∧ other ∧ a.violatesRestriction o e.subject = false) ∧
    (¬(own ↔ other) → e.context.status = .pendingAuthentication) ∧
    (¬own → ¬other → e.context.status = .failedAuthentication) ∧
    (Strategy.mntBy.name ∈ e.subject.passed.toList ↔ own) ∧
    (Strategy.mntBy.name ∈ e.subject.failed.toList ↔ ¬own) ∧
    (Strategy.routeOrigin.name ∈ e.subject.passed.toList ↔ other) ∧
    (Strategy.routeOrigin.name ∈ e.subject.failed.toList ↔ ¬other) := by
  intro e own other
  have he : e = (a.concludeFrom o u (.fresh u)
      ((a.answers u (.fresh u)).under answers)).recordIn (.fresh u) :=
    under_authenticate_of_le a o u (.fresh u) answers ho hu hp
  obtain ⟨success, waits, fails⟩ := status_concludeFrom_of_createsRoute a o h hs answers
  rw [← he] at success waits fails
  refine ⟨⟨?_, success⟩, ?_, fails, ?_⟩
  · intro hsuccess
    apply Classical.byContradiction
    intro hr
    by_cases hparty : own ∨ other
    · rw [waits hr hparty] at hsuccess
      cases hsuccess
    · rw [fails (hparty <| .inl ·) (hparty <| .inr ·)] at hsuccess
      cases hsuccess
  · intro hone
    refine waits (fun hr => hone ⟨fun _ => hr.2.1, fun _ => hr.1⟩) ?_
    apply Classical.byContradiction
    intro hn
    exact hone ⟨fun hown => absurd (.inl hown) hn, fun hother => absurd (.inr hother) hn⟩
  · have subject : e.subject = a.subjectOf u ((a.answers u (.fresh u)).under answers) := by
      rw [he]
      rfl
    have distinct : Strategy.mntBy.name ≠ Strategy.routeOrigin.name := by decide
    rw [subject]
    simp only [mem_passed_of_createsRoute a h hs, mem_failed_of_createsRoute a h hs,
      distinct, distinct.symm, true_and, false_and, or_false, false_or]
    exact ⟨.rfl, .rfl, .rfl, .rfl⟩

end Parties

/-- A new route with the password of its own maintainer. -/
private def ownRoute : Update :=
  .prepare ⟨1⟩ .create (Trial.route "192.0.2.0/24" "AS65000" "OWN-MNT")
    [.credential (.password "secret")]

/-- The answers of a store with the maintainers of a route and of its origin. -/
private def partyAnswers : Answers :=
  let line := "BLAKE3-PW $00000000000000000000000000000000$" ++
    "ea8b5fff7a30254cca765db6fd15e8001aaaa8c7fa07819cba69414526f4518d"
  (((MemoryStore.empty.putRecord (Trial.maintainer "OWN-MNT" line)).putRecord
    (Trial.maintainer "AS-MNT" "NONE")).putRecord (Trial.autNum "AS65000" "AS-MNT")).answers

/-- The authority of the standard strategies without registry maintainers. -/
private def standing : Authority where
  strategies := Trial.standardStrategies
  distinct := Trial.nodup_standardStrategies
  registry := ⟨[]⟩
  trusts := Range.trusts []
  maxPasswords := 20
  restricted := true

/-- A route waits for its origin with the password of its own maintainer. -/
theorem waits_for_origin :
    let e := (standing.authenticate Trial.trustedOrigin ownRoute (.fresh ownRoute)).under
      partyAnswers
    make {} Trial.standardStrategies = .ok standing ∧
      e.context.status = .pendingAuthentication ∧
      Strategy.mntBy.name ∈ e.subject.passed.toList ∧
      Strategy.routeOrigin.name ∈ e.subject.failed.toList := by
  have created : ownRoute.CreatesRoute ⟨"AS65000"⟩ := ⟨rfl, .inl rfl, by decide, rfl⟩
  have own : partyAnswers.Consent ownRoute ownRoute.record.maintainers :=
    ⟨⟨"OWN-MNT"⟩, List.mem_singleton_self _, _, rfl, by decide +kernel⟩
  have other : ¬partyAnswers.OriginConsent ownRoute ⟨"AS65000"⟩ := by
    rintro ⟨autNum, stored, name, hname, r, found, vouches⟩
    obtain rfl : Trial.autNum "AS65000" "AS-MNT" = autNum := Option.some.inj stored
    obtain rfl : name = ⟨"AS-MNT"⟩ := List.mem_singleton.mp hname
    obtain rfl : Trial.maintainer "AS-MNT" "NONE" = r := Option.some.inj found
    have silent : (Trial.maintainer "AS-MNT" "NONE").vouchesFor ownRoute = false := by decide
    rw [silent] at vouches
    cases vouches
  obtain ⟨-, waits, -, passed, -, -, failed⟩ := status_of_consent standing Trial.trustedOrigin
    created (.inl rfl) partyAnswers nofun rfl (by decide)
  exact ⟨rfl, waits fun h => other (h.mp own), passed.mpr own, failed.mpr other⟩

end Authority

end RegistryConsent
