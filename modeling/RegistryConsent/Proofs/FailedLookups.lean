import RegistryConsent.Proofs.Consent
import RegistryConsent.Proofs.Override
import RegistryConsent.Proofs.Verdict
import RegistryConsent.Store.Faulty

/-!
# Look-ups that fail

A look-up that fails counts as one that finds nothing. With the standard strategies a source that
fails now and then leads to the same questions and the same evaluation as one that has no entry in
these places: all that is named is asked for in any case, and what a failure takes away is no more
than the maintainer or the login that the look-up was for.
-/

namespace RegistryConsent

/-- The source that knows no user and has no object where another one fails. -/
def Source.withoutErrors {σ : Type} (source : Source σ) : Source σ where
  user name s :=
    ((source.user name s).1.mapError fun _ => .unknownUser name, (source.user name s).2)
  object t key s := (.ok (source.object t key s).1.toOption.join, (source.object t key s).2)

namespace Consult

variable {α β σ : Type}

/-- A consultation goes on after a look-up that fails as after one that finds nothing. -/
inductive Tolerant : Consult α → Prop
  | done (a : α) : Tolerant (.done a)
  | user {name : String} {next : UserAnswer → Consult α}
      (failed : ∀ e, next (.error e) = next (.error (.unknownUser name)))
      (rest : ∀ answer, Tolerant (next answer)) : Tolerant (.user name next)
  | object {t : ObjectType} {key : Handle} {next : ObjectAnswer → Consult α}
      (failed : ∀ e, next (.error e) = next (.ok none))
      (rest : ∀ answer, Tolerant (next answer)) : Tolerant (.object t key next)

/-- A result that is there needs no look-up. -/
theorem tolerant_pure (a : α) : Tolerant (pure a : Consult α) := .done a

/-- Two tolerant parts make up a tolerant whole. -/
theorem Tolerant.bind {c : Consult α} {f : α → Consult β} (hc : c.Tolerant)
    (hf : ∀ a, (f a).Tolerant) : (c >>= f).Tolerant := by
  show (c.bind f).Tolerant
  induction hc with
  | done a => exact hf a
  | user failed rest ih => exact .user (fun e => congrArg (·.bind f) (failed e)) ih
  | object failed rest ih => exact .object (fun e => congrArg (·.bind f) (failed e)) ih

/-- Tolerant parts for the elements of a list make up a tolerant whole. -/
theorem tolerant_mapM {f : α → Consult β} {xs : List α} (h : ∀ x ∈ xs, (f x).Tolerant) :
    (xs.mapM f).Tolerant := by
  induction xs with
  | nil => exact tolerant_pure []
  | cons x xs ih =>
    rw [List.mapM_cons]
    apply (h x List.mem_cons_self).bind
    intro y
    apply (ih fun z hz => h z (List.mem_cons_of_mem x hz)).bind
    intro ys
    exact tolerant_pure (y :: ys)

/-- The look-up of what is stored takes a failure for an empty place. -/
theorem tolerant_stored (t : ObjectType) (key : Handle) : (stored t key).Tolerant := by
  apply Tolerant.object
  · intro e
    rfl
  · intro answer
    cases answer with
    | ok found => exact .done found
    | error e => exact .done none

/-- A look-up of a user is tolerant when what follows takes a failure for an unknown user. -/
theorem tolerant_askUser_bind {name : String} {f : UserAnswer → Consult α}
    (failed : ∀ e, f (.error e) = f (.error (.unknownUser name)))
    (rest : ∀ answer, (f answer).Tolerant) : (askUser name >>= f).Tolerant :=
  .user failed rest

/-- When failures are replaced by empty places, a tolerant consultation comes to the same result,
leaves the source in the same state and asks the same questions. -/
theorem Tolerant.withoutErrors_eq {c : Consult α} (h : c.Tolerant) (source : Source σ) (s : σ) :
    c.run source.withoutErrors s = c.run source s ∧
      c.questions source.withoutErrors s = c.questions source s := by
  induction h generalizing s with
  | done a => exact ⟨rfl, rfl⟩
  | @user name next failed rest ih =>
    have same : next (source.withoutErrors.user name s).1 = next (source.user name s).1 := by
      simp only [Source.withoutErrors]
      cases (source.user name s).1 with
      | ok user => rfl
      | error e => exact (failed e).symm
    obtain ⟨result, asked⟩ := ih (source.user name s).1 (source.user name s).2
    rw [run, questions, same]
    exact ⟨result, congrArg (Question.user name :: ·) asked⟩
  | @object t key next failed rest ih =>
    have same : next (source.withoutErrors.object t key s).1 = next (source.object t key s).1 := by
      simp only [Source.withoutErrors]
      cases (source.object t key s).1 with
      | ok found => rfl
      | error e => exact (failed e).symm
    obtain ⟨result, asked⟩ := ih (source.object t key s).1 (source.object t key s).2
    rw [run, questions, same]
    exact ⟨result, congrArg (Question.object t key :: ·) asked⟩

end Consult

/-- The maintainers of some names, each with what a source answers when they are looked up one after
the other. The one that the update creates is the submitted record, without a look-up. -/
def Source.maintainers {σ : Type} (source : Source σ) (u : Update) :
    List Handle → σ → List (Handle × ObjectAnswer)
  | [], _ => []
  | name :: rest, s =>
    if u.createsMaintainer name then (name, .ok (some u.record)) :: maintainers source u rest s
    else (name, (source.object .mntner name s).1) ::
      maintainers source u rest (source.object .mntner name s).2

/-- The maintainer of an answer if it vouches for an update; none when the look-up has failed. -/
def Update.voucher (u : Update) : Handle × ObjectAnswer → Option Record
  | (_, .ok found) => found.filter (·.vouchesFor u)
  | (_, .error _) => none

open Consult

section Maintainers

variable {σ : Type} (source : Source σ) (u : Update)

/-- The maintainers that vouch are those that are found for the names and vouch, in order. Where a
look-up has failed nothing but its own maintainer is missing. -/
theorem run_vouchers (names : List Handle) (s : σ) :
    ((vouchers u names).run source s).1 = (source.maintainers u names s).filterMap u.voucher := by
  induction names generalizing s with
  | nil => rfl
  | cons name rest ih =>
    rw [vouchers, run_bind_eq, run_bind_eq, run_pure, ih, maintainerNamed, Source.maintainers]
    split
    · rw [run_pure, List.filterMap_cons, Update.voucher]
      cases (some u.record).filter (·.vouchesFor u) <;> rfl
    · rw [run_stored, List.filterMap_cons]
      cases (source.object .mntner name s).1 with
      | error e => rfl
      | ok found =>
        rw [Update.voucher]
        show (found.filter _).toList ++ _ = _
        cases found.filter (·.vouchesFor u) <;> rfl

/-- The look-up of a maintainer is tolerant. -/
theorem tolerant_maintainerNamed (name : Handle) : (maintainerNamed u name).Tolerant := by
  unfold maintainerNamed
  split
  · exact tolerant_pure _
  · exact tolerant_stored _ _

/-- The search for maintainers that vouch is tolerant. -/
theorem tolerant_vouchers (names : List Handle) : (vouchers u names).Tolerant := by
  induction names with
  | nil => exact tolerant_pure []
  | cons name rest ih =>
    apply (tolerant_maintainerNamed u name).bind
    intro found
    apply ih.bind
    intro others
    exact tolerant_pure _

/-- The judgement of maintainers is tolerant. -/
theorem tolerant_authenticateBy (target : Record) (attr : String) (names : List Handle) :
    (authenticateBy u target attr names).Tolerant := by
  apply (tolerant_vouchers u names).bind
  intro found
  split <;> exact tolerant_pure _

/-- The strategy of a record's maintainers is tolerant. -/
theorem Strategy.tolerant_mntBy (c : Context) : (mntBy.authenticate u c).Tolerant := by
  show (governingRecord u >>= judgeByMaintainers u).Tolerant
  apply Tolerant.bind
  · unfold governingRecord
    split
    · exact tolerant_pure _
    · exact tolerant_stored _ _
  · intro found
    unfold judgeByMaintainers
    split
    · exact tolerant_pure _
    · split
      · exact tolerant_pure _
      · exact tolerant_authenticateBy u _ _ _

/-- The strategy of a route's origin is tolerant. -/
theorem Strategy.tolerant_routeOrigin (c : Context) : (routeOrigin.authenticate u c).Tolerant := by
  show (judgeByOrigin u u.record.originHandle).Tolerant
  unfold judgeByOrigin
  split
  · exact tolerant_pure _
  · apply (tolerant_stored _ _).bind
    intro found
    split
    · exact tolerant_pure _
    · exact tolerant_authenticateBy u _ _ _

end Maintainers

namespace Authority

variable (a : Authority) (o : Origin) (u : Update) (c : Context)

/-- Logins are tried tolerantly. -/
theorem tolerant_tryLogins (logins : List Login) : (tryLogins u logins).Tolerant := by
  induction logins with
  | nil => exact tolerant_pure false
  | cons login rest ih =>
    rw [tryLogins_cons]
    apply tolerant_askUser_bind
    · intro e
      rfl
    · intro answer
      split
      · exact tolerant_pure true
      · exact ih

/-- A request for override is decided tolerantly. -/
theorem tolerant_override : (a.override o u).Tolerant := by
  simp only [override]
  split
  · apply (tolerant_tryLogins u _).bind
    intro accepted
    split <;> exact tolerant_pure _
  · exact tolerant_pure _

/-- With tolerant strategies an update is judged tolerantly. -/
theorem tolerant_judge (hs : ∀ strategy ∈ a.strategies, (strategy.authenticate u c).Tolerant) :
    (a.judge o u c).Tolerant := by
  unfold judge
  split
  · exact tolerant_pure _
  · have answered : (a.answers u c).Tolerant := by
      apply tolerant_mapM
      intro strategy hmem
      apply (hs strategy (List.mem_filter.mp hmem).1).bind
      intro outcome
      exact tolerant_pure _
    apply answered.bind
    intro said
    exact tolerant_pure _

/-- With tolerant strategies an update is evaluated tolerantly. -/
theorem tolerant_authenticate
    (hs : ∀ strategy ∈ a.strategies, (strategy.authenticate u c).Tolerant) :
    (a.authenticate o u c).Tolerant := by
  have decided : (a.decide o u c).Tolerant := by
    unfold decide
    split
    · exact tolerant_pure _
    · split
      · exact tolerant_override a o u
      · exact tolerant_judge a o u c hs
  apply decided.bind
  intro ruling
  exact tolerant_pure _

/-- With the standard strategies, a look-up that fails is as good as one that finds nothing: the
same questions are asked, the source ends in the same state, and the evaluation with its subject,
its messages and its context is the same. No failure ends an evaluation: every strategy that
supports the update is asked, and every maintainer that a strategy asks about is looked up. Those
that are found and vouch are returned, and a login is accepted when one of the attempts is admitted;
a failure takes away the one maintainer or login that it concerns. -/
theorem authenticate_withoutErrors {σ : Type} (a : Authority)
    (hs : ∀ strategy ∈ a.strategies, strategy = .mntBy ∨ strategy = .routeOrigin)
    (o : Origin) (u : Update) (c : Context) (source : Source σ) (s : σ) :
    (a.authenticate o u c).run source.withoutErrors s = (a.authenticate o u c).run source s ∧
    (a.authenticate o u c).questions source.withoutErrors s =
      (a.authenticate o u c).questions source s ∧
    (o.channel ≠ .internal → u.isOverride = false →
      u.credentials.passwords.length ≤ a.maxPasswords →
        ((a.authenticate o u c).run source s).1.asked =
          (a.strategies.filter (·.supports u)).map (·.name)) ∧
    (∀ names t, ((vouchers u names).run source t).1 =
        (source.maintainers u names t).filterMap u.voucher ∧
      (vouchers u names).questions source t =
        (names.filter (!u.createsMaintainer ·)).map (.object .mntner ·)) ∧
    (∀ logins t, ((tryLogins u logins).run source t).1 =
        (source.attempts logins t).any (admits u.objectType) ∧
      (tryLogins u logins).questions source t =
        (logins.take ((source.attempts logins t).findIdx (admits u.objectType) + 1)).map
          fun login => .user login.username) := by
  have tolerant : (a.authenticate o u c).Tolerant := by
    apply tolerant_authenticate
    intro strategy hmem
    rcases hs strategy hmem with rfl | rfl
    · exact Strategy.tolerant_mntBy u c
    · exact Strategy.tolerant_routeOrigin u c
  obtain ⟨result, asked⟩ := tolerant.withoutErrors_eq source s
  refine ⟨result, asked, fun ho hu few => ?_, fun names t => ?_, fun logins t => ?_⟩
  · rw [run_authenticate, decide_of_not_isOverride a o u c ho hu]
    show ((a.judge o u c).run source s).1.asked = _
    rw [run_judge_of_le a o u c source s few]
    exact strategy_answers a u c source s
  · exact ⟨run_vouchers source u names t, questions_vouchers u source names t⟩
  · exact ⟨run_tryLogins u logins source t, questions_tryLogins u logins source t⟩

/-- A route that names two maintainers. -/
private def lostRoute : Update :=
  .start ⟨1⟩ .create (Trial.route "192.0.2.0/24" "AS65000" "FIRST-MNT, SECOND-MNT")

/-- A store that cannot be reached. -/
private def lostStore : FaultyStore := ⟨.empty, .always⟩

/-- The authority of the standard strategies. -/
private def patient : Authority where
  strategies := Trial.standardStrategies
  distinct := Trial.nodup_standardStrategies
  registry := ⟨[]⟩
  trusts := Range.trusts []
  maxPasswords := 20
  restricted := true

/-- When no look-up is answered, both maintainers of a route and its origin are looked up all the
same, and the route is refused as if none of them were there. -/
theorem refused_as_if_empty :
    let evaluation := patient.authenticate Trial.trustedOrigin lostRoute (.fresh lostRoute)
    let e := (evaluation.run FaultyStore.source.withoutErrors lostStore).1
    evaluation.questions FaultyStore.source.withoutErrors lostStore =
        [.object .mntner ⟨"FIRST-MNT"⟩, .object .mntner ⟨"SECOND-MNT"⟩,
          .object .autNum ⟨"AS65000"⟩] ∧
      e = (evaluation.run FaultyStore.source lostStore).1 ∧
      e.asked = [Strategy.mntBy.name, Strategy.routeOrigin.name] ∧
      e.context.status = .failedAuthentication ∧
      e.context.messages = [
        .notAuthenticated lostRoute.record "mnt-by" [⟨"FIRST-MNT"⟩, ⟨"SECOND-MNT"⟩],
        .referenceMissing "aut-num" "AS65000"] := by
  intro evaluation e
  obtain ⟨result, questions, asked, -, -⟩ := authenticate_withoutErrors patient
    (by simp [patient, Trial.standardStrategies]) Trial.trustedOrigin lostRoute (.fresh lostRoute)
    FaultyStore.source lostStore
  have same : e = (evaluation.run FaultyStore.source lostStore).1 := congrArg Prod.fst result
  refine ⟨questions.trans rfl, same, ?_, ?_, ?_⟩
  · rw [same, asked nofun rfl (by decide)]
    rfl
  · rw [same]
    rfl
  · rw [same]
    rfl

end Authority

end RegistryConsent
