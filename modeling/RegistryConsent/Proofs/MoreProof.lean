import RegistryConsent.Proofs.Aggregation
import RegistryConsent.Proofs.PasswordHash
import RegistryConsent.Proofs.RouteConsent
import RegistryConsent.Proofs.Supplement

/-!
# More proof never hurts

When an update comes with more proof, the strategies that passed it pass it still, no other strategy
fails it, and the principals stay conferred. As long as the restriction to the trusted network has
nothing to say, no reason against it is added either. So what two parties submit separately, each
waiting for the other, is accepted when it is submitted together. The restriction has to be out of
the way because more proof may confer a principal that is out of place. The order of the proof does
not matter.
-/

namespace RegistryConsent.Authority

variable (a : Authority) (o : Origin) {u v : Update} (c : Context) (answers : Answers)

/-- Nothing that an authority confers is out of place for an origin: it does not ask for its
trusted network, or the origin lies inside. -/
def Unrestricted : Prop :=
  a.restricted = false ∨ o.channel ≠ .email ∧ a.trusts o.sender = true

variable {a o} in
/-- Where nothing is out of place the refusals are the reasons. -/
theorem Unrestricted.reasons_eq (free : a.Unrestricted o) (said : List Answer) (s : Subject) :
    a.reasons o said s = (said.flatMap (·.messages)).eraseDups := by
  have unviolated : a.violatesRestriction o s = false := by
    rw [Bool.eq_false_iff, ne_eq, violatesRestriction_iff]
    rintro ⟨-, restricted, outside⟩
    rcases free with off | ⟨personal, trusted⟩
    · rw [off] at restricted
      cases restricted
    · rcases outside with mail | untrusted
      · exact personal mail
      · rw [untrusted] at trusted
        cases trusted
  rw [Authority.reasons_eq, unviolated, if_neg Bool.false_ne_true, List.append_nil]

variable {a o} in
/-- Where nothing is out of place, what is said in fewer refusals is said in as few reasons. -/
theorem Unrestricted.reasons_subset (free : a.Unrestricted o) {said told : List Answer}
    (fewer : told.flatMap (·.messages) ⊆ said.flatMap (·.messages)) (s t : Subject) :
    a.reasons o told t ⊆ a.reasons o said s := by
  intro m hm
  rw [free.reasons_eq, List.mem_eraseDups] at hm ⊢
  exact fewer hm

section Supplement

variable (hs : ∀ strategy ∈ a.strategies, strategy = .mntBy ∨ strategy = .routeOrigin)
  (h : v.Supplements u)

include hs h

/-- The strategies that are asked stay the same. -/
theorem filter_supports_of_supplements :
    a.strategies.filter (·.supports v) = a.strategies.filter (·.supports u) :=
  List.filter_congr fun strategy hmem => h.supports_standard (hs strategy hmem)

/-- Each answer is no worse than a former one of the same strategy. -/
theorem former_answer {name : String} {outcome : Outcome}
    (later : ⟨name, outcome⟩ ∈ (a.answers v c).under answers) :
    ∃ former, ⟨name, former⟩ ∈ (a.answers u c).under answers ∧ former.NoWorse outcome := by
  rw [under_answers, a.filter_supports_of_supplements hs h] at later
  rw [under_answers]
  obtain ⟨strategy, asked, same⟩ := List.mem_map.mp later
  cases same
  exact ⟨_, List.mem_map.mpr ⟨strategy, asked, rfl⟩,
    h.noWorse_standard answers (hs strategy (List.mem_filter.mp asked).1) c⟩

/-- Each former answer has one of the same strategy that is no worse. -/
theorem later_answer {name : String} {outcome : Outcome}
    (former : ⟨name, outcome⟩ ∈ (a.answers u c).under answers) :
    ∃ later, ⟨name, later⟩ ∈ (a.answers v c).under answers ∧ outcome.NoWorse later := by
  rw [under_answers] at former
  rw [under_answers, a.filter_supports_of_supplements hs h]
  obtain ⟨strategy, asked, same⟩ := List.mem_map.mp former
  cases same
  exact ⟨_, List.mem_map.mpr ⟨strategy, asked, rfl⟩,
    h.noWorse_standard answers (hs strategy (List.mem_filter.mp asked).1) c⟩

/-- Strategies that passed still pass. -/
theorem passed_of_supplements :
    (a.subjectOf u ((a.answers u c).under answers)).passed.toList ⊆
      (a.subjectOf v ((a.answers v c).under answers)).passed.toList := by
  intro name hname
  rw [mem_passed_iff] at hname ⊢
  obtain ⟨records, former⟩ := hname
  obtain ⟨_, later, noWorse⟩ := a.later_answer c answers hs h former
  cases noWorse
  exact ⟨_, later⟩

/-- Strategies that fail have failed. -/
theorem failed_of_supplements :
    (a.subjectOf v ((a.answers v c).under answers)).failed.toList ⊆
      (a.subjectOf u ((a.answers u c).under answers)).failed.toList := by
  intro name hname
  rw [mem_failed_iff] at hname ⊢
  obtain ⟨refusal, later⟩ := hname
  obtain ⟨_, former, noWorse⟩ := a.former_answer c answers hs h later
  cases noWorse
  exact ⟨_, former⟩

/-- Principals stay conferred. -/
theorem principals_of_supplements :
    (a.subjectOf u ((a.answers u c).under answers)).principals.toList ⊆
      (a.subjectOf v ((a.answers v c).under answers)).principals.toList := by
  intro p hp
  rw [mem_principals_subjectOf] at hp ⊢
  obtain ⟨name, records, r, former, hr, conferred⟩ := hp
  obtain ⟨_, later, noWorse⟩ := a.later_answer c answers hs h former
  cases noWorse with
  | kept sub =>
    rw [Update.objectType, Update.key, h.action, h.record]
    exact ⟨name, _, r, later, sub hr, conferred⟩

/-- No refusal is added. -/
theorem messages_of_supplements :
    ((a.answers v c).under answers).flatMap (·.messages) ⊆
      ((a.answers u c).under answers).flatMap (·.messages) := by
  intro m hm
  obtain ⟨⟨name, outcome⟩, later, said⟩ := List.mem_flatMap.mp hm
  obtain ⟨former, hformer, noWorse⟩ := a.former_answer c answers hs h later
  cases noWorse with
  | refused refusal => exact List.mem_flatMap.mpr ⟨_, hformer, said⟩
  | passed | kept => cases said

end Supplement

section Together

variable (hs : ∀ strategy ∈ a.strategies, strategy = .mntBy ∨ strategy = .routeOrigin)

include hs in
/-- Who answers is one of two parties. -/
theorem party_of_answer {name : String} {outcome : Outcome}
    (said : ⟨name, outcome⟩ ∈ (a.answers u c).under answers) :
    name = Strategy.mntBy.name ∨ name = Strategy.routeOrigin.name := by
  rw [under_answers] at said
  obtain ⟨strategy, asked, same⟩ := List.mem_map.mp said
  cases same
  rcases hs strategy (List.mem_filter.mp asked).1 with rfl | rfl
  · exact .inl rfl
  · exact .inr rfl

include hs in
/-- When one party fails an update and another passes it, they are the two. -/
theorem parties_of_passed_of_failed {party name : String}
    (passed : party ∈ (a.subjectOf u ((a.answers u c).under answers)).passed.toList)
    (failed : name ∈ (a.subjectOf u ((a.answers u c).under answers)).failed.toList) :
    party = Strategy.mntBy.name ∧ name = Strategy.routeOrigin.name ∨
      party = Strategy.routeOrigin.name ∧ name = Strategy.mntBy.name := by
  have apart : party ≠ name := by
    rintro rfl
    exact not_mem_failed_of_mem_passed a u _ (nodup_strategy_answers a u c answers) _ passed failed
  obtain ⟨records, approved⟩ := (mem_passed_iff a u _ _).mp passed
  obtain ⟨refusal, refused⟩ := (mem_failed_iff a u _ _).mp failed
  rcases party_of_answer a c answers hs approved with rfl | rfl <;>
    rcases party_of_answer a c answers hs refused with rfl | rfl
  · exact absurd rfl apart
  · exact .inl ⟨rfl, rfl⟩
  · exact .inr ⟨rfl, rfl⟩
  · exact absurd rfl apart

include hs in
/-- Two updates that the same party fails and somebody passes are passed by the same party. -/
theorem passed_eq_of_failed {w : Update} {name party other : String}
    (failed : name ∈ (a.subjectOf u ((a.answers u c).under answers)).failed.toList)
    (failed' : name ∈ (a.subjectOf w ((a.answers w c).under answers)).failed.toList)
    (passed : party ∈ (a.subjectOf u ((a.answers u c).under answers)).passed.toList)
    (passed' : other ∈ (a.subjectOf w ((a.answers w c).under answers)).passed.toList) :
    (a.subjectOf u ((a.answers u c).under answers)).passed =
      (a.subjectOf w ((a.answers w c).under answers)).passed := by
  have same : ∀ {x y : String},
      x ∈ (a.subjectOf u ((a.answers u c).under answers)).passed.toList →
      y ∈ (a.subjectOf w ((a.answers w c).under answers)).passed.toList → x = y := by
    intro x y hx hy
    have distinct : Strategy.mntBy.name ≠ Strategy.routeOrigin.name := by decide
    rcases parties_of_passed_of_failed a c answers hs hx failed with ⟨rfl, rfl⟩ | ⟨rfl, rfl⟩ <;>
      rcases parties_of_passed_of_failed a c answers hs hy failed' with ⟨rfl, same⟩ | ⟨rfl, same⟩
    · rfl
    · exact absurd same.symm distinct
    · exact absurd same distinct
    · rfl
  refine SortedSet.ext_mem fun x => ⟨fun hx => ?_, fun hx => ?_⟩
  · rwa [same hx passed']
  · rwa [← same passed hx]

/-- When no strategy has failed an update there is no refusal. -/
theorem messages_eq_nil_of_failed (u : Update) (said : List Answer)
    (unfailed : ∀ name, name ∉ (a.subjectOf u said).failed.toList) :
    said.flatMap (·.messages) = [] := by
  refine List.flatMap_eq_nil_iff.mpr fun ⟨name, outcome⟩ hmem => ?_
  cases outcome with
  | ok records => rfl
  | error refusal =>
    exact absurd ((mem_failed_iff a u said name).mpr ⟨refusal, hmem⟩) (unfailed name)

/-- A judgement accepts an update exactly when there is no reason against it and it has not been
rejected before. -/
theorem status_concludeFrom_eq_success_iff (said : List Answer) :
    ((a.concludeFrom o u c said).recordIn c).context.status = .success ↔
      a.reasons o said (a.subjectOf u said) = [] ∧ c.status = .success := by
  by_cases hr : a.reasons o said (a.subjectOf u said) = []
  · rw [status_concludeFrom_of_nil a o u c hr]
    exact ⟨fun accepted => ⟨hr, accepted⟩, And.right⟩
  · rw [status_concludeFrom_of_ne_nil a o u c hr]
    constructor
    · intro accepted
      split at accepted <;> cases accepted
    · exact fun accepted => absurd accepted.1 hr

/-- Somebody passes an update that a judgement leaves to wait. -/
theorem passed_of_pending (hc : c.status = .success) (said : List Answer)
    (waits : ((a.concludeFrom o u c said).recordIn c).context.status = .pendingAuthentication) :
    ∃ party, party ∈ (a.subjectOf u said).passed.toList := by
  by_cases hr : a.reasons o said (a.subjectOf u said) = []
  · rw [status_concludeFrom_of_nil a o u c hr, hc] at waits
    cases waits
  · rw [status_concludeFrom_of_ne_nil a o u c hr] at waits
    split at waits
    · next mayWait =>
      obtain ⟨-, -, -, party, passed, -⟩ := (isPending_deferral_iff a u c _).mp mayWait
      exact ⟨party, passed⟩
    · cases waits

/-- With the standard strategies more proof never hurts. Strategies that passed still pass, those
that fail have failed, and principals stay conferred. Unless the restriction to the trusted network
may speak, what was accepted still is, no message is added, and two submissions that wait for
different parties are accepted when they are submitted together. Proof in another order leads to the
same evaluation. -/
theorem authenticate_of_supplements (a : Authority)
    (hs : ∀ strategy ∈ a.strategies, strategy = .mntBy ∨ strategy = .routeOrigin)
    (o : Origin) (ho : o.channel ≠ .internal) (answers : Answers) {u v : Update}
    (h : v.Supplements u) (hu : u.isOverride = false) (hv : v.isOverride = false) (c : Context)
    (hc : c.status = .success) :
    let e := (a.authenticate o u c).under answers
    let f := (a.authenticate o v c).under answers
    (v.credentials.passwords.length ≤ a.maxPasswords →
      e.subject.passed.toList ⊆ f.subject.passed.toList ∧
      f.subject.failed.toList ⊆ e.subject.failed.toList ∧
      e.subject.principals.toList ⊆ f.subject.principals.toList ∧
      (a.Unrestricted o →
        (e.context.status = .success → f.context.status = .success) ∧
        f.context.messages ⊆ e.context.messages ∧
        ∀ w, v.Supplements w → w.isOverride = false →
          let g := (a.authenticate o w c).under answers
          e.context.status = .pendingAuthentication →
          g.context.status = .pendingAuthentication →
          e.subject.passed ≠ g.subject.passed → f.context.status = .success)) ∧
    (u.credentials.toList.Perm v.credentials.toList → e = f) := by
  intro e f
  constructor
  · intro few
    have judged {w : Update} (hw : v.Supplements w) (hn : w.isOverride = false) :
        (a.authenticate o w c).under answers =
          (a.concludeFrom o w c ((a.answers w c).under answers)).recordIn c :=
      under_authenticate_of_le a o w c answers ho hn (Nat.le_trans hw.length_passwords_le few)
    have he : e = _ := judged h hu
    have hf : f = _ := under_authenticate_of_le a o v c answers ho hv few
    rw [he, hf]
    refine ⟨a.passed_of_supplements c answers hs h, a.failed_of_supplements c answers hs h,
      a.principals_of_supplements c answers hs h, fun free => ?_⟩
    have fewer (s t : Subject) := free.reasons_subset (a.messages_of_supplements c answers hs h) s t
    simp only [status_concludeFrom_eq_success_iff, hc, and_true]
    refine ⟨?_, ?_, ?_⟩
    · intro accepted
      exact List.subset_nil.mp (accepted ▸ fewer _ _)
    · intro m hm
      rw [Ruling.mem_messages_recordIn] at hm ⊢
      exact hm.imp_right fun hm => fewer _ _ hm
    · intro w hw hn waits waits' different
      have unrefused := messages_eq_nil_of_failed a v ((a.answers v c).under answers)
        fun name hname => different ?_
      · rw [free.reasons_eq, unrefused, List.eraseDups_nil]
      have failed := a.failed_of_supplements c answers hs h hname
      have failed' := a.failed_of_supplements c answers hs hw hname
      obtain ⟨party, passed⟩ := passed_of_pending a o c hc _ waits
      rw [judged hw hn] at waits' ⊢
      obtain ⟨other, passed'⟩ := passed_of_pending a o c hc _ waits'
      exact passed_eq_of_failed a c answers hs failed failed' passed passed'
  · intro reordered
    have back : u.Supplements v := ⟨h.action.symm, h.record.symm, reordered.symm.subset⟩
    exact congrArg (·.under answers) (authenticate_of_alike a hs (h.alike back) o c hu hv)

end Together

/-- A salt. -/
private def plainSalt : Vector UInt8 16 := .replicate 16 0

/-- A route with some passwords. -/
private def routeWith (passwords : List String) : Update :=
  .prepare ⟨1⟩ .create (Trial.route "192.0.2.0/24" "AS65000" "OWN-MNT")
    (passwords.map (.credential <| .password ·))

/-- The answers of a store with the maintainers of the route and of its origin. -/
private def jointAnswers : Answers :=
  (((MemoryStore.empty.putRecord
    (Trial.maintainer "OWN-MNT" (passwordLine "own" plainSalt))).putRecord
    (Trial.maintainer "AS-MNT" (passwordLine "other" plainSalt))).putRecord
    (Trial.autNum "AS65000" "AS-MNT")).answers

/-- The authority of the standard strategies, which trusts one sender. -/
private def joint : Authority where
  strategies := Trial.standardStrategies
  distinct := Trial.nodup_standardStrategies
  registry := ⟨[]⟩
  trusts := (· == "10.1.2.3")
  maxPasswords := 2
  restricted := true

/-- The evaluation of the route with some passwords when nothing is known about it. -/
private def joined (passwords : List String) : Evaluation :=
  (joint.authenticate Trial.trustedOrigin (routeWith passwords) (.fresh (routeWith []))).under
    jointAnswers

/-- The maintainer of a password consents to a route with a password of the same digest. -/
private theorem consent_joint (name password : String)
    (stored : jointAnswers.stored .mntner ⟨name⟩ =
      some (Trial.maintainer name (passwordLine password plainSalt))) (passwords : List String) :
    jointAnswers.Consent (routeWith passwords) [⟨name⟩] ↔
      ∃ p ∈ (routeWith passwords).credentials.passwords,
        PasswordHash.digestOf plainSalt password = PasswordHash.digestOf plainSalt p := by
  have line : (Trial.maintainer name (passwordLine password plainSalt)).values Record.auth =
      [passwordLine password plainSalt] := by
    have other : (Record.mntBy == Record.auth) = false := by decide
    simp [Record.values, Trial.maintainer, other]
  rw [← Update.matchesLine_passwordLine]
  simp [Answers.Consent, stored, Record.vouchesFor, line]

/-- The origin of the route consents when its maintainer does. -/
private theorem originConsent_joint (passwords : List String) :
    jointAnswers.OriginConsent (routeWith passwords) ⟨"AS65000"⟩ ↔
      jointAnswers.Consent (routeWith passwords) [⟨"AS-MNT"⟩] := by
  have stored : jointAnswers.stored .autNum ⟨"AS65000"⟩ =
      some (Trial.autNum "AS65000" "AS-MNT") := rfl
  have maintained : (Trial.autNum "AS65000" "AS-MNT").maintainers = [⟨"AS-MNT"⟩] := rfl
  simp [Answers.OriginConsent, stored, maintained]

/-- The two parties have passwords of different digests. -/
private theorem digests_differ :
    PasswordHash.digestOf plainSalt "own" ≠ PasswordHash.digestOf plainSalt "other" := by
  decide +kernel

/-- With the password of one party the route waits for the other one. -/
private theorem waits_joint {password : String} (known : password = "own" ∨ password = "other") :
    (joined [password]).context.status = .pendingAuthentication ∧
      (Strategy.mntBy.name ∈ (joined [password]).subject.passed.toList ↔ password = "own") := by
  have named : (Trial.route "192.0.2.0/24" "AS65000" "OWN-MNT").maintainers ≠ [] := by decide
  have created : (routeWith [password]).CreatesRoute ⟨"AS65000"⟩ := ⟨rfl, .inl rfl, named, rfl⟩
  have held : (routeWith [password]).credentials.passwords = [password] := rfl
  have own : jointAnswers.Consent (routeWith [password]) (routeWith [password]).record.maintainers ↔
      password = "own" := by
    refine (consent_joint "OWN-MNT" "own" rfl [password]).trans ?_
    rcases known with rfl | rfl <;> simp [held, digests_differ]
  have other : jointAnswers.OriginConsent (routeWith [password]) ⟨"AS65000"⟩ ↔
      password = "other" := by
    refine (originConsent_joint [password]).trans ?_
    rw [consent_joint "AS-MNT" "other" rfl]
    rcases known with rfl | rfl <;> simp [held, digests_differ.symm]
  obtain ⟨-, waits, -⟩ := status_concludeFrom_of_createsRoute joint Trial.trustedOrigin created
    (.inl rfl) jointAnswers
  have judged := under_authenticate_of_le joint Trial.trustedOrigin (routeWith [password])
    (.fresh (routeWith [password])) jointAnswers nofun rfl (Nat.le_succ 1)
  have fresh : Context.fresh (routeWith []) = .fresh (routeWith [password]) := rfl
  rw [joined, fresh, judged]
  refine ⟨waits ?_ ?_, ?_⟩
  · rintro ⟨first, second, -⟩
    exact absurd ((own.mp first).symm.trans (other.mp second)) (by decide)
  · exact known.imp own.mpr other.mpr
  · have party := mem_passed_of_createsRoute joint created (.inl rfl) jointAnswers
      (.fresh (routeWith [password])) Strategy.mntBy.name
    refine party.trans ?_
    have distinct : Strategy.mntBy.name ≠ Strategy.routeOrigin.name := by decide
    simp [own, distinct]

/-- A route with the password of its own maintainer waits, one with that of the maintainer of its
origin waits too, and with both passwords it is accepted. -/
theorem parties_accepted_together :
    (joined ["own"]).context.status = .pendingAuthentication ∧
      (joined ["other"]).context.status = .pendingAuthentication ∧
      (joined ["other", "own"]).context.status = .success := by
  obtain ⟨own, passes⟩ := waits_joint (.inl rfl)
  obtain ⟨other, fails⟩ := waits_joint (.inr rfl)
  have both : (routeWith ["other", "own"]).credentials.toList =
      [.password "other", .password "own"] := by decide +kernel
  have supplements : ∀ password ∈ ["other", "own"],
      (routeWith ["other", "own"]).Supplements (routeWith [password]) := by
    intro password known
    have one : (routeWith [password]).credentials.toList = [.password password] := rfl
    refine ⟨rfl, rfl, ?_⟩
    simpa [one, both] using known
  obtain ⟨more, -⟩ := authenticate_of_supplements joint (by simp [joint, Trial.standardStrategies])
    Trial.trustedOrigin nofun jointAnswers (supplements "own" (by simp)) rfl rfl
    (.fresh (routeWith [])) rfl
  obtain ⟨-, -, -, free⟩ := more (by decide +kernel)
  obtain ⟨-, -, together⟩ := free (.inr ⟨nofun, rfl⟩)
  have different : (joined ["own"]).subject.passed ≠ (joined ["other"]).subject.passed := by
    intro same
    have passed : Strategy.mntBy.name ∈ (joined ["other"]).subject.passed.toList :=
      same ▸ passes.mpr rfl
    exact absurd (fails.mp passed) (by decide)
  unfold joined at own other different ⊢
  exact ⟨own, other, together (routeWith ["other"]) (supplements "other" (by simp)) rfl own other
    different⟩

end RegistryConsent.Authority
