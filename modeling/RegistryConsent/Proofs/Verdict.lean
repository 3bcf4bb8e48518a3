import RegistryConsent.Proofs.Deferral
import RegistryConsent.Proofs.Override
import RegistryConsent.Strategy.Scripted
import RegistryConsent.Trial

/-!
# When an update is rejected and when it waits

On the normal path the reasons against an update decide: the messages of the refusals, and that a
principal is conferred from outside the trusted network. With a reason the update fails or waits,
without one it keeps its status. A refusal without a message is no reason. An update that waits has
a party to wait for, unless the reason is the network alone.
-/

namespace RegistryConsent

/-- The answers of strategies whose refusals carry no message give no reason. -/
theorem Answer.messages_eq_nil_iff (answer : Answer) :
    answer.messages = [] ↔ ∀ refusal, answer.outcome = .error refusal → refusal.messages = [] := by
  cases h : answer.outcome <;> simp [messages, h]

namespace Authority

variable {σ : Type} (a : Authority) (o : Origin) (u : Update) (c : Context)
  (source : Source σ) (s : σ)

/-- The answers are those of the strategies that support the update, in order. -/
theorem strategy_answers :
    ((a.answers u c).run source s).1.map (·.strategy) =
      (a.strategies.filter (·.supports u)).map (·.name) := by
  refine Consult.map_run_mapM source _ Strategy.name Answer.strategy _ ?_ s
  intro strategy _ s
  simp

/-- Nothing speaks against an update when no refusal carries a message and no principal is conferred
from outside the trusted network. -/
theorem reasons_eq_nil_iff (answers : List Answer) (subject : Subject) :
    a.reasons o answers subject = [] ↔
      (∀ answer ∈ answers, answer.messages = []) ∧ a.violatesRestriction o subject = false := by
  have nothing {ms : List Message} : ms.eraseDups = [] ↔ ms = [] := by
    simp only [List.eq_nil_iff_forall_not_mem, List.mem_eraseDups]
  rw [reasons_eq, nothing, List.append_eq_nil_iff, List.flatMap_eq_nil_iff]
  cases a.violatesRestriction o subject <;> simp

/-- Why an update is rejected on the normal path: a strategy refuses it with a message, a principal
is conferred from outside the trusted network, or it carries too many passwords. -/
def Rejects (answers : List Answer) (subject : Subject) : Prop :=
  (∃ answer ∈ answers, ∃ refusal, answer.outcome = .error refusal ∧ refusal.messages ≠ []) ∨
    a.violatesRestriction o subject = true ∨ a.maxPasswords < u.credentials.passwords.length

/-- A judgement has no message exactly when nothing rejects the update. -/
theorem messages_judge_eq_nil_iff :
    ((a.judge o u c).run source s).1.messages = [] ↔
      ¬a.Rejects o u ((a.answers u c).run source s).1
        ((a.judge o u c).run source s).1.subject := by
  rcases Nat.lt_or_ge a.maxPasswords u.credentials.passwords.length with h | h
  · rw [run_judge_of_lt a o u c source s h]
    exact ⟨nofun, fun hr => absurd (.inr (.inr h)) hr⟩
  · rw [run_judge_of_le a o u c source s h]
    refine (reasons_eq_nil_iff a o _ _).trans ?_
    simp only [Answer.messages_eq_nil_iff, Rejects, not_or, not_exists, not_and, ne_eq,
      Decidable.not_not, Bool.not_eq_true, Nat.not_lt]
    exact ⟨fun hr => ⟨hr.1, hr.2, h⟩, fun hr => ⟨hr.1, hr.2.1⟩⟩

/-- An update may wait: it creates an object, no error was there before, only strategies that
declare its type have failed and one of them has passed. -/
def MayWait (subject : Subject) : Prop :=
  c.hasErrors = false ∧ u.action = .create ∧
    (∀ name ∈ subject.failed.toList, name ∈ Deferral.declaring a.strategies u.objectType) ∧
    ∃ name ∈ subject.passed.toList, name ∈ Deferral.declaring a.strategies u.objectType

/-- The index of an authority leaves those updates to wait that may. -/
theorem isPending_deferral_iff (subject : Subject) :
    a.deferral.isPending u c subject = true ↔ a.MayWait u c subject :=
  Deferral.isPending_iff a.strategies u c subject

/-- Without a message a judgement has no verdict; with one the update waits if it may and otherwise
has failed. -/
theorem verdict_judge_cases :
    let r := ((a.judge o u c).run source s).1
    (r.messages = [] ∧ r.verdict = none) ∨
    (r.messages ≠ [] ∧ a.MayWait u c r.subject ∧ r.verdict = some .pendingAuthentication) ∨
    (r.messages ≠ [] ∧ ¬a.MayWait u c r.subject ∧ r.verdict = some .failedAuthentication) := by
  intro r
  have verdict : r.verdict = a.verdict? u c r.subject r.messages := verdict_judge a o u c source s
  by_cases hm : r.messages = []
  · exact .inl ⟨hm, verdict.trans ((verdict?_eq_none_iff a u c _ _).mpr hm)⟩
  · rw [verdict?_of_ne_nil a u c _ hm] at verdict
    have waits := isPending_deferral_iff a u c r.subject
    by_cases hw : a.MayWait u c r.subject
    · rw [waits.mpr hw] at verdict
      exact .inr (.inl ⟨hm, hw, verdict⟩)
    · rw [if_neg (mt waits.mp hw)] at verdict
      exact .inr (.inr ⟨hm, hw, verdict⟩)

/-- The verdict on an update that something rejects tells whether it may wait. -/
theorem verdict_judge_of_rejects
    (hr : a.Rejects o u ((a.answers u c).run source s).1
      ((a.judge o u c).run source s).1.subject) :
    (((a.judge o u c).run source s).1.verdict = some .pendingAuthentication ∧
      a.MayWait u c ((a.judge o u c).run source s).1.subject) ∨
    (((a.judge o u c).run source s).1.verdict = some .failedAuthentication ∧
      ¬a.MayWait u c ((a.judge o u c).run source s).1.subject) := by
  rcases verdict_judge_cases a o u c source s with ⟨hm, -⟩ | ⟨-, hw, hv⟩ | ⟨-, hw, hv⟩
  · exact absurd hr ((messages_judge_eq_nil_iff a o u c source s).mp hm)
  · exact .inl ⟨hv, hw⟩
  · exact .inr ⟨hv, hw⟩

/-- When nothing rejects an update, its judgement has neither a verdict nor a message. -/
theorem judge_of_not_rejects
    (hr : ¬a.Rejects o u ((a.answers u c).run source s).1
      ((a.judge o u c).run source s).1.subject) :
    ((a.judge o u c).run source s).1.verdict = none ∧
      ((a.judge o u c).run source s).1.messages = [] := by
  have hm := (messages_judge_eq_nil_iff a o u c source s).mpr hr
  rcases verdict_judge_cases a o u c source s with ⟨-, hv⟩ | ⟨hn, -⟩ | ⟨hn, -⟩
  · exact ⟨hv, hm⟩
  · exact absurd hm hn
  · exact absurd hm hn

/-- When nothing rejects an update, the strategies that have failed it gave no message. -/
theorem silent_of_not_rejects (answers : List Answer) (subject : Subject)
    (hr : ¬a.Rejects o u answers subject) (name : String)
    (hname : name ∈ (a.subjectOf u answers).failed.toList) :
    ∃ answer ∈ answers, answer.strategy = name ∧ answer.outcome = .error ⟨[]⟩ := by
  obtain ⟨answer, hmem, hpassed, hstrategy⟩ := (mem_failed_subjectOf a u answers name).mp hname
  refine ⟨answer, hmem, hstrategy, ?_⟩
  cases houtcome : answer.outcome with
  | ok records =>
    simp [Answer.passed, houtcome, Except.isOk, Except.toBool] at hpassed
  | error refusal =>
    have hsilent : refusal.messages = [] :=
      Decidable.byContradiction fun h => hr (.inl ⟨answer, hmem, refusal, houtcome, h⟩)
    obtain ⟨messages⟩ := refusal
    obtain rfl : messages = [] := hsilent
    rfl

/-- A refusal with a message, a principal that is conferred from outside the trusted network and too
many passwords all reject an update on the normal path, and otherwise its context only gets the
subject. A strategy that has failed an update which ends in success gave no message. -/
theorem status_of_rejects (a : Authority) (o : Origin) (u : Update) (c : Context)
    (source : Source σ) (s : σ) (ho : o.channel ≠ .internal) (hu : u.isOverride = false) :
    let e := ((a.authenticate o u c).run source s).1
    let answers := ((a.answers u c).run source s).1
    answers.map (·.strategy) = (a.strategies.filter (·.supports u)).map (·.name) ∧
    (a.Rejects o u answers e.subject →
      e.context.status = .failedAuthentication ∨ e.context.status = .pendingAuthentication) ∧
    (¬a.Rejects o u answers e.subject → e.context = c.withSubject e.subject) ∧
    (e.context.status = .success → ∀ name ∈ e.subject.failed.toList,
      ∃ answer ∈ answers, answer.strategy = name ∧ answer.outcome = .error ⟨[]⟩) := by
  intro e answers
  have he : e = ((a.judge o u c).run source s).1.recordIn c := by
    simp only [e, run_authenticate, decide_of_not_isOverride a o u c ho hu]
  rw [he, Ruling.subject_recordIn, Ruling.status_recordIn]
  have rejected : a.Rejects o u answers ((a.judge o u c).run source s).1.subject →
      ((a.judge o u c).run source s).1.verdict.getD c.status = .failedAuthentication ∨
      ((a.judge o u c).run source s).1.verdict.getD c.status = .pendingAuthentication := by
    intro hr
    rcases verdict_judge_of_rejects a o u c source s hr with ⟨hw, -⟩ | ⟨hf, -⟩
    · exact .inr (by rw [hw, Option.getD_some])
    · exact .inl (by rw [hf, Option.getD_some])
  refine ⟨strategy_answers a u c source s, rejected, ?_, ?_⟩
  · intro hr
    obtain ⟨hv, hm⟩ := judge_of_not_rejects a o u c source s hr
    simp only [Ruling.recordIn, hm, hv]
    rfl
  · intro hsuccess name hname
    have hr : ¬a.Rejects o u answers ((a.judge o u c).run source s).1.subject := by
      intro hr
      rcases rejected hr with h | h <;> rw [hsuccess] at h <;> cases h
    have hle := Nat.le_of_not_lt fun h => hr (.inr (.inr h))
    rw [run_judge_of_le a o u c source s hle] at hname hr
    exact silent_of_not_rejects a o u answers _ hr name hname

/-- A plain creation. -/
private def plainCreation : Update :=
  .start ⟨1⟩ .create { objectType := .route, key := ⟨"192.0.2.0/24AS65000"⟩ }

/-- A store that does not answer. -/
private def silentSource : Source Unit where
  user _ s := (.error .unavailable, s)
  object _ _ s := (.error .unavailable, s)

/-- Of two refusals the one that carries a message rejects the update. -/
theorem refused_with_message_rejected :
    ∃ a, Authority.make {}
        [(Script.failingWith "A" []).strategy, (Script.failing "B").strategy] = .ok a ∧
      let e := ((a.authenticate Trial.trustedOrigin plainCreation (.fresh plainCreation)).run
        silentSource ()).1
      Trial.trustedOrigin.channel ≠ .internal ∧ plainCreation.isOverride = false ∧
      (e.context.status = .failedAuthentication ∨ e.context.status = .pendingAuthentication) := by
  refine ⟨_, rfl, nofun, rfl, ?_⟩
  refine (status_of_rejects _ Trial.trustedOrigin plainCreation _ silentSource () nofun rfl).2.1 ?_
  exact .inl ⟨_, List.mem_cons_of_mem _ List.mem_cons_self, _, rfl, nofun⟩

/-- A strategy that refuses an update without a message does not reject it: the update ends in
success although the strategy has failed it. -/
theorem silent_refusal_succeeds :
    ∃ a, Authority.make {} [(Script.failingWith "A" []).strategy] = .ok a ∧
      let e := ((a.authenticate Trial.trustedOrigin plainCreation (.fresh plainCreation)).run
        silentSource ()).1
      Trial.trustedOrigin.channel ≠ .internal ∧ plainCreation.isOverride = false ∧
      (∃ answer ∈ ((a.answers plainCreation (.fresh plainCreation)).run silentSource ()).1,
        answer.passed = false) ∧
      e.context.status = .success ∧ e.subject.failed.toList = ["A"] :=
  ⟨_, rfl, nofun, rfl, ⟨_, List.mem_singleton_self _, rfl⟩, rfl, rfl⟩

/-! ### Waiting -/

/-- Only the normal path leaves an update to wait. -/
theorem judged_of_pending
    (h : ((a.decide o u c).run source s).1.verdict = some .pendingAuthentication) :
    o.channel ≠ .internal ∧ u.isOverride = false := by
  by_cases ho : o.channel = .internal
  · rw [decide_of_internal a o u c ho] at h
    cases h
  · refine ⟨ho, Bool.eq_false_iff.mpr fun hu => ?_⟩
    rw [decide_of_isOverride a o u c ho hu] at h
    rcases verdict_override a o u source s with hv | hv <;> rw [hv] at h <;> cases h

/-- What waits is rejected. -/
theorem rejects_of_pending
    (h : ((a.judge o u c).run source s).1.verdict = some .pendingAuthentication) :
    a.Rejects o u ((a.answers u c).run source s).1 ((a.judge o u c).run source s).1.subject := by
  apply Classical.byContradiction
  intro hr
  rw [(judge_of_not_rejects a o u c source s hr).1] at h
  cases h

/-- What waits has been rejected by a strategy unless a principal is conferred from outside the
trusted network. -/
theorem failed_of_pending
    (h : ((a.judge o u c).run source s).1.verdict = some .pendingAuthentication)
    (hv : a.violatesRestriction o ((a.judge o u c).run source s).1.subject = false) :
    ∃ name, name ∈ ((a.judge o u c).run source s).1.subject.failed.toList := by
  have hr := rejects_of_pending a o u c source s h
  rcases Nat.lt_or_ge a.maxPasswords u.credentials.passwords.length with hp | hp
  · rcases verdict_judge_of_rejects a o u c source s hr with ⟨-, hw⟩ | ⟨hf, -⟩
    · rw [run_judge_of_lt a o u c source s hp] at hw
      obtain ⟨-, -, -, name, hname, -⟩ := hw
      cases hname
    · rw [hf] at h
      cases h
  · rcases hr with ⟨answer, hmem, refusal, hrefused, -⟩ | hr | hr
    · refine ⟨answer.strategy, ?_⟩
      rw [run_judge_of_le a o u c source s hp]
      refine (mem_failed_subjectOf a u _ _).mpr ⟨answer, hmem, ?_, rfl⟩
      simp [Answer.passed, hrefused, Except.isOk, Except.toBool]
    · rw [hv] at hr
      cases hr
    · exact absurd hp (Nat.not_le_of_lt hr)

/-- An update that is left to wait has a party to wait for unless a principal is conferred from
outside the trusted network. In that case it waits as soon as it may, even when no strategy has
failed, and otherwise it has failed itself. -/
theorem waits_for_party (a : Authority) (o : Origin) (u : Update) (c : Context)
    (source : Source σ) (s : σ) :
    let e := ((a.authenticate o u c).run source s).1
    e.context.status = e.verdict.getD c.status ∧
    (e.verdict = some .pendingAuthentication →
      a.violatesRestriction o e.subject = false → ∃ name, name ∈ e.subject.failed.toList) ∧
    (o.channel ≠ .internal → u.isOverride = false → a.violatesRestriction o e.subject = true →
      (e.verdict = some .pendingAuthentication ∧ a.MayWait u c e.subject) ∨
      (e.verdict = some .failedAuthentication ∧ ¬a.MayWait u c e.subject)) := by
  intro e
  have he : e = ((a.decide o u c).run source s).1.recordIn c := run_authenticate a o u c source s
  rw [he, Ruling.status_recordIn, Ruling.verdict_recordIn, Ruling.subject_recordIn]
  refine ⟨rfl, ?_, ?_⟩
  · intro hw hv
    obtain ⟨ho, hu⟩ := judged_of_pending a o u c source s hw
    rw [decide_of_not_isOverride a o u c ho hu] at hw hv ⊢
    exact failed_of_pending a o u c source s hw hv
  · intro ho hu hv
    rw [decide_of_not_isOverride a o u c ho hu] at hv ⊢
    exact verdict_judge_of_rejects a o u c source s (.inr (.inl hv))

/-- A power maintainer that has to act from inside the trusted network. -/
private def powerPolicy : Policy := { maintainers := { power := .single ⟨"RIR-POWER-MNT"⟩ } }

/-- A strategy that passes for the power maintainer and may be waited for. -/
private def powerParty : Strategy :=
  { Script.passing "A" [{ objectType := .mntner, key := ⟨"RIR-POWER-MNT"⟩ }] with
    deferrable := [.route] }.strategy

/-- The authority of the power maintainer, which trusts no sender. -/
private def outpost : Authority where
  strategies := [powerParty]
  distinct := by decide
  registry := ⟨[(⟨"RIR-POWER-MNT"⟩, .single .powerMaintainer)]⟩
  trusts := Range.trusts []
  maxPasswords := powerPolicy.maxPasswords
  restricted := true

/-- A route that every strategy has passed waits when the power maintainer acts from outside the
trusted network. -/
theorem waits_without_party :
    let e := ((outpost.authenticate Trial.untrustedOrigin plainCreation
      (.fresh plainCreation)).run silentSource ()).1
    make powerPolicy [powerParty] = .ok outpost ∧
      outpost.violatesRestriction Trial.untrustedOrigin e.subject = true ∧
      e.context.status = .pendingAuthentication ∧
      e.subject.passed.toList = ["A"] ∧ e.subject.failed.toList = [] := by
  intro e
  have passed : e.subject.passed.toList = ["A"] := rfl
  have failed : e.subject.failed.toList = [] := rfl
  have violated : outpost.violatesRestriction Trial.untrustedOrigin e.subject = true := rfl
  have mayWait : outpost.MayWait plainCreation (.fresh plainCreation) e.subject := by
    refine ⟨rfl, rfl, ?_, "A", ?_, List.mem_singleton_self _⟩
    · rw [failed]
      exact nofun
    · rw [passed]
      exact List.mem_singleton_self _
  obtain ⟨status, -, outside⟩ := waits_for_party outpost Trial.untrustedOrigin plainCreation
    (.fresh plainCreation) silentSource ()
  rcases outside nofun rfl violated with ⟨waits, -⟩ | ⟨-, rejected⟩
  · rw [waits] at status
    exact ⟨rfl, violated, status, passed, failed⟩
  · exact absurd mayWait rejected

end Authority

end RegistryConsent
