import RegistryConsent.Authority
import RegistryConsent.Proofs.Consultation
import RegistryConsent.Proofs.Findings
import RegistryConsent.Proofs.Registry

/-!
# How an authority comes to its ruling

An evaluation records one ruling: its status is the verdict of the ruling where there is one, and
its messages come after those that were there. Which ruling it is depends on the origin and the
kind of the update alone; on the normal path it is concluded from the answers of the strategies.
-/

namespace RegistryConsent

namespace Context

/-- Messages leave the status as it is. -/
@[simp] theorem status_addMessages (c : Context) (ms : List Message) :
    (c.addMessages ms).status = c.status := by
  induction ms generalizing c with
  | nil => rfl
  | cons m ms ih => exact ih (c.addMessage m)

/-- What is added to a context is gathered with the messages that are there. -/
theorem gathered_addMessages (c : Context) (ms : List Message) :
    (c.addMessages ms).gathered = c.gathered.extend ms :=
  (List.foldl_hom gathered fun _ _ => rfl).symm

/-- Messages that were there stay in front, and those that are new follow, each once and in the
order in which they first came. -/
theorem messages_addMessages (c : Context) (ms : List Message) :
    (c.addMessages ms).messages = c.messages ++ (ms.filter (· ∉ c.messages)).eraseDups :=
  (congrArg Messages.toList (c.gathered_addMessages ms)).trans (c.gathered.toList_extend ms)

end Context

/-- An update creates the maintainer of a name when it creates a maintainer under a key that is the
name up to case. -/
theorem Update.createsMaintainer_iff (u : Update) (name : Handle) :
    u.createsMaintainer name = true ↔
      u.action = .create ∧ u.objectType = .mntner ∧ (u.key == name) = true := by
  simp [createsMaintainer, and_assoc]

/-- An update creates the maintainers of a name in every case. -/
theorem Update.createsMaintainer_congr (u : Update) {x y : Handle} (h : (x == y) = true) :
    u.createsMaintainer x = u.createsMaintainer y := by
  rw [createsMaintainer, createsMaintainer, BEq.congr_right h]

namespace Ruling

/-- The subject that is recorded is that of the ruling. -/
@[simp] theorem subject_recordIn (r : Ruling) (c : Context) : (r.recordIn c).subject = r.subject :=
  rfl

/-- The verdict that is recorded is that of the ruling. -/
@[simp] theorem verdict_recordIn (r : Ruling) (c : Context) : (r.recordIn c).verdict = r.verdict :=
  rfl

/-- The messages of a ruling follow those that were there, as far as they are new. -/
theorem messages_recordIn (r : Ruling) (c : Context) :
    (r.recordIn c).context.messages =
      c.messages ++ (r.messages.filter (· ∉ c.messages)).eraseDups := by
  have former : (r.verdict.elim c c.withStatus).messages = c.messages := by
    cases r.verdict <;> rfl
  change ((r.verdict.elim c c.withStatus).addMessages r.messages).messages = _
  rw [Context.messages_addMessages, former]

/-- The messages that are recorded are those that were there and those of the ruling. -/
theorem mem_messages_recordIn (r : Ruling) (c : Context) (m : Message) :
    m ∈ (r.recordIn c).context.messages ↔ m ∈ c.messages ∨ m ∈ r.messages := by
  rw [messages_recordIn]
  by_cases hm : m ∈ c.messages <;> simp [hm]

/-- The verdict of a ruling becomes the status, which stays without one. -/
@[simp] theorem status_recordIn (r : Ruling) (c : Context) :
    (r.recordIn c).context.status = r.verdict.getD c.status := by
  change ((r.verdict.elim c c.withStatus).addMessages r.messages).status = _
  rw [Context.status_addMessages]
  cases r.verdict <;> rfl

end Ruling

namespace Authority

variable {σ : Type} (a : Authority) (o : Origin) (u : Update) (c : Context)
  (source : Source σ) (s : σ)

/-- An evaluation records the ruling of its decision. -/
@[simp] theorem run_authenticate :
    ((a.authenticate o u c).run source s).1 = ((a.decide o u c).run source s).1.recordIn c := by
  rw [authenticate, Consult.run_bind_eq, Consult.run_pure]

/-- An evaluation asks what its decision asks. -/
@[simp] theorem questions_authenticate :
    (a.authenticate o u c).questions source s = (a.decide o u c).questions source s := by
  rw [authenticate, Consult.questions_bind, Consult.questions_pure, List.append_nil]

/-- Under fixed answers an evaluation records the ruling of its decision. -/
@[simp] theorem under_authenticate (answers : Answers) :
    (a.authenticate o u c).under answers = ((a.decide o u c).under answers).recordIn c := by
  rw [authenticate, Consult.under_bind, Consult.under_pure]

/-- The registry's own caller may override. -/
theorem decide_of_internal (ho : o.channel = .internal) :
    a.decide o u c = pure { subject := .ofPrincipal .overrideMaintainer } := by
  simp [decide, Origin.overridesByDefault, ho]

/-- From elsewhere a request for override is decided as such. -/
theorem decide_of_isOverride (ho : o.channel ≠ .internal) (hu : u.isOverride = true) :
    a.decide o u c = a.override o u := by
  simp [decide, Origin.overridesByDefault, ho, hu]

/-- From elsewhere every other update is judged. -/
theorem decide_of_not_isOverride (ho : o.channel ≠ .internal) (hu : u.isOverride = false) :
    a.decide o u c = a.judge o u c := by
  simp [decide, Origin.overridesByDefault, ho, hu]

/-- With too many passwords there is nothing but this reason. -/
theorem judge_of_lt (h : a.maxPasswords < u.credentials.passwords.length) :
    a.judge o u c = pure (a.conclude u c {} [.tooManyPasswords] []) := by
  rw [judge, if_pos h]

/-- What is concluded from the answers of the strategies. -/
def concludeFrom (answers : List Answer) : Ruling :=
  a.conclude u c (a.subjectOf u answers) (a.reasons o answers (a.subjectOf u answers))
    (answers.map (·.strategy))

/-- With few enough passwords the judgement is concluded from the answers of the strategies. -/
theorem judge_of_le (h : u.credentials.passwords.length ≤ a.maxPasswords) :
    a.judge o u c = a.concludeFrom o u c <$> a.answers u c := by
  rw [judge, if_neg (Nat.not_lt.mpr h), map_eq_pure_bind]
  rfl

/-- The result of a judgement for too many passwords. -/
theorem run_judge_of_lt (h : a.maxPasswords < u.credentials.passwords.length) :
    ((a.judge o u c).run source s).1 = a.conclude u c {} [.tooManyPasswords] [] := by
  rw [judge_of_lt a o u c h, Consult.run_pure]

/-- The result of a judgement by the strategies. -/
theorem run_judge_of_le (h : u.credentials.passwords.length ≤ a.maxPasswords) :
    ((a.judge o u c).run source s).1 = a.concludeFrom o u c ((a.answers u c).run source s).1 := by
  rw [judge_of_le a o u c h, Consult.run_map]

/-- Under fixed answers every strategy that supports the update is asked by itself. -/
theorem under_answers (answers : Answers) :
    (a.answers u c).under answers = (a.strategies.filter (·.supports u)).map fun strategy =>
      ⟨strategy.name, (strategy.authenticate u c).under answers⟩ := by
  simp only [Authority.answers, Consult.under_mapM, Consult.under_bind, Consult.under_pure]

/-- The verdict of a judgement follows from its subject and its messages. -/
theorem verdict_judge :
    ((a.judge o u c).run source s).1.verdict =
      a.verdict? u c ((a.judge o u c).run source s).1.subject
        ((a.judge o u c).run source s).1.messages := by
  rcases Nat.lt_or_ge a.maxPasswords u.credentials.passwords.length with h | h
  · rw [run_judge_of_lt a o u c source s h]
    rfl
  · rw [run_judge_of_le a o u c source s h]
    rfl

/-- The principals are those of the maintainers among the records, except of one that the update
creates. -/
theorem mem_principalsOf (records : List Record) (p : Principal) :
    p ∈ (a.principalsOf u records).toList ↔ ∃ r ∈ records, r.objectType = .mntner ∧
      u.createsMaintainer r.key = false ∧ p ∈ (a.registry.lookup r.key).toList := by
  simp only [principalsOf, SortedSet.mem_ofList, List.mem_flatMap, List.mem_filter, List.mem_map,
    beq_iff_eq, Bool.not_eq_true']
  constructor
  · rintro ⟨_, ⟨⟨r, ⟨hr, ht⟩, rfl⟩, hc⟩, hp⟩
    exact ⟨r, hr, ht, hc, hp⟩
  · rintro ⟨r, hr, ht, hc, hp⟩
    exact ⟨r.key, ⟨⟨r, ⟨hr, ht⟩, rfl⟩, hc⟩, hp⟩

/-- Records confer principals by their identities alone: it does not matter which record of an
identity is kept, nor how often it comes. -/
theorem principalsOf_congr {records kept : List Record}
    (all : ∀ r ∈ records, ∃ k ∈ kept, k.sameIdentity r = true)
    (only : ∀ k ∈ kept, ∃ r ∈ records, r.sameIdentity k = true) :
    a.principalsOf u records = a.principalsOf u kept := by
  have covers {rs ks : List Record} (h : ∀ r ∈ rs, ∃ k ∈ ks, k.sameIdentity r = true)
      (p : Principal) (hp : p ∈ (a.principalsOf u rs).toList) :
      p ∈ (a.principalsOf u ks).toList := by
    obtain ⟨r, hr, objectType, foreign, conferred⟩ := (mem_principalsOf a u rs p).mp hp
    obtain ⟨k, hk, same⟩ := h r hr
    simp only [Record.sameIdentity, Bool.and_eq_true, beq_iff_eq] at same
    refine (mem_principalsOf a u ks p).mpr ⟨k, hk, same.1.trans objectType, ?_, ?_⟩
    · rw [u.createsMaintainer_congr same.2, foreign]
    · rw [a.registry.lookup_congr same.2]
      exact conferred
  exact SortedSet.ext_mem fun p => ⟨covers all p, covers only p⟩

/-- The records of all answers confer the principals of a subject. -/
theorem principals_subjectOf (answers : List Answer) :
    (a.subjectOf u answers).principals = a.principalsOf u (answers.flatMap (·.records)) := by
  have kept := AuthenticatedRecords.exists_mem_extend_iff (answers.flatMap (·.records))
  change a.principalsOf u (Findings.ofAnswers answers).authenticated.records = _
  rw [Findings.authenticated_ofAnswers]
  refine principalsOf_congr a u (fun k hk => ?_) fun r hr => ?_
  · obtain ⟨r, hr, same⟩ := (kept k.identity).mp ⟨k, hk, k.sameIdentity_refl⟩
    exact ⟨r, hr, BEq.symm same⟩
  · obtain ⟨k, hk, same⟩ := (kept r.identity).mpr ⟨r, hr, r.sameIdentity_refl⟩
    exact ⟨k, hk, BEq.symm same⟩

/-- The names under which strategies have passed are those of the answers that passed. -/
theorem mem_passed_subjectOf (answers : List Answer) (name : String) :
    name ∈ (a.subjectOf u answers).passed.toList ↔
      ∃ answer ∈ answers, answer.passed = true ∧ answer.strategy = name :=
  Findings.mem_passed_ofAnswers_iff answers name

/-- The names under which strategies have failed are those of the answers that did not pass. -/
theorem mem_failed_subjectOf (answers : List Answer) (name : String) :
    name ∈ (a.subjectOf u answers).failed.toList ↔
      ∃ answer ∈ answers, answer.passed = false ∧ answer.strategy = name :=
  Findings.mem_failed_ofAnswers_iff answers name

/-- The reasons are the first occurrences of the messages of the refusals and, behind them, of the
message about the trusted network. -/
theorem reasons_eq (answers : List Answer) (subject : Subject) :
    a.reasons o answers subject = List.eraseDups (answers.flatMap (·.messages) ++
      if a.violatesRestriction o subject then [.outsideRegistryNetwork] else []) := by
  rw [reasons, Findings.messages_ofAnswers, ← Messages.toList_extend_empty, Messages.extend,
    Messages.extend, List.foldl_append]
  split <;> rfl

/-- No reason is given twice. -/
theorem nodup_reasons (answers : List Answer) (subject : Subject) :
    (a.reasons o answers subject).Nodup :=
  Messages.nodup _

/-- A principal is conferred from outside the trusted network when the restriction is on and the
update comes by mail or from a sender that is not trusted. -/
theorem violatesRestriction_iff (subject : Subject) :
    a.violatesRestriction o subject = true ↔
      subject.principals.toList ≠ [] ∧ a.restricted = true ∧
        (o.channel = .email ∨ a.trusts o.sender = false) := by
  simp [violatesRestriction, isOutside, Origin.allowsAdministration, SortedSet.isEmpty, and_assoc]

/-- The messages of a judgement differ. -/
theorem nodup_messages_judge : ((a.judge o u c).run source s).1.messages.Nodup := by
  rcases Nat.lt_or_ge a.maxPasswords u.credentials.passwords.length with h | h
  · rw [run_judge_of_lt a o u c source s h]
    exact List.pairwise_singleton _ _
  · rw [run_judge_of_le a o u c source s h]
    exact nodup_reasons a o _ _

/-- Without a reason against it an update keeps its status. -/
theorem verdict?_eq_none_iff (subject : Subject) (reasons : List Message) :
    a.verdict? u c subject reasons = none ↔ reasons = [] := by
  unfold verdict?
  split
  · simpa using ‹reasons.isEmpty = true›
  · split <;> simp_all

/-- With a reason against it an update waits or has failed. -/
theorem verdict?_of_ne_nil (subject : Subject) {reasons : List Message} (h : reasons ≠ []) :
    a.verdict? u c subject reasons =
      some (if a.deferral.isPending u c subject then .pendingAuthentication
        else .failedAuthentication) := by
  rw [verdict?, if_neg (by simpa using h)]
  split <;> rfl

/-- Without a reason against it an update keeps its status when the judgement is recorded. -/
theorem status_concludeFrom_of_nil {answers : List Answer}
    (h : a.reasons o answers (a.subjectOf u answers) = []) :
    ((a.concludeFrom o u c answers).recordIn c).context.status = c.status := by
  have verdict : (a.concludeFrom o u c answers).verdict = none :=
    (verdict?_eq_none_iff a u c _ _).mpr h
  rw [Ruling.status_recordIn, verdict, Option.getD_none]

/-- With a reason against it an update waits or has failed when the judgement is recorded. -/
theorem status_concludeFrom_of_ne_nil {answers : List Answer}
    (h : a.reasons o answers (a.subjectOf u answers) ≠ []) :
    ((a.concludeFrom o u c answers).recordIn c).context.status =
      if a.deferral.isPending u c (a.subjectOf u answers) then .pendingAuthentication
      else .failedAuthentication := by
  have verdict := verdict?_of_ne_nil a u c (a.subjectOf u answers) h
  rw [Ruling.status_recordIn]
  change (a.verdict? u c _ _).getD c.status = _
  rw [verdict, Option.getD_some]

/-- Under fixed answers every other update from elsewhere with few enough passwords is judged by the
answers of the strategies. -/
theorem under_authenticate_of_le (answers : Answers) (ho : o.channel ≠ .internal)
    (hu : u.isOverride = false) (hp : u.credentials.passwords.length ≤ a.maxPasswords) :
    (a.authenticate o u c).under answers =
      (a.concludeFrom o u c ((a.answers u c).under answers)).recordIn c := by
  rw [under_authenticate, decide_of_not_isOverride a o u c ho hu, judge_of_le a o u c hp,
    Consult.under_map]

end Authority

end RegistryConsent
