import RegistryConsent.Proofs.ContextHistory
import RegistryConsent.Proofs.StrategyOrder

/-!
# Evaluating an update again

When the strategies and the users answer alike whenever they are asked, an evaluation sees nothing
of the context but whether an error was reported. The errors of a first evaluation count as reported
for the second one, so that an update which was left to wait with an error fails then. Subject and
messages stay as they are from the first evaluation on, and everything stays from the second.
-/

namespace RegistryConsent

/-- A strategy gives one answer about an update, whatever is known about the update and whatever the
source was asked before. -/
def Strategy.Steady {σ : Type} (strategy : Strategy) (u : Update) (source : Source σ) : Prop :=
  ∀ c d s t, ((strategy.authenticate u c).run source s).1 =
    ((strategy.authenticate u d).run source t).1

/-- A source answers the look-up of a user alike whenever it is asked. -/
def Source.SteadyUsers {σ : Type} (source : Source σ) : Prop :=
  ∀ name s t, (source.user name s).1 = (source.user name t).1

/-- Fixed answers are the same whenever they are asked for. -/
theorem Answers.steadyUsers_source (answers : Answers) : answers.source.SteadyUsers :=
  fun _ _ _ => rfl

/-- Logins are attempted alike whenever the users are asked for. -/
theorem Source.SteadyUsers.attempts_eq {σ : Type} {source : Source σ} (h : source.SteadyUsers)
    (logins : List Login) (s t : σ) : source.attempts logins s = source.attempts logins t := by
  induction logins generalizing s t with
  | nil => rfl
  | cons login rest ih => rw [attempts, attempts, h login.username s t, ih]

/-- Messages leave the number of the update as it is. -/
@[simp] theorem Context.updateId_addMessages (c : Context) (ms : List Message) :
    (c.addMessages ms).updateId = c.updateId := by
  induction ms generalizing c with
  | nil => rfl
  | cons m ms ih => exact ih (c.addMessage m)

namespace Ruling

/-- A ruling by which nothing is left to wait: what would wait has failed. -/
def final (r : Ruling) : Ruling :=
  { r with verdict := r.verdict.map fun _ => .failedAuthentication }

/-- The number of the update stays when a ruling is recorded. -/
@[simp] theorem updateId_recordIn (r : Ruling) (c : Context) :
    (r.recordIn c).context.updateId = c.updateId := by
  show ((r.verdict.elim c c.withStatus).addMessages r.messages).updateId = c.updateId
  rw [Context.updateId_addMessages]
  cases r.verdict <;> rfl

/-- Messages that are there already are not recorded again. -/
theorem messages_recordIn_of_subset (r : Ruling) {c : Context} (h : r.messages ⊆ c.messages) :
    (r.recordIn c).context.messages = c.messages := by
  have known : r.messages.filter (· ∉ c.messages) = [] := by
    apply List.filter_eq_nil_iff.mpr
    intro m hm
    simpa using h hm
  rw [messages_recordIn, known, List.eraseDups_nil, List.append_nil]

/-- An error is reported after a ruling when it was there before or is one of its messages. -/
theorem hasErrors_recordIn (r : Ruling) (c : Context) :
    (r.recordIn c).context.hasErrors = true ↔
      c.hasErrors = true ∨ ∃ m ∈ r.messages, m.isError = true := by
  simp only [Context.hasErrors, List.any_eq_true, mem_messages_recordIn]
  constructor
  · rintro ⟨m, hm | hm, isError⟩
    · exact .inl ⟨m, hm, isError⟩
    · exact .inr ⟨m, hm, isError⟩
  · rintro (⟨m, hm, isError⟩ | ⟨m, hm, isError⟩)
    · exact ⟨m, .inl hm, isError⟩
    · exact ⟨m, .inr hm, isError⟩

/-- Where no error was there before, an error that is reported after a ruling is a new message. -/
theorem hasErrors_recordIn_of_clear (r : Ruling) {c : Context} (clear : c.hasErrors = false) :
    (r.recordIn c).context.hasErrors = true ↔
      ∃ m ∈ (r.recordIn c).context.messages, m ∉ c.messages ∧ m.isError = true := by
  rw [Context.hasErrors, List.any_eq_true]
  constructor
  · rintro ⟨m, hm, isError⟩
    refine ⟨m, hm, ?_, isError⟩
    intro former
    rw [Context.hasErrors, List.any_eq_false] at clear
    exact clear m former isError
  · rintro ⟨m, hm, -, isError⟩
    exact ⟨m, hm, isError⟩

/-- A ruling with the same subject and messages as the one before changes the status at most. -/
theorem context_recordIn_again {r r' : Ruling} (subject : r'.subject = r.subject)
    (messages : r'.messages = r.messages) (c : Context) :
    (r'.recordIn (r.recordIn c).context).context =
      (r.recordIn c).context.withStatus (r'.verdict.getD (r.recordIn c).context.status) := by
  have known : r'.messages ⊆ (r.recordIn c).context.messages := by
    intro m hm
    rw [messages] at hm
    exact (mem_messages_recordIn r c m).mpr (.inr hm)
  apply Context.ext
  · rw [updateId_recordIn]
    rfl
  · rw [status_recordIn]
    rfl
  · rw [messages_recordIn_of_subset r' known]
    rfl
  · show some r'.subject = some r.subject
    rw [subject]

/-- The ruling that follows when a ruling was recorded in a context: nothing waits any more if an
error has been reported by then. -/
def repeated (r : Ruling) (c : Context) : Ruling :=
  if (r.recordIn c).context.hasErrors then r.final else r

/-- The subject is repeated. -/
@[simp] theorem subject_repeated (r : Ruling) (c : Context) :
    (r.repeated c).subject = r.subject := by
  unfold repeated
  split <;> rfl

/-- The messages are repeated. -/
@[simp] theorem messages_repeated (r : Ruling) (c : Context) :
    (r.repeated c).messages = r.messages := by
  unfold repeated
  split <;> rfl

/-- A ruling that is repeated changes the status at most. -/
theorem context_repeated (r : Ruling) (c : Context) :
    ((r.repeated c).recordIn (r.recordIn c).context).context =
      (r.recordIn c).context.withStatus
        ((r.repeated c).verdict.getD (r.recordIn c).context.status) :=
  context_recordIn_again (subject_repeated r c) (messages_repeated r c) c

/-- A ruling that is repeated leaves the status, unless the update was left to wait and an error has
been reported. -/
theorem status_repeated {r : Ruling} (known : r.verdict = none ∨
      r.verdict = some .failedAuthentication ∨ r.verdict = some .pendingAuthentication)
    (c : Context) :
    ((r.repeated c).recordIn (r.recordIn c).context).context.status =
      if r.verdict = some .pendingAuthentication ∧ (r.recordIn c).context.hasErrors = true then
        .failedAuthentication
      else (r.recordIn c).context.status := by
  rw [status_recordIn, status_recordIn, repeated]
  cases (r.recordIn c).context.hasErrors <;> rcases known with kept | failed | waits
  case false.inl | true.inl => simp [final, kept]
  case false.inr.inl | true.inr.inl => simp [final, failed]
  case false.inr.inr | true.inr.inr => simp [final, waits]

/-- A ruling that is recorded twice is recorded once. -/
theorem recordIn_recordIn (r : Ruling) (c : Context) :
    r.recordIn (r.recordIn c).context = r.recordIn c := by
  have context : (r.recordIn (r.recordIn c).context).context = (r.recordIn c).context := by
    rw [context_recordIn_again rfl rfl, status_recordIn]
    apply Context.ext
    · rfl
    · rw [status_recordIn]
      cases hv : r.verdict <;> simp [Context.withStatus]
    · rfl
    · rfl
  exact congrArg (Evaluation.mk r) context

end Ruling

namespace Authority

variable {σ : Type} (a : Authority) (o : Origin) (u : Update) (source : Source σ)

/-- Of a context a verdict depends on no more than whether an error was reported. -/
theorem verdict?_congr {c d : Context} (h : d.hasErrors = c.hasErrors) (subject : Subject)
    (reasons : List Message) : a.verdict? u d subject reasons = a.verdict? u c subject reasons := by
  rw [verdict?, verdict?, Deferral.isPending, Deferral.isPending, h]

/-- After an error nothing waits. -/
theorem verdict?_of_hasErrors (c : Context) {d : Context} (h : d.hasErrors = true)
    (subject : Subject) (reasons : List Message) :
    a.verdict? u d subject reasons =
      (a.verdict? u c subject reasons).map fun _ => .failedAuthentication := by
  have settled : a.deferral.isPending u d subject = false := by
    rw [Deferral.isPending, h]
    rfl
  rw [verdict?, verdict?, settled]
  cases reasons.isEmpty <;> cases a.deferral.isPending u c subject <;> rfl

section Conclusion

variable {c d : Context} (grown : c.hasErrors = true → d.hasErrors = true)

include grown

/-- Once more errors may have been reported, the same reasons lead to the same conclusion, except
that nothing waits after an error. -/
theorem conclude_again (subject : Subject) (reasons : List Message) (asked : List String) :
    a.conclude u d subject reasons asked =
      if d.hasErrors then (a.conclude u c subject reasons asked).final
      else a.conclude u c subject reasons asked := by
  cases hd : d.hasErrors with
  | true =>
    rw [conclude, verdict?_of_hasErrors a u c hd]
    rfl
  | false =>
    have same : d.hasErrors = c.hasErrors := by
      cases hc : c.hasErrors with
      | true => rw [grown hc]
      | false => rw [hd]
    rw [conclude, verdict?_congr a u same]
    rfl

variable (steady : ∀ strategy ∈ a.strategies, strategy.Steady u source)

include steady

omit grown in
/-- Steady strategies answer alike in every context. -/
theorem run_answers_of_steady (c d : Context) (s t : σ) :
    ((a.answers u d).run source t).1 = ((a.answers u c).run source s).1 := by
  rw [run_answers_of_settled a u d source fun strategy hmem => steady strategy hmem d d,
    run_answers_of_settled a u c source fun strategy hmem => steady strategy hmem c c]
  apply List.map_congr_left
  intro strategy hmem
  rw [steady strategy (List.mem_filter.mp hmem).1 d c t s]

/-- Steady strategies lead to the same judgement, except that nothing waits after an error. -/
theorem run_judge_again (s t : σ) :
    ((a.judge o u d).run source t).1 =
      if d.hasErrors then ((a.judge o u c).run source s).1.final
      else ((a.judge o u c).run source s).1 := by
  rcases Nat.lt_or_ge a.maxPasswords u.credentials.passwords.length with hp | hp
  · rw [run_judge_of_lt a o u d source t hp, run_judge_of_lt a o u c source s hp]
    exact conclude_again a u grown _ _ _
  · rw [run_judge_of_le a o u d source t hp, run_judge_of_le a o u c source s hp,
      run_answers_of_steady a u source steady c d s t]
    exact conclude_again a u grown _ _ _

variable (users : source.SteadyUsers)

include users

omit grown steady in
/-- A request for override is decided alike whenever the users are asked for. -/
theorem run_override_of_steady (hu : u.isOverride = true) (s t : σ) :
    ((a.override o u).run source t).1 = ((a.override o u).run source s).1 := by
  by_cases clear : a.overrideObstacles o u.credentials.overrides = []
  · obtain ⟨v, opens⟩ := (exists_opens_iff hu).mpr clear
    rw [run_override_of_opens opens, run_override_of_opens opens,
      users.attempts_eq v.candidates t s]
  · rw [override_of_obstacle a o u clear]
    rfl

/-- With steady strategies and users an update is decided as before, except that nothing waits after
an error. -/
theorem run_decide_again (s t : σ) :
    ((a.decide o u d).run source t).1 =
      if d.hasErrors then ((a.decide o u c).run source s).1.final
      else ((a.decide o u c).run source s).1 := by
  by_cases ho : o.channel = .internal
  · rw [decide_of_internal a o u d ho, decide_of_internal a o u c ho]
    split <;> rfl
  · cases hu : u.isOverride with
    | true =>
      rw [decide_of_isOverride a o u d ho hu, decide_of_isOverride a o u c ho hu,
        run_override_of_steady a o u source users hu s t]
      -- A request for override never waits, so that its ruling is final as it is.
      rcases run_override_cases a o u source s with granted | ⟨reasons, -, refused⟩
      · rw [granted]
        split <;> rfl
      · rw [refused]
        split <;> rfl
    | false =>
      rw [decide_of_not_isOverride a o u d ho hu, decide_of_not_isOverride a o u c ho hu]
      exact run_judge_again a o u source grown steady s t

end Conclusion

/-- After an evaluation every other one in a context with the same errors repeats the ruling. -/
theorem run_authenticate_again (c : Context)
    (steady : ∀ strategy ∈ a.strategies, strategy.Steady u source) (users : source.SteadyUsers)
    (s t : σ) {d : Context} (h : d.hasErrors =
      (((a.decide o u c).run source s).1.recordIn c).context.hasErrors) :
    ((a.authenticate o u d).run source t).1 =
      (((a.decide o u c).run source s).1.repeated c).recordIn d := by
  have grown : c.hasErrors = true → d.hasErrors = true := by
    intro errors
    rw [h, Ruling.hasErrors_recordIn]
    exact .inl errors
  rw [run_authenticate, run_decide_again a o u source grown steady users s t, h]
  rfl

/-- When strategies and users answer alike whenever they are asked, a second evaluation in the
context of the first one gives the same subject and leaves the same messages. The status stays as
well, unless the first evaluation left the update to wait and reported an error: then the update has
failed. A third evaluation is the second one over again and leaves the same context. -/
theorem authenticate_settles (a : Authority) (o : Origin) (u : Update) (c : Context)
    (source : Source σ) (steady : ∀ strategy ∈ a.strategies, strategy.Steady u source)
    (users : source.SteadyUsers) (s t w : σ) :
    let e := ((a.authenticate o u c).run source s).1
    let f := ((a.authenticate o u e.context).run source t).1
    let g := ((a.authenticate o u f.context).run source w).1
    let newError := ∃ m ∈ e.context.messages, m ∉ c.messages ∧ m.isError = true
    f.subject = e.subject ∧ f.context.messages = e.context.messages ∧
    (e.verdict = some .pendingAuthentication → e.context.status = .pendingAuthentication ∧
      (f.context.status = .failedAuthentication ↔ newError)) ∧
    (¬(e.verdict = some .pendingAuthentication ∧ newError) →
      f.context.status = e.context.status) ∧
    g = f ∧ g.context = f.context := by
  intro e f g newError
  have known := run_decide_cases a o u c source s
  have again {d : Context} := run_authenticate_again a o u source c steady users s (d := d)
  have he : e = ((a.decide o u c).run source s).1.recordIn c := run_authenticate a o u c source s
  generalize ((a.decide o u c).run source s).1 = r at known again he
  have hf : f = (r.repeated c).recordIn (r.recordIn c).context := by
    rw [← he]
    exact again t (by rw [he])
  have context := Ruling.context_repeated r c
  rw [← hf] at context
  have third : g = f := by
    have hg : g = (r.repeated c).recordIn f.context := again w (by rw [context]; rfl)
    rw [hg, hf, Ruling.recordIn_recordIn]
  have status := Ruling.status_repeated (known.imp And.left (·.2.imp_right And.left)) c
  rw [← hf] at status
  have errors (waits : r.verdict = some .pendingAuthentication) :
      (r.recordIn c).context.hasErrors = true ↔ newError := by
    have clear : c.hasErrors = false := by
      rcases known with ⟨kept, -⟩ | ⟨-, failed | ⟨-, clear⟩⟩
      · cases kept.symm.trans waits
      · cases failed.symm.trans waits
      · exact clear
    simp only [newError, he]
    exact Ruling.hasErrors_recordIn_of_clear r clear
  rw [he, Ruling.verdict_recordIn, Ruling.subject_recordIn]
  refine ⟨?_, ?_, fun waits => ?_, fun settled => ?_, third, congrArg _ third⟩
  · rw [hf]
    exact Ruling.subject_repeated r c
  · rw [context]
    rfl
  · have pending : (r.recordIn c).context.status = .pendingAuthentication := by
      rw [Ruling.status_recordIn, waits, Option.getD_some]
    refine ⟨pending, ?_⟩
    rw [status, pending, ← errors waits]
    simp [waits]
  · rw [status, if_neg]
    rintro ⟨waits, reported⟩
    exact settled ⟨waits, (errors waits).mp reported⟩

/-- Two parties of which the second one refuses with a given message, and both may be waited for. -/
private def contestants (refusal : Message) : List Strategy :=
  [{ Script.passing "Y" [] with deferrable := [.route] }.strategy,
    { Script.failingWith "N" [refusal] with deferrable := [.route] }.strategy]

/-- The parties have different names. -/
private theorem nodup_contestants (refusal : Message) :
    ((contestants refusal).map (·.name)).Nodup := by
  show ["Y", "N"].Nodup
  decide

/-- The authority of the two parties. -/
private def contested (refusal : Message) : Authority where
  strategies := contestants refusal
  distinct := nodup_contestants refusal
  registry := ⟨[]⟩
  trusts := Range.trusts []
  maxPasswords := 20
  restricted := true

/-- A route is created. -/
private def contestedRoute : Update :=
  .start ⟨1⟩ .create { objectType := .route, key := ⟨"192.0.2.0/24AS65000"⟩ }

/-- Scripts answer alike whenever they are asked. -/
private theorem steady_contested (refusal : Message) (source : Source Unit) :
    ∀ strategy ∈ (contested refusal).strategies, strategy.Steady contestedRoute source := by
  intro strategy hmem
  simp only [contested, contestants, List.mem_cons, List.not_mem_nil, or_false] at hmem
  rcases hmem with rfl | rfl <;> exact fun _ _ _ _ => rfl

/-- The context of the route after the two parties were heard. -/
private def heard (refusal : Message) (c : Context) : Context :=
  (((contested refusal).authenticate Trial.trustedOrigin contestedRoute c).run
    MemoryStore.empty.answers.source ()).1.context

/-- A refusal that is an error. -/
private def objection : Message := ⟨.error, "no"⟩

/-- A refusal that is a warning. -/
private def doubt : Message := ⟨.warning, "no"⟩

/-- A route that waits has failed at the second hearing when the refusal was an error, and still
waits when it was a warning. The third hearing leaves it as it is in both cases. -/
theorem second_hearing_settles :
    let c := Context.fresh contestedRoute
    (heard objection c).status = .pendingAuthentication ∧
      (heard objection (heard objection c)).status = .failedAuthentication ∧
      heard objection (heard objection (heard objection c)) = heard objection (heard objection c) ∧
    (heard doubt c).status = .pendingAuthentication ∧
      (heard doubt (heard doubt c)).status = .pendingAuthentication ∧
      heard doubt (heard doubt (heard doubt c)) = heard doubt (heard doubt c) := by
  intro c
  have settles (refusal : Message) := authenticate_settles (contested refusal) Trial.trustedOrigin
    contestedRoute c MemoryStore.empty.answers.source (steady_contested refusal _)
    (Answers.steadyUsers_source _) () () ()
  obtain ⟨-, -, waits, -, -, third⟩ := settles objection
  obtain ⟨-, -, -, stays, -, third'⟩ := settles doubt
  obtain ⟨pending, failed⟩ := waits rfl
  refine ⟨pending, failed.mpr ⟨objection, List.mem_cons_self, nofun, rfl⟩, third, rfl, ?_, third'⟩
  apply stays
  rintro ⟨-, m, hm, -, isError⟩
  obtain rfl : m = doubt := List.mem_singleton.mp hm
  cases isError

end Authority

end RegistryConsent
