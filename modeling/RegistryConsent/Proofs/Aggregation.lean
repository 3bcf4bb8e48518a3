import Mathlib.Data.List.Nodup
import RegistryConsent.Proofs.Decision
import RegistryConsent.Strategy.Scripted
import RegistryConsent.Trial

/-!
# What is made of the answers

On the normal path every strategy that supports an update is asked once, in order, and no other is.
Those that return records have passed and the rest have failed; the maintainers among the records
confer what the registry lists for them, and the messages of the refusals come in the order of the
strategies. With too many passwords nobody is asked.
-/

namespace RegistryConsent

namespace Answer

/-- A strategy passes by returning records. -/
theorem passed_iff (answer : Answer) (name : String) :
    answer.passed = true ∧ answer.strategy = name ↔ ∃ records, answer = ⟨name, .ok records⟩ := by
  obtain ⟨strategy, outcome⟩ := answer
  cases outcome <;> simp [passed, Except.isOk, Except.toBool]

/-- A strategy fails by refusing. -/
theorem failed_iff (answer : Answer) (name : String) :
    answer.passed = false ∧ answer.strategy = name ↔
      ∃ refusal, answer = ⟨name, .error refusal⟩ := by
  obtain ⟨strategy, outcome⟩ := answer
  cases outcome <;> simp [passed, Except.isOk, Except.toBool]

/-- Only a strategy that passes returns records. -/
theorem mem_records_iff (answer : Answer) (r : Record) :
    r ∈ answer.records ↔ ∃ records, answer.outcome = .ok records ∧ r ∈ records := by
  obtain ⟨strategy, outcome⟩ := answer
  cases outcome <;> simp [records, Except.toOption]

end Answer

namespace Authority

/-- What an evaluation makes of the answers of the strategies that were asked. -/
structure Aggregates (a : Authority) (o : Origin) (u : Update) (said : List Answer)
    (e : Evaluation) : Prop where
  /-- The strategies were asked in the order of their answers. -/
  asked : e.asked = said.map (·.strategy)
  /-- Those have passed that returned records. -/
  passed (name : String) :
    name ∈ e.subject.passed.toList ↔ ∃ records, ⟨name, .ok records⟩ ∈ said
  /-- Those have failed that refused. -/
  failed (name : String) :
    name ∈ e.subject.failed.toList ↔ ∃ refusal, ⟨name, .error refusal⟩ ∈ said
  /-- None has both passed and failed. -/
  disjoint (name : String) :
    name ∈ e.subject.passed.toList → name ∉ e.subject.failed.toList
  /-- Each maintainer that was returned confers what the registry lists for its key, except one that
  the update itself creates. -/
  principals (p : Principal) : p ∈ e.subject.principals.toList ↔
    ∃ name records r, ⟨name, .ok records⟩ ∈ said ∧ r ∈ records ∧ r.objectType = .mntner ∧
      ¬(u.action = .create ∧ u.objectType = .mntner ∧ (u.key == r.key) = true) ∧
      p ∈ (a.registry.lookup r.key).toList
  /-- The messages are those of the refusals, in order, and behind them that a principal is
  conferred from outside the trusted network; each is there once. -/
  messages : e.messages = List.eraseDups (said.flatMap (·.messages) ++
    if e.subject.principals.toList ≠ [] ∧ a.restricted = true ∧
        (o.channel = .email ∨ a.trusts o.sender = false)
      then [.outsideRegistryNetwork] else [])

section Answers

variable (a : Authority) (o : Origin) (u : Update) (said : List Answer)

/-- The strategies that have passed are those that returned records. -/
theorem mem_passed_iff (name : String) :
    name ∈ (a.subjectOf u said).passed.toList ↔ ∃ records, ⟨name, .ok records⟩ ∈ said := by
  simp only [mem_passed_subjectOf, Answer.passed_iff]
  constructor
  · rintro ⟨_, hmem, records, rfl⟩
    exact ⟨records, hmem⟩
  · rintro ⟨records, hmem⟩
    exact ⟨_, hmem, records, rfl⟩

/-- The strategies that have failed are those that refused. -/
theorem mem_failed_iff (name : String) :
    name ∈ (a.subjectOf u said).failed.toList ↔ ∃ refusal, ⟨name, .error refusal⟩ ∈ said := by
  simp only [mem_failed_subjectOf, Answer.failed_iff]
  constructor
  · rintro ⟨_, hmem, refusal, rfl⟩
    exact ⟨refusal, hmem⟩
  · rintro ⟨refusal, hmem⟩
    exact ⟨_, hmem, refusal, rfl⟩

/-- Strategies of different names do not both pass and fail. -/
theorem not_mem_failed_of_mem_passed (hn : (said.map (·.strategy)).Nodup) (name : String)
    (hpassed : name ∈ (a.subjectOf u said).passed.toList) :
    name ∉ (a.subjectOf u said).failed.toList := by
  intro hfailed
  obtain ⟨records, hok⟩ := (mem_passed_iff a u said name).mp hpassed
  obtain ⟨refusal, herror⟩ := (mem_failed_iff a u said name).mp hfailed
  have same : (⟨name, .ok records⟩ : Answer) = ⟨name, .error refusal⟩ :=
    List.inj_on_of_nodup_map hn hok herror rfl
  cases same

/-- The principals of a subject are those of the maintainers that were returned, except of one that
the update creates. -/
theorem mem_principals_subjectOf (p : Principal) :
    p ∈ (a.subjectOf u said).principals.toList ↔
      ∃ name records r, ⟨name, .ok records⟩ ∈ said ∧ r ∈ records ∧ r.objectType = .mntner ∧
        ¬(u.action = .create ∧ u.objectType = .mntner ∧ (u.key == r.key) = true) ∧
        p ∈ (a.registry.lookup r.key).toList := by
  rw [principals_subjectOf]
  simp only [mem_principalsOf, List.mem_flatMap, Answer.mem_records_iff,
    ← Update.createsMaintainer_iff, Bool.not_eq_true]
  constructor
  · rintro ⟨r, ⟨⟨name, _⟩, hmem, records, rfl, hr⟩, hconferred⟩
    exact ⟨name, records, r, hmem, hr, hconferred⟩
  · rintro ⟨name, records, r, hmem, hr, hconferred⟩
    exact ⟨r, ⟨_, hmem, records, rfl, hr⟩, hconferred⟩

/-- What is concluded from answers under different names aggregates them. -/
theorem aggregates_concludeFrom (c : Context) (hn : (said.map (·.strategy)).Nodup) :
    a.Aggregates o u said ((a.concludeFrom o u c said).recordIn c) where
  asked := rfl
  passed := mem_passed_iff a u said
  failed := mem_failed_iff a u said
  disjoint := not_mem_failed_of_mem_passed a u said hn
  principals := mem_principals_subjectOf a u said
  messages := by
    change a.reasons o said (a.subjectOf u said) = _
    simp only [reasons_eq, violatesRestriction_iff]
    rfl

end Answers

section Judged

variable (a : Authority) (o : Origin) (u : Update) (c : Context) (answers : Answers)

/-- Asking the strategies puts the questions of those that support the update, in order. -/
theorem questions_answers :
    (a.answers u c).questions answers.source () =
      (a.strategies.filter (·.supports u)).flatMap fun strategy =>
        (strategy.authenticate u c).questions answers.source () := by
  simp only [Authority.answers, Consult.questions_mapM, Consult.questions_bind,
    Consult.questions_pure, List.append_nil]

/-- The strategies that support an update answer under different names. -/
theorem nodup_strategy_answers :
    (((a.answers u c).under answers).map (·.strategy)).Nodup := by
  have names : ((a.answers u c).under answers).map (·.strategy) =
      (a.strategies.filter (·.supports u)).map (·.name) := by
    rw [under_answers, List.map_map]
    rfl
  rw [names]
  exact a.distinct.sublist (List.filter_sublist.map _)

end Judged

/-- On the normal path every strategy that supports an update is asked once, in order, and no other
is; the evaluation aggregates their answers. With more passwords than are allowed nobody is asked
and nothing but this is said. The messages that are new to the context follow those that were
there. -/
theorem authenticate_aggregates (a : Authority) (o : Origin) (u : Update) (c : Context)
    (answers : Answers) (ho : o.channel ≠ .internal) (hu : u.isOverride = false) :
    let e := (a.authenticate o u c).under answers
    let questions := (a.authenticate o u c).questions answers.source ()
    let supporting := a.strategies.filter (·.supports u)
    let said : List Answer := supporting.map fun strategy =>
      ⟨strategy.name, (strategy.authenticate u c).under answers⟩
    (a.maxPasswords < u.credentials.passwords.length →
      questions = [] ∧ e.asked = [] ∧ e.subject = {} ∧ e.messages = [.tooManyPasswords]) ∧
    (u.credentials.passwords.length ≤ a.maxPasswords →
      (questions = supporting.flatMap fun strategy =>
        (strategy.authenticate u c).questions answers.source ()) ∧
      a.Aggregates o u said e) ∧
    e.context.messages = c.messages ++ (e.messages.filter (· ∉ c.messages)).eraseDups := by
  intro e questions supporting said
  have he : e = ((a.judge o u c).under answers).recordIn c := by
    simp only [e, under_authenticate, decide_of_not_isOverride a o u c ho hu]
  have hq : questions = (a.judge o u c).questions answers.source () := by
    simp only [questions, questions_authenticate, decide_of_not_isOverride a o u c ho hu]
  refine ⟨?_, ?_, ?_⟩
  · intro hmany
    rw [he, hq, judge_of_lt a o u c hmany]
    exact ⟨rfl, rfl, rfl, rfl⟩
  · intro hfew
    have hs : (a.answers u c).under answers = said := under_answers a u c answers
    have hn := nodup_strategy_answers a u c answers
    rw [he, hq, judge_of_le a o u c hfew, Consult.under_map, Consult.questions_map,
      questions_answers, hs]
    rw [hs] at hn
    exact ⟨rfl, aggregates_concludeFrom a o u said c hn⟩
  · rw [he]
    exact Ruling.messages_recordIn _ c

/-- A strategy that passes for the power maintainer in two spellings, one that refuses, and one that
judges maintainers only. -/
private def panel : Authority where
  strategies := [
    (Script.passing "A" [{ objectType := .mntner, key := ⟨"rir-power-mnt"⟩ },
      { objectType := .mntner, key := ⟨"RIR-POWER-MNT"⟩ }]).strategy,
    { Script.failing "B" with judges := some [.mntner] }.strategy,
    (Script.failing "C").strategy]
  distinct := by decide +kernel
  registry := ⟨[(⟨"RIR-POWER-MNT"⟩, .single .powerMaintainer)]⟩
  trusts := Range.trusts []
  maxPasswords := 20
  restricted := true

/-- A person is removed. -/
private def removal : Update :=
  .start ⟨1⟩ .delete { objectType := .person, key := ⟨"JD1-TEST"⟩ }

/-- Of three strategies the two that support an update are asked, and the refusal comes in front of
the message about the power maintainer. -/
theorem panel_aggregates :
    let e := (panel.authenticate Trial.untrustedOrigin removal (.fresh removal)).under
      MemoryStore.empty.answers
    Trial.untrustedOrigin.channel ≠ .internal ∧ removal.isOverride = false ∧
      removal.credentials.passwords.length ≤ panel.maxPasswords ∧
      e.asked = ["A", "C"] ∧ "A" ∈ e.subject.passed.toList ∧ "A" ∉ e.subject.failed.toList ∧
      "C" ∈ e.subject.failed.toList ∧ .powerMaintainer ∈ e.subject.principals.toList ∧
      e.context.messages = [⟨.error, "C rejected the update"⟩, .outsideRegistryNetwork] := by
  obtain ⟨-, few, recorded⟩ := authenticate_aggregates panel Trial.untrustedOrigin removal
    (.fresh removal) MemoryStore.empty.answers nofun rfl
  obtain ⟨-, aggregates⟩ := few (by decide)
  have passed := (aggregates.passed "A").mpr ⟨_, List.mem_cons_self⟩
  refine ⟨nofun, rfl, by decide, aggregates.asked, passed, aggregates.disjoint "A" passed,
    ?_, ?_, ?_⟩
  · exact (aggregates.failed "C").mpr ⟨_, List.mem_cons_of_mem _ List.mem_cons_self⟩
  · refine (aggregates.principals .powerMaintainer).mpr ⟨"A", _, _, List.mem_cons_self,
      List.mem_cons_self, rfl, ?_, List.mem_singleton_self _⟩
    rintro ⟨created, -⟩
    cases created
  · rw [recorded, aggregates.messages]
    rfl

end Authority

end RegistryConsent
