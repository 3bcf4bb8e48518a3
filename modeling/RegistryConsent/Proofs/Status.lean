import RegistryConsent.Proofs.Verdict

/-!
# When the status changes

An evaluation sets the status of an update in two cases: when a message speaks against it on the
normal path, and when its request for override is not granted. In the first case it waits if it is a
creation without earlier errors, only strategies that declare its type have failed and one of them
has passed; otherwise it has failed. In all other cases the status stays.
-/

namespace RegistryConsent.Authority

variable {σ : Type}

/-- An update may wait for the strategies that list its type. -/
theorem mayWait_iff (a : Authority) (u : Update) (c : Context) (subject : Subject) :
    let declares (name : String) : Prop :=
      ∃ strategy ∈ a.strategies, strategy.name = name ∧ u.objectType ∈ strategy.deferrable
    a.MayWait u c subject ↔
      u.action = .create ∧ c.hasErrors = false ∧
      (∀ name ∈ subject.failed.toList, declares name) ∧
      ∃ name ∈ subject.passed.toList, declares name := by
  simp only [MayWait, Deferral.mem_declaring_iff]
  exact and_left_comm

/-- An evaluation leaves an update to wait exactly when the normal path has a message about it, it
creates an object, no error was there before, only strategies that declare its type have failed and
one of them has passed. It has the update fail exactly when the normal path has a message about it
and one of these conditions is missing, or a request for override is not granted. Otherwise the
status stays. -/
theorem status_iff_declared (a : Authority) (o : Origin) (u : Update) (c : Context)
    (source : Source σ) (s : σ) :
    let e := ((a.authenticate o u c).run source s).1
    let declares (name : String) : Prop :=
      ∃ strategy ∈ a.strategies, strategy.name = name ∧ u.objectType ∈ strategy.deferrable
    let waits := u.action = .create ∧ c.hasErrors = false ∧
      (∀ name ∈ e.subject.failed.toList, declares name) ∧
      ∃ name ∈ e.subject.passed.toList, declares name
    let opposed := o.channel ≠ .internal ∧ u.isOverride = false ∧ e.messages ≠ []
    let refused := o.channel ≠ .internal ∧ u.isOverride = true ∧
      e.subject.has .overrideMaintainer = false
    (e.verdict = some .pendingAuthentication ↔ opposed ∧ waits) ∧
    (e.verdict = some .failedAuthentication ↔ (opposed ∧ ¬waits) ∨ refused) ∧
    (e.verdict = none ↔ ¬opposed ∧ ¬refused) ∧
    e.context.status = e.verdict.getD c.status := by
  intro e declares waits opposed refused
  have he : e = ((a.decide o u c).run source s).1.recordIn c := run_authenticate a o u c source s
  have status : e.context.status = e.verdict.getD c.status := by
    rw [he]
    exact Ruling.status_recordIn _ c
  rw [← and_assoc, ← and_assoc]
  refine ⟨?_, status⟩
  by_cases ho : o.channel = .internal
  · have verdict : e.verdict = none := by
      rw [he, decide_of_internal a o u c ho]
      rfl
    simp [verdict, opposed, refused, ho]
  · cases hu : u.isOverride with
    | true =>
      have verdict : e.verdict =
          if e.subject.has .overrideMaintainer then none else some .failedAuthentication := by
        rw [he, decide_of_isOverride a o u c ho hu]
        exact verdict_override_eq a o u source s
      cases hg : e.subject.has .overrideMaintainer <;>
        simp [verdict, opposed, refused, ho, hu, hg]
    | false =>
      have mayWait : a.MayWait u c e.subject ↔ waits := mayWait_iff a u c e.subject
      have judged : e = ((a.judge o u c).run source s).1.recordIn c := by
        rw [he, decide_of_not_isOverride a o u c ho hu]
      have outcome : (e.messages = [] ∧ e.verdict = none) ∨
          (e.messages ≠ [] ∧ waits ∧ e.verdict = some .pendingAuthentication) ∨
          (e.messages ≠ [] ∧ ¬waits ∧ e.verdict = some .failedAuthentication) := by
        rw [← mayWait, judged]
        exact verdict_judge_cases a o u c source s
      rcases outcome with ⟨said, verdict⟩ | ⟨said, wait, verdict⟩ | ⟨said, wait, verdict⟩
      · simp [verdict, opposed, refused, said, hu]
      · simp [verdict, opposed, refused, said, ho, hu, wait]
      · simp [verdict, opposed, refused, said, ho, hu, wait]

end RegistryConsent.Authority
