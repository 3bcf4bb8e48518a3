import RegistryConsent.Proofs.Verdict

/-!
# What the history of a context explains

The context of an update is written by the stages that process it and by every authority that
evaluates it. Its messages are what was said in all of these steps, each once and in the order in
which it first came, so that none is ever taken back. An evaluation that rejects the update says why;
one that does not leaves status and messages alone, but for the notice that override was used.
-/

namespace RegistryConsent

namespace Authority

variable {σ : Type} (a : Authority) (o : Origin) (u : Update) (c : Context)
  (source : Source σ) (s : σ)

/-- A decision rejects an update for some reason, and leaves it to wait only when no error was there
before. Otherwise it says nothing, but for the notice that goes with a granted override. -/
theorem run_decide_cases :
    let r := ((a.decide o u c).run source s).1
    (r.verdict = none ∧ r.messages =
      if o.channel ≠ .internal ∧ u.isOverride = true ∧ r.subject.has .overrideMaintainer = true then
        [.overrideUsed]
      else []) ∨
    (r.messages ≠ [] ∧ (r.verdict = some .failedAuthentication ∨
      r.verdict = some .pendingAuthentication ∧ c.hasErrors = false)) := by
  intro r
  by_cases ho : o.channel = .internal
  · have internal : r = { subject := .ofPrincipal .overrideMaintainer } := by
      simp only [r, decide_of_internal a o u c ho, Consult.run_pure]
    rw [internal]
    simp [ho]
  · cases hu : u.isOverride with
    | true =>
      have requested : r = ((a.override o u).run source s).1 := by
        simp only [r, decide_of_isOverride a o u c ho hu]
      rw [requested]
      rcases run_override_cases a o u source s with granted | ⟨reasons, some, refused⟩
      · rw [granted]
        exact .inl ⟨rfl, (if_pos ⟨ho, rfl, rfl⟩).symm⟩
      · rw [refused]
        exact .inr ⟨some, .inl rfl⟩
    | false =>
      have judged : r = ((a.judge o u c).run source s).1 := by
        simp only [r, decide_of_not_isOverride a o u c ho hu]
      rw [judged]
      rcases verdict_judge_cases a o u c source s with ⟨none, kept⟩ | ⟨some, wait, waits⟩ |
        ⟨some, -, failed⟩
      · exact .inl ⟨kept, by simpa using none⟩
      · exact .inr ⟨some, .inr ⟨waits, wait.1⟩⟩
      · exact .inr ⟨some, .inl failed⟩

end Authority

/-- What an evaluation of an update leaves in its context is explained. -/
structure Evaluation.Explained (e : Evaluation) (o : Origin) (u : Update) (c : Context) : Prop where
  /-- The subject that is recorded is the one that is returned. -/
  subject : e.context.subject = some e.subject
  /-- An update that is rejected has failed or waits, and all that is said about it is there. -/
  rejected : e.verdict ≠ none →
    (e.context.status = .failedAuthentication ∨ e.context.status = .pendingAuthentication) ∧
    e.messages ≠ [] ∧ ∀ m ∈ e.messages, m ∈ e.context.messages
  /-- Otherwise the status stays, and the messages but for the notice of a granted override. -/
  kept : e.verdict = none →
    e.context.status = c.status ∧
    e.context.messages =
      if o.channel ≠ .internal ∧ u.isOverride = true ∧
          e.subject.has .overrideMaintainer = true then
        (c.addMessage .overrideUsed).messages
      else c.messages
  /-- After an error an update is not left to wait. -/
  settled : c.hasErrors = true → e.context.status = .pendingAuthentication →
    e.verdict = none ∧ c.status = .pendingAuthentication

/-- Every evaluation is explained. -/
theorem Authority.explained_authenticate {σ : Type} (a : Authority) (o : Origin) (u : Update)
    (c : Context) (source : Source σ) (s : σ) :
    ((a.authenticate o u c).run source s).1.Explained o u c := by
  have cases := a.run_decide_cases o u c source s
  rw [run_authenticate]
  generalize ((a.decide o u c).run source s).1 = r at cases
  have status : (r.recordIn c).context.status = r.verdict.getD c.status :=
    Ruling.status_recordIn r c
  have messages : (r.recordIn c).context.messages = (c.addMessages r.messages).messages :=
    (Ruling.messages_recordIn r c).trans (Context.messages_addMessages c r.messages).symm
  constructor
  case subject => rfl
  case rejected =>
    intro rejected
    rcases cases with ⟨kept, -⟩ | ⟨some, verdict⟩
    · exact absurd kept rejected
    · refine ⟨?_, some, fun m hm => (Ruling.mem_messages_recordIn r c m).mpr (.inr hm)⟩
      rcases verdict with failed | ⟨waits, -⟩
      · exact .inl (by rw [status, failed, Option.getD_some])
      · exact .inr (by rw [status, waits, Option.getD_some])
  case kept =>
    intro kept
    rw [Ruling.verdict_recordIn] at kept
    rcases cases with ⟨-, said⟩ | ⟨-, failed | ⟨waits, -⟩⟩
    · refine ⟨by rw [status, kept, Option.getD_none], ?_⟩
      rw [messages, said, Ruling.subject_recordIn]
      split <;> rfl
    · cases failed.symm.trans kept
    · cases waits.symm.trans kept
  case settled =>
    intro errors pending
    rw [status] at pending
    rcases cases with ⟨kept, -⟩ | ⟨-, failed | ⟨-, clear⟩⟩
    · rw [kept, Option.getD_none] at pending
      exact ⟨kept, pending⟩
    · rw [failed, Option.getD_some] at pending
      cases pending
    · rw [errors] at clear
      cases clear

/-- One step in the processing of an update. -/
inductive Step (σ : Type) where
  /-- A stage of the processing adds a message. -/
  | message (m : Message)
  /-- A stage of the processing sets the status. -/
  | status (s : Status)
  /-- An authority evaluates the update with the answers of a source. -/
  | evaluation (a : Authority) (o : Origin) (source : Source σ) (s : σ)

namespace Context

variable {σ : Type} (u : Update)

/-- The context of an update after one more step. -/
def after (c : Context) : Step σ → Context
  | .message m => c.addMessage m
  | .status s => c.withStatus s
  | .evaluation a o source s => ((a.authenticate o u c).run source s).1.context

/-- The context of an update after some steps. -/
def afterAll (c : Context) (steps : List (Step σ)) : Context := steps.foldl (after u) c

/-- What is said in a step. -/
def said (c : Context) : Step σ → List Message
  | .message m => [m]
  | .status _ => []
  | .evaluation a o source s => ((a.authenticate o u c).run source s).1.messages

/-- What is said in some steps, in order. -/
def saidAll : Context → List (Step σ) → List Message
  | _, [] => []
  | c, step :: steps => said u c step ++ saidAll (after u c step) steps

/-- A step adds what is said in it to the messages. -/
theorem messages_after (c : Context) (step : Step σ) :
    (after u c step).messages = (c.addMessages (said u c step)).messages := by
  cases step with
  | message m => rfl
  | status s => rfl
  | evaluation a o source s =>
    rw [messages_addMessages, after, said, Authority.run_authenticate]
    exact Ruling.messages_recordIn _ c

/-- Which messages are added does not depend on anything but the messages that are there. -/
theorem messages_addMessages_congr {c d : Context} (h : c.messages = d.messages)
    (ms : List Message) : (c.addMessages ms).messages = (d.addMessages ms).messages := by
  rw [messages_addMessages, messages_addMessages, h]

/-- Some steps add what is said in all of them to the messages. -/
theorem messages_afterAll (c : Context) (steps : List (Step σ)) :
    (afterAll u c steps).messages = (c.addMessages (saidAll u c steps)).messages := by
  induction steps generalizing c with
  | nil => rfl
  | cons step steps ih =>
    calc (afterAll u (after u c step) steps).messages
        = ((after u c step).addMessages (saidAll u (after u c step) steps)).messages := ih _
      _ = ((c.addMessages (said u c step)).addMessages
            (saidAll u (after u c step) steps)).messages :=
          messages_addMessages_congr (messages_after u c step) _
      _ = (c.addMessages (saidAll u c (step :: steps))).messages := by
          rw [saidAll, addMessages, addMessages, addMessages, List.foldl_append]

/-- The messages that were there stay in front. -/
theorem messages_prefix_after (c : Context) (step : Step σ) :
    c.messages <+: (after u c step).messages := by
  rw [messages_after, messages_addMessages]
  exact List.prefix_append _ _

/-- An error that was reported stays reported. -/
theorem hasErrors_after {c : Context} (h : c.hasErrors = true) (step : Step σ) :
    (after u c step).hasErrors = true := by
  rw [hasErrors, List.any_eq_true] at h ⊢
  obtain ⟨m, hm, isError⟩ := h
  exact ⟨m, (messages_prefix_after u c step).subset hm, isError⟩

/-- After some steps the messages of an update are what was said in them, each once and in the order
in which it first came. Any further step leaves them in front of its own, so that no error is taken
back, and any further evaluation is explained. -/
theorem history_explained (u : Update) (steps : List (Step σ)) :
    let c := afterAll u (.fresh u) steps
    c.messages = (saidAll u (.fresh u) steps).eraseDups ∧ c.messages.Nodup ∧
    (∀ step : Step σ, c.messages <+: (after u c step).messages ∧
      (c.hasErrors = true → (after u c step).hasErrors = true)) ∧
    ∀ (a : Authority) (o : Origin) (source : Source σ) (s : σ),
      let e := ((a.authenticate o u c).run source s).1
      after u c (.evaluation a o source s) = e.context ∧ e.Explained o u c := by
  intro c
  refine ⟨?_, c.nodup, fun step => ?_, fun a o source s => ?_⟩
  · have none : (fresh u).messages = [] := rfl
    have new : (saidAll u (.fresh u) steps).filter (· ∉ (fresh u).messages) =
        saidAll u (.fresh u) steps := List.filter_eq_self.mpr (by simp [none])
    rw [messages_afterAll, messages_addMessages, new, none, List.nil_append]
  · exact ⟨messages_prefix_after u c step, fun h => hasErrors_after u h step⟩
  · exact ⟨rfl, a.explained_authenticate o u c source s⟩

/-- Two parties that may be waited for, of which the second one refuses. -/
private def dissent : Authority where
  strategies := [
    { Script.passing "Y" [] with deferrable := [.route] }.strategy,
    { Script.failing "N" with deferrable := [.route] }.strategy]
  distinct := by decide
  registry := ⟨[]⟩
  trusts := Range.trusts []
  maxPasswords := 20
  restricted := true

/-- A route is created. -/
private def disputedRoute : Update :=
  .start ⟨1⟩ .create { objectType := .route, key := ⟨"192.0.2.0/24AS65000"⟩ }

/-- The evaluation by the two parties. -/
private def hearing : Step Unit :=
  .evaluation dissent Trial.trustedOrigin MemoryStore.empty.answers.source ()

/-- An update that waits for the second party has failed when it is evaluated once more, since the
refusal of that party is an error by then. It is not repeated. The registry's own caller leaves it as
it is. -/
theorem second_hearing_fails :
    let c := afterAll disputedRoute (.fresh disputedRoute) [hearing]
    let e := ((dissent.authenticate Trial.trustedOrigin disputedRoute c).run
      MemoryStore.empty.answers.source ()).1
    c.status = .pendingAuthentication ∧ c.hasErrors = true ∧ e.context.hasErrors = true ∧
      e.context.subject = some e.subject ∧ e.context.status = .failedAuthentication ∧
      e.messages = [⟨.error, "N rejected the update"⟩] ∧ e.context.messages = e.messages ∧
      let f := ((dissent.authenticate .ownCaller disputedRoute c).run
        MemoryStore.empty.answers.source ()).1
      f.context.status = c.status ∧ f.context.messages = c.messages := by
  intro c e
  obtain ⟨-, -, kept, explained⟩ := history_explained disputedRoute [hearing]
  obtain ⟨-, granted⟩ := explained dissent .ownCaller MemoryStore.empty.answers.source ()
  obtain ⟨-, explained⟩ := explained dissent Trial.trustedOrigin MemoryStore.empty.answers.source ()
  have errors : c.hasErrors = true := rfl
  have rejected : e.verdict ≠ none := nofun
  have failed : e.context.status = .failedAuthentication := by
    rcases (explained.rejected rejected).1 with failed | pending
    · exact failed
    · exact absurd (explained.settled errors pending).1 rejected
  exact ⟨rfl, errors, (kept hearing).2 errors, explained.subject, failed, rfl, rfl, granted.kept rfl⟩

end Context

end RegistryConsent
