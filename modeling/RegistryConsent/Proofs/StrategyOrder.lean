import RegistryConsent.Proofs.OverrideRefusal
import RegistryConsent.Proofs.Setup
import RegistryConsent.Proofs.Verdict
import RegistryConsent.Strategy.Scripted
import RegistryConsent.Trial

/-!
# The order of the strategies

When every strategy gives one answer about an update, it does not matter in which order they are
asked: the subject and the status are the same, and the messages are the same up to their order. The
subject depends only on which answers there are, and of the records in them only on the identities,
so that neither repeated records nor their spelling matter.
-/

namespace RegistryConsent

/-- A strategy gives one answer about an update, whatever the source was asked before. -/
def Strategy.Settled {σ : Type} (strategy : Strategy) (u : Update) (c : Context)
    (source : Source σ) : Prop :=
  ∀ s t, ((strategy.authenticate u c).run source s).1 = ((strategy.authenticate u c).run source t).1

/-- Under fixed answers every strategy gives one answer. -/
theorem Strategy.settled_source (strategy : Strategy) (u : Update) (c : Context)
    (answers : Answers) : strategy.Settled u c answers.source :=
  fun _ _ => rfl

namespace Ruling

/-- Rulings with the same subject and verdict, whose messages differ in their order at most. -/
structure Agree (r r' : Ruling) : Prop where
  subject : r.subject = r'.subject
  verdict : r.verdict = r'.verdict
  messages : r.messages.Perm r'.messages

/-- Equal rulings agree. -/
theorem Agree.refl (r : Ruling) : Agree r r := ⟨rfl, rfl, .refl _⟩

/-- Rulings that agree leave the same status. -/
theorem Agree.status_recordIn {r r' : Ruling} (h : Agree r r') (c : Context) :
    (r.recordIn c).context.status = (r'.recordIn c).context.status := by
  rw [Ruling.status_recordIn, Ruling.status_recordIn, h.verdict]

/-- Rulings that agree leave the same messages, up to their order. -/
theorem Agree.messages_recordIn {r r' : Ruling} (h : Agree r r') (c : Context) :
    (r.recordIn c).context.messages.Perm (r'.recordIn c).context.messages := by
  refine (List.perm_ext_iff_of_nodup (r.recordIn c).context.nodup
    (r'.recordIn c).context.nodup).mpr fun m => ?_
  simp only [mem_messages_recordIn, h.messages.mem_iff]

end Ruling

namespace Authority

/-- The authority with its strategies in another order. -/
def reorder (a : Authority) (strategies : List Strategy) (h : a.strategies.Perm strategies) :
    Authority :=
  { a with strategies, distinct := (h.map _).nodup_iff.mp a.distinct }

/-- What sets up an authority sets it up with its strategies in another order. -/
theorem make_reorder {p : Policy} {a : Authority} {strategies : List Strategy}
    (h : a.strategies.Perm strategies) (made : make p a.strategies = .ok a) :
    make p strategies = .ok (a.reorder strategies h) := by
  obtain ⟨-, configured⟩ := (make_eq_ok_iff p a.strategies a).mp made
  exact (make_eq_ok_iff p strategies _).mpr ⟨rfl, configured⟩

variable {σ : Type} (a : Authority) (o : Origin) (u : Update) (c : Context) (source : Source σ)

/-- The subject depends only on which answers there are. -/
theorem subjectOf_congr {said told : List Answer} (h : ∀ answer, answer ∈ said ↔ answer ∈ told) :
    a.subjectOf u said = a.subjectOf u told := by
  have passed : (a.subjectOf u said).passed = (a.subjectOf u told).passed :=
    SortedSet.ext_mem fun name => by simp only [mem_passed_subjectOf, h]
  have failed : (a.subjectOf u said).failed = (a.subjectOf u told).failed :=
    SortedSet.ext_mem fun name => by simp only [mem_failed_subjectOf, h]
  have returned (r : Record) :
      r ∈ said.flatMap (·.records) ↔ r ∈ told.flatMap (·.records) := by
    simp only [List.mem_flatMap, h]
  have principals : (a.subjectOf u said).principals = (a.subjectOf u told).principals := by
    rw [principals_subjectOf, principals_subjectOf]
    exact principalsOf_congr a u (fun r hr => ⟨r, (returned r).mp hr, r.sameIdentity_refl⟩)
      fun r hr => ⟨r, (returned r).mpr hr, r.sameIdentity_refl⟩
  rw [Subject.mk.injEq]
  exact ⟨principals, passed, failed⟩

/-- Settled strategies answer one by one as if each were asked alone. -/
theorem run_answers_of_settled
    (settled : ∀ strategy ∈ a.strategies, strategy.Settled u c source) (s : σ) :
    ((a.answers u c).run source s).1 = (a.strategies.filter (·.supports u)).map fun strategy =>
      ⟨strategy.name, ((strategy.authenticate u c).run source s).1⟩ := by
  rw [← List.map_id ((a.answers u c).run source s).1]
  refine Consult.map_run_mapM source _ _ id _ ?_ s
  intro strategy hmem t
  simp [settled strategy (List.mem_filter.mp hmem).1 t s]

section Reordered

variable {strategies : List Strategy} (h : a.strategies.Perm strategies)

/-- An update waits for the same strategies in every order. -/
theorem isPending_reorder (subject : Subject) :
    (a.reorder strategies h).deferral.isPending u c subject = a.deferral.isPending u c subject := by
  have declared (name : String) : name ∈ Deferral.declaring strategies u.objectType ↔
      name ∈ Deferral.declaring a.strategies u.objectType := by
    simp only [Deferral.mem_declaring_iff, h.mem_iff]
  rw [Bool.eq_iff_iff, isPending_deferral_iff, isPending_deferral_iff]
  simp only [MayWait, reorder, declared]

/-- Settled strategies give the same answers in another order. -/
theorem run_answers_perm (settled : ∀ strategy ∈ a.strategies, strategy.Settled u c source)
    (s : σ) : List.Perm ((a.answers u c).run source s).1
      (((a.reorder strategies h).answers u c).run source s).1 := by
  have settled' : ∀ strategy ∈ (a.reorder strategies h).strategies,
      strategy.Settled u c source := fun strategy hmem => settled strategy (h.mem_iff.mpr hmem)
  rw [run_answers_of_settled a u c source settled,
    run_answers_of_settled _ u c source settled']
  exact (h.filter _).map _

/-- The verdict on reasons in another order is the same when strategies are waited for alike. -/
theorem verdict?_reorder (subject : Subject) {reasons others : List Message}
    (hr : reasons.Perm others) :
    (a.reorder strategies h).verdict? u c subject others = a.verdict? u c subject reasons := by
  have none : others.isEmpty = reasons.isEmpty := by
    rw [Bool.eq_iff_iff, List.isEmpty_iff, List.isEmpty_iff, ← List.length_eq_zero_iff,
      ← List.length_eq_zero_iff, hr.length_eq]
  rw [verdict?, verdict?, none, isPending_reorder]

/-- Reasons in another order lead to the same conclusion on a subject. -/
theorem agree_conclude (subject : Subject) {reasons others : List Message}
    (hr : reasons.Perm others) (asked asked' : List String) :
    Ruling.Agree (a.conclude u c subject reasons asked)
      ((a.reorder strategies h).conclude u c subject others asked') :=
  ⟨rfl, (verdict?_reorder a u c h subject hr).symm, hr⟩

/-- The same answers in another order lead to the same conclusion. -/
theorem agree_concludeFrom {said told : List Answer} (hs : said.Perm told) :
    Ruling.Agree (a.concludeFrom o u c said)
      ((a.reorder strategies h).concludeFrom o u c told) := by
  have subject : (a.reorder strategies h).subjectOf u told = a.subjectOf u said :=
    subjectOf_congr a u fun answer => hs.symm.mem_iff
  have reasons : (a.reasons o said (a.subjectOf u said)).Perm
      ((a.reorder strategies h).reasons o told (a.subjectOf u said)) := by
    refine (List.perm_ext_iff_of_nodup (nodup_reasons a o _ _)
      (nodup_reasons (a.reorder strategies h) o _ _)).mpr fun m => ?_
    rw [reasons_eq, reasons_eq, List.mem_eraseDups, List.mem_eraseDups]
    exact ((hs.flatMap_right _).append_right _).mem_iff
  rw [concludeFrom, concludeFrom, subject]
  exact agree_conclude a u c h _ reasons _ _

/-- Settled strategies lead to the same judgement in every order. -/
theorem agree_judge (settled : ∀ strategy ∈ a.strategies, strategy.Settled u c source) (s : σ) :
    Ruling.Agree ((a.judge o u c).run source s).1
      (((a.reorder strategies h).judge o u c).run source s).1 := by
  rcases Nat.lt_or_ge a.maxPasswords u.credentials.passwords.length with hp | hp
  · rw [run_judge_of_lt a o u c source s hp,
      run_judge_of_lt (a.reorder strategies h) o u c source s hp]
    exact agree_conclude a u c h _ (.refl _) _ _
  · rw [run_judge_of_le a o u c source s hp,
      run_judge_of_le (a.reorder strategies h) o u c source s hp]
    exact agree_concludeFrom a o u c h (run_answers_perm a u c source h settled s)

/-- Settled strategies lead to the same decision in every order. -/
theorem agree_decide (settled : ∀ strategy ∈ a.strategies, strategy.Settled u c source) (s : σ) :
    Ruling.Agree ((a.decide o u c).run source s).1
      (((a.reorder strategies h).decide o u c).run source s).1 := by
  by_cases ho : o.channel = .internal
  · rw [decide_of_internal a o u c ho, decide_of_internal (a.reorder strategies h) o u c ho]
    exact .refl _
  · cases hu : u.isOverride with
    | true =>
      have same : (a.reorder strategies h).override o u = a.override o u :=
        override_congr rfl rfl rfl
      rw [decide_of_isOverride a o u c ho hu, decide_of_isOverride _ o u c ho hu, same]
      exact .refl _
    | false =>
      rw [decide_of_not_isOverride a o u c ho hu, decide_of_not_isOverride _ o u c ho hu]
      exact agree_judge a o u c source h settled s

end Reordered

/-- When every strategy gives one answer about an update, an authority with the strategies in
another order can be set up as well and confers the same subject and leaves the same status. Its
messages are the same up to their order, and those that were there before stay in front. -/
theorem authenticate_reorder (a : Authority) (strategies : List Strategy)
    (h : a.strategies.Perm strategies) (o : Origin) (u : Update) (c : Context) (source : Source σ)
    (s : σ) (settled : ∀ strategy ∈ a.strategies, strategy.Settled u c source) :
    let b := a.reorder strategies h
    let e := ((a.authenticate o u c).run source s).1
    let f := ((b.authenticate o u c).run source s).1
    (∀ p, make p a.strategies = .ok a → make p strategies = .ok b) ∧
      e.subject = f.subject ∧ e.context.status = f.context.status ∧
      e.context.messages.Perm f.context.messages ∧
      c.messages <+: e.context.messages ∧ c.messages <+: f.context.messages := by
  intro b e f
  have agree := agree_decide a o u c source h settled s
  have he : e = ((a.decide o u c).run source s).1.recordIn c := run_authenticate a o u c source s
  have hf : f = ((b.decide o u c).run source s).1.recordIn c := run_authenticate b o u c source s
  refine ⟨fun p => make_reorder h, ?_, ?_, ?_, ?_, ?_⟩
  · rw [he, hf]
    exact agree.subject
  · rw [he, hf]
    exact agree.status_recordIn c
  · rw [he, hf]
    exact agree.messages_recordIn c
  · rw [he, Ruling.messages_recordIn]
    exact List.prefix_append _ _
  · rw [hf, Ruling.messages_recordIn]
    exact List.prefix_append _ _

/-- A strategy that passes for the power maintainer in two spellings and two that refuse. -/
private def triad : List Strategy :=
  [(Script.passing "P" [{ objectType := .mntner, key := ⟨"rir-power-mnt"⟩ },
      { objectType := .mntner, key := ⟨"RIR-POWER-MNT"⟩ }]).strategy,
    (Script.failing "Q").strategy, (Script.failing "R").strategy]

/-- The authority of the three strategies for the power maintainer. -/
private def ordered : Authority where
  strategies := triad
  distinct := by decide
  registry := ⟨[(⟨"RIR-POWER-MNT"⟩, .single .powerMaintainer)]⟩
  trusts := Range.trusts []
  maxPasswords := 20
  restricted := true

/-- A person is changed. -/
private def correction : Update :=
  .start ⟨1⟩ .modify { objectType := .person, key := ⟨"JD1-TEST"⟩ }

/-- When the last strategy is asked first, its message comes first, and all else stays. -/
theorem rotation_agrees :
    let rotated := triad.drop 2 ++ triad.take 2
    ∃ b, make { maintainers := { power := .single ⟨"RIR-POWER-MNT"⟩ } } rotated = .ok b ∧
      let e := ((ordered.authenticate Trial.untrustedOrigin correction (.fresh correction)).run
        MemoryStore.empty.answers.source ()).1
      let f := ((b.authenticate Trial.untrustedOrigin correction (.fresh correction)).run
        MemoryStore.empty.answers.source ()).1
      e.subject = f.subject ∧ e.context.status = f.context.status ∧
        e.context.messages.Perm f.context.messages ∧
        e.context.messages = [⟨.error, "Q rejected the update"⟩, ⟨.error, "R rejected the update"⟩,
          .outsideRegistryNetwork] ∧
        f.context.messages = [⟨.error, "R rejected the update"⟩, ⟨.error, "Q rejected the update"⟩,
          .outsideRegistryNetwork] := by
  intro rotated
  have reordered : (triad.take 2 ++ triad.drop 2).Perm rotated := List.perm_append_comm
  obtain ⟨made, subject, status, messages, -, -⟩ := authenticate_reorder ordered rotated reordered
    Trial.untrustedOrigin correction (.fresh correction) MemoryStore.empty.answers.source ()
    fun strategy _ => strategy.settled_source correction _ _
  exact ⟨_, made _ rfl, subject, status, messages, rfl, rfl⟩

end Authority

end RegistryConsent
