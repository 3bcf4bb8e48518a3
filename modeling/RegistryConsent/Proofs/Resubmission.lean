import RegistryConsent.Proofs.Alike
import RegistryConsent.Proofs.Matching
import RegistryConsent.Trial

/-!
# What a change may not bring with it

A change or a removal is decided by what is stored. Two of them that concern the same record and
come with the same proof lead to the same questions, subject, status and messages, whatever they
submit for the record: nobody can appoint the maintainers that judge his update. Signed texts are
left out because they have to cover what is submitted.
-/

namespace RegistryConsent

namespace Update

variable {u v : Update}

/-- Without signed texts no key matches. -/
theorem matchesKey_of_unsigned (hn : u.credentials.signedTexts = []) (value : String) :
    u.matchesKey value = false := by
  refine matchesKey_of_uncovered (fun s hs => ?_) value
  rw [hn] at hs
  cases hs

/-- Whether a password matches depends on the credentials alone. -/
theorem matchesPassword_congr (hc : u.credentials = v.credentials) (value : String) :
    u.matchesPassword value = v.matchesPassword value := by
  rw [matchesPassword, matchesPassword, hc]

/-- Without signed texts the credentials alone decide whether a line matches. -/
theorem matchesLine_congr (hc : u.credentials = v.credentials)
    (hn : u.credentials.signedTexts = []) (line : String) :
    u.matchesLine line = v.matchesLine line := by
  have key (value : String) : u.matchesKey value = v.matchesKey value := by
    rw [matchesKey_of_unsigned hn, matchesKey_of_unsigned (hc ▸ hn)]
  simp only [matchesLine, matchesPassword_congr hc, key]

/-- Two updates change or remove the same record with the same proof and no signed text among it.
What they submit for the record may differ. -/
structure Resubmits (u v : Update) : Prop where
  changes_left : u.action ≠ .create
  changes_right : v.action ≠ .create
  objectType : u.objectType = v.objectType
  key : u.key = v.key
  credentials : u.credentials = v.credentials
  unsigned : u.credentials.signedTexts = []

/-- The standard strategies see the same of both. -/
theorem Resubmits.alike (h : u.Resubmits v) : u.Alike v where
  creates := iff_of_false h.changes_left h.changes_right
  objectType := h.objectType
  key := h.key
  record := fun hu => absurd hu h.changes_left
  vouches maintainer := by
    have same : u.matchesLine = v.matchesLine :=
      funext (matchesLine_congr h.credentials h.unsigned)
    rw [Record.vouchesFor, Record.vouchesFor, same]
  passwords := by rw [h.credentials]

end Update

namespace Authority

variable {σ : Type}

/-- With the standard strategies, what a change or a removal submits for its record influences
neither the questions to the source nor the subject, the status or the messages. -/
theorem authenticate_of_resubmits (a : Authority)
    (hs : ∀ strategy ∈ a.strategies, strategy = .mntBy ∨ strategy = .routeOrigin)
    (o : Origin) (u v : Update) (h : u.Resubmits v) (hu : u.isOverride = false)
    (hv : v.isOverride = false) (c : Context) (source : Source σ) (s : σ) :
    let e := ((a.authenticate o u c).run source s).1
    let f := ((a.authenticate o v c).run source s).1
    (a.authenticate o u c).questions source s = (a.authenticate o v c).questions source s ∧
      e.subject = f.subject ∧ e.context.status = f.context.status ∧
      e.context.messages = f.context.messages := by
  intro e f
  have same : a.authenticate o u c = a.authenticate o v c :=
    authenticate_of_alike a hs h.alike o c hu hv
  have equal : e = f := by
    simp only [e, f, same]
  rw [same, equal]
  exact ⟨rfl, rfl, rfl, rfl⟩

/-- A person is put under another maintainer, whose password comes with the update. -/
private def takeover : Update :=
  .prepare ⟨1⟩ .modify
    { objectType := .person, key := ⟨"JD1-TEST"⟩, attributes := [⟨Record.mntBy, "OTHER-MNT"⟩] }
    [.credential (.password "secret")]

/-- The person is removed with the same password. -/
private def disposal : Update :=
  .prepare ⟨2⟩ .delete { objectType := .person, key := ⟨"JD1-TEST"⟩ }
    [.credential (.password "secret")]

/-- The answers of a store in which the person has a maintainer that accepts no password. -/
private def ownedAnswers : Answers :=
  ((MemoryStore.empty.putRecord (Trial.maintainer "OWNER-MNT" "NONE")).putRecord
    { objectType := .person, key := ⟨"JD1-TEST"⟩,
      attributes := [⟨Record.mntBy, "OWNER-MNT"⟩] }).answers

/-- The authority of the standard strategies for the owner of a person. -/
private def ownership : Authority where
  strategies := Trial.standardStrategies
  distinct := Trial.nodup_standardStrategies
  registry := ⟨[]⟩
  trusts := Range.trusts []
  maxPasswords := 20
  restricted := true

/-- Naming another maintainer is of no more use than naming none: both updates are refused in the
name of the stored one. -/
theorem takeover_refused :
    let e := ((ownership.authenticate Trial.trustedOrigin takeover (.fresh disposal)).run
      ownedAnswers.source ()).1
    let f := ((ownership.authenticate Trial.trustedOrigin disposal (.fresh disposal)).run
      ownedAnswers.source ()).1
    takeover.Resubmits disposal ∧ takeover.record ≠ disposal.record ∧
      e.subject = f.subject ∧ e.context.status = f.context.status ∧
      e.context.messages = f.context.messages ∧
      f.context.status = .failedAuthentication ∧
      f.subject.failed.toList = [Strategy.mntBy.name] := by
  have resubmits : takeover.Resubmits disposal := ⟨nofun, nofun, rfl, rfl, rfl, rfl⟩
  obtain ⟨-, subject, status, messages⟩ := authenticate_of_resubmits ownership
    (by simp [ownership, Trial.standardStrategies]) Trial.trustedOrigin takeover disposal
    resubmits rfl rfl (.fresh disposal) ownedAnswers.source ()
  exact ⟨resubmits, by decide, subject, status, messages, rfl, rfl⟩

end Authority

end RegistryConsent
