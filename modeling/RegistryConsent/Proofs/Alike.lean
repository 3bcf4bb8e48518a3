import RegistryConsent.Proofs.Decision
import RegistryConsent.Strategy.MntBy
import RegistryConsent.Strategy.RouteOrigin

/-!
# Updates that are judged alike

The standard strategies see little of an update: whether it creates its object, the type and the key
of the object, what is submitted when it is created, and for which maintainers the credentials
vouch. Two updates that agree in this lead to the same consultation, and so to the same questions
and the same ruling whatever the answers.
-/

namespace RegistryConsent

/-- Two updates agree in all that the standard strategies see of them. -/
structure Update.Alike (u v : Update) : Prop where
  creates : u.action = .create ↔ v.action = .create
  objectType : u.objectType = v.objectType
  key : u.key = v.key
  /-- What is submitted counts when the object is created. -/
  record : u.action = .create → u.record = v.record
  vouches (maintainer : Record) : maintainer.vouchesFor u = maintainer.vouchesFor v
  passwords : u.credentials.passwords.length = v.credentials.passwords.length

namespace Update.Alike

variable {u v : Update} (h : u.Alike v)

include h

/-- Alike updates create their object or both do not. -/
theorem create_beq : (u.action == .create) = (v.action == .create) := by
  rw [Bool.eq_iff_iff, beq_iff_eq, beq_iff_eq, h.creates]

/-- Alike updates create the maintainers of the same names. -/
theorem createsMaintainer (name : Handle) :
    u.createsMaintainer name = v.createsMaintainer name := by
  rw [Update.createsMaintainer, Update.createsMaintainer, h.create_beq, h.objectType, h.key]

/-- For alike updates a name leads to the same maintainer. -/
theorem maintainerNamed_eq (name : Handle) : maintainerNamed u name = maintainerNamed v name := by
  rw [maintainerNamed, maintainerNamed, ← h.createsMaintainer name]
  split
  · next created =>
    rw [h.record ((u.createsMaintainer_iff name).mp created).1]
  · rfl

/-- The same maintainers vouch for alike updates. -/
theorem vouchers_eq (names : List Handle) : vouchers u names = vouchers v names := by
  induction names with
  | nil => rfl
  | cons name rest ih =>
    have same : (fun r : Record => r.vouchesFor u) = fun r => r.vouchesFor v := funext h.vouches
    rw [vouchers, vouchers, h.maintainerNamed_eq name, ih, same]

/-- Maintainers give the same answer about alike updates. -/
theorem authenticateBy_eq (target : Record) (attr : String) (names : List Handle) :
    authenticateBy u target attr names = authenticateBy v target attr names := by
  rw [authenticateBy, authenticateBy, h.vouchers_eq names]

/-- The same version of the record decides about alike updates. -/
theorem governingRecord_eq : governingRecord u = governingRecord v := by
  rw [governingRecord, governingRecord, h.objectType, h.key]
  by_cases hu : u.action = .create
  · rw [if_pos hu, if_pos (h.creates.mp hu), h.record hu]
  · rw [if_neg hu, if_neg (mt h.creates.mpr hu)]

/-- The maintainers of a governing version give the same answer about alike updates. -/
theorem judgeByMaintainers_eq : judgeByMaintainers u = judgeByMaintainers v := by
  funext found
  cases found with
  | none => rw [judgeByMaintainers, judgeByMaintainers, h.objectType, h.key]
  | some record => rw [judgeByMaintainers, judgeByMaintainers, h.authenticateBy_eq]

/-- The strategy of a record's maintainers supports alike updates alike. -/
theorem supports_mntBy : Strategy.mntBy.supports u = Strategy.mntBy.supports v := by
  change (!(u.action == .create) || !u.record.maintainers.isEmpty) =
    (!(v.action == .create) || !v.record.maintainers.isEmpty)
  rw [← h.create_beq]
  by_cases hu : u.action = .create
  · rw [h.record hu]
  · rw [beq_false_of_ne hu]
    rfl

/-- The strategy of a record's maintainers gives the same answer about alike updates. -/
theorem authenticate_mntBy (c : Context) :
    Strategy.mntBy.authenticate u c = Strategy.mntBy.authenticate v c := by
  change governingRecord u >>= judgeByMaintainers u = governingRecord v >>= judgeByMaintainers v
  rw [h.governingRecord_eq, h.judgeByMaintainers_eq]

/-- The strategy of a route's origin supports alike updates alike. -/
theorem supports_routeOrigin :
    Strategy.routeOrigin.supports u = Strategy.routeOrigin.supports v := by
  change (u.action == .create && (u.objectType == .route || u.objectType == .route6) &&
    u.record.originHandle.isSome) = (v.action == .create &&
      (v.objectType == .route || v.objectType == .route6) && v.record.originHandle.isSome)
  rw [← h.create_beq, ← h.objectType]
  by_cases hu : u.action = .create
  · rw [h.record hu]
  · rw [beq_false_of_ne hu]
    rfl

/-- The strategy of a route's origin gives the same answer about alike updates that it supports. -/
theorem authenticate_routeOrigin (c : Context) (hs : Strategy.routeOrigin.supports u = true) :
    Strategy.routeOrigin.authenticate u c = Strategy.routeOrigin.authenticate v c := by
  have hu : u.action = .create := by
    change (u.action == .create && (u.objectType == .route || u.objectType == .route6) &&
      u.record.originHandle.isSome) = true at hs
    simp only [Bool.and_eq_true, beq_iff_eq] at hs
    exact hs.1.1
  change judgeByOrigin u u.record.originHandle = judgeByOrigin v v.record.originHandle
  rw [h.record hu]
  cases v.record.originHandle with
  | none => rfl
  | some origin => simp only [judgeByOrigin, h.authenticateBy_eq]

/-- An index has alike updates wait for the same strategies. -/
theorem isPending_eq (d : Deferral) (c : Context) (s : Subject) :
    d.isPending u c s = d.isPending v c s := by
  rw [Deferral.isPending, Deferral.isPending, h.create_beq, h.objectType]

end Update.Alike

namespace Authority

variable (a : Authority)
  (hs : ∀ strategy ∈ a.strategies, strategy = .mntBy ∨ strategy = .routeOrigin)
  {u v : Update} (h : u.Alike v) (o : Origin) (c : Context)

include hs h

/-- The standard strategies give the same answers about alike updates. -/
theorem answers_of_alike : a.answers u c = a.answers v c := by
  have asked : a.strategies.filter (·.supports u) = a.strategies.filter (·.supports v) := by
    refine List.filter_congr fun strategy hmem => ?_
    rcases hs strategy hmem with rfl | rfl
    · exact h.supports_mntBy
    · exact h.supports_routeOrigin
  rw [answers, answers, ← asked]
  refine Consult.mapM_congr fun strategy hmem => ?_
  obtain ⟨hmem, supported⟩ := List.mem_filter.mp hmem
  have said : strategy.authenticate u c = strategy.authenticate v c := by
    rcases hs strategy hmem with rfl | rfl
    · exact h.authenticate_mntBy c
    · exact h.authenticate_routeOrigin c supported
  rw [said]

omit hs in
/-- The same reasons lead to the same ruling on alike updates. -/
theorem conclude_of_alike (s : Subject) (reasons : List Message) (asked : List String) :
    a.conclude u c s reasons asked = a.conclude v c s reasons asked := by
  rw [conclude, conclude, verdict?, verdict?, h.isPending_eq]

omit hs in
/-- The same answers lead to the same ruling on alike updates. -/
theorem concludeFrom_of_alike (said : List Answer) :
    a.concludeFrom o u c said = a.concludeFrom o v c said := by
  have subject : a.subjectOf u said = a.subjectOf v said := by
    have same : (fun name => !u.createsMaintainer name) = fun name => !v.createsMaintainer name :=
      funext fun name => by rw [h.createsMaintainer name]
    simp only [subjectOf, principalsOf, same]
  rw [concludeFrom, concludeFrom, subject, conclude_of_alike a h c]

/-- With the standard strategies alike updates are judged by the same consultation. -/
theorem judge_of_alike : a.judge o u c = a.judge o v c := by
  have passwords := h.passwords
  rcases Nat.lt_or_ge a.maxPasswords u.credentials.passwords.length with hp | hp
  · rw [judge_of_lt a o u c hp, judge_of_lt a o v c (passwords ▸ hp), conclude_of_alike a h c]
  · rw [judge_of_le a o u c hp, judge_of_le a o v c (passwords ▸ hp), answers_of_alike a hs h c]
    exact congrArg (· <$> a.answers v c) (funext (concludeFrom_of_alike a h o c))

/-- With the standard strategies alike updates that do not ask for override are evaluated by the
same consultation. -/
theorem authenticate_of_alike (hu : u.isOverride = false) (hv : v.isOverride = false) :
    a.authenticate o u c = a.authenticate o v c := by
  rw [authenticate, authenticate, decide, decide, hu, hv, judge_of_alike a hs h o c]
  rfl

end Authority

end RegistryConsent
