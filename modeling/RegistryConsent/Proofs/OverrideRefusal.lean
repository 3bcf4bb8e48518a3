import RegistryConsent.Proofs.Override

/-!
# When override is refused

A request for override that is not granted has failed for good, and its messages say why: the
channel or else the sender is out of place, there is not exactly one override value, or, when
nothing of this is so, no login was accepted. The decision sees the origin, the type of the object
and the override values, and nothing else of the update, of its context or of the strategies and
the limits of the authority.
-/

namespace RegistryConsent.Authority

variable {σ : Type}

/-- What is said when override is refused: the obstacles, or without any that no login was
accepted. -/
def refusalReasons (a : Authority) (o : Origin) (u : Update) : List Message :=
  if a.overrideObstacles o u.credentials.overrides = [] then [.overrideFailed]
  else a.overrideObstacles o u.credentials.overrides

/-- A request for override that is not granted is refused for all that speaks against it. -/
theorem run_override_of_not_granted (a : Authority) (o : Origin) (u : Update)
    (hu : u.isOverride = true) (source : Source σ) (s : σ)
    (h : ((a.override o u).run source s).1.subject.has .overrideMaintainer = false) :
    ((a.override o u).run source s).1 = refuseOverride (a.refusalReasons o u) := by
  by_cases clear : a.overrideObstacles o u.credentials.overrides = []
  · obtain ⟨v, opens⟩ := (exists_opens_iff hu).mpr clear
    rw [run_override_of_opens opens] at h ⊢
    rw [refusalReasons, if_pos clear]
    split at h
    · cases h
    · next missed => exact if_neg missed
  · rw [override_of_obstacle a o u clear, refusalReasons, if_neg clear]
    rfl

/-- Logins are tried for the type of the object alone. -/
theorem tryLogins_congr {u v : Update} (h : v.objectType = u.objectType) (logins : List Login) :
    tryLogins v logins = tryLogins u logins := by
  induction logins with
  | nil => rfl
  | cons login rest ih => rw [tryLogins_cons, tryLogins_cons, h, ih]

/-- Requests for override of the same type of object with the same override values are decided by
the same consultation, wherever the sender is trusted or not alike. -/
theorem override_congr {a b : Authority} {o : Origin} {u v : Update}
    (trusts : b.trusts o.sender = a.trusts o.sender) (objectType : v.objectType = u.objectType)
    (overrides : v.credentials.overrides = u.credentials.overrides) :
    b.override o v = a.override o u := by
  have same : tryLogins v = tryLogins u := funext (tryLogins_congr objectType)
  rw [override, override, overrideObstacles, overrideObstacles, trusts, overrides, same]

/-- Each login is attempted. -/
theorem length_attempts (source : Source σ) (logins : List Login) (s : σ) :
    (source.attempts logins s).length = logins.length := by
  induction logins generalizing s with
  | nil => rfl
  | cons login rest ih => rw [Source.attempts, List.length_cons, List.length_cons, ih]

/-- When override is refused for want of a login, the users of all logins have been looked up. -/
theorem questions_override_of_not_granted (a : Authority) (o : Origin) (u : Update)
    (hu : u.isOverride = true) (source : Source σ) (s : σ)
    (h : ((a.override o u).run source s).1.subject.has .overrideMaintainer = false) :
    (a.override o u).questions source s =
      if a.overrideObstacles o u.credentials.overrides = [] then
        (u.credentials.overrides.flatMap (·.candidates)).map fun login => .user login.username
      else [] := by
  by_cases clear : a.overrideObstacles o u.credentials.overrides = []
  · obtain ⟨v, opens⟩ := (exists_opens_iff hu).mpr clear
    have missed : ¬∃ attempt ∈ source.attempts v.candidates s,
        admits u.objectType attempt = true := by
      rw [← (has_overrideMaintainer_of_opens opens source s).1, h]
      exact Bool.false_ne_true
    have all : v.candidates.length ≤
        (source.attempts v.candidates s).findIdx (admits u.objectType) + 1 := by
      rw [← length_attempts source v.candidates s, List.findIdx_eq_length_of_false]
      · exact Nat.le_succ _
      · intro attempt hmem
        exact Bool.eq_false_iff.mpr fun admitted => missed ⟨attempt, hmem, admitted⟩
    rw [if_pos clear, opens.overrides, List.flatMap_singleton, override_of_opens opens,
      Consult.questions_bind, questions_tryLogins, List.take_of_length_le all]
    split <;> exact List.append_nil _
  · rw [override_of_obstacle a o u clear, if_neg clear]
    rfl

/-- A request for override that is not granted has failed, whatever it is about. Its subject is
empty, no strategy is asked, and its messages name an unfit channel or else an untrusted sender, then
a number of override values other than one, and when none of this is so that no login was accepted.
Users are looked up in the last case only. Whether granted or not, a request for the same type of
object with the same override values from the same origin is decided alike by every authority that
trusts the sender alike, whatever else it asks for. -/
theorem authenticate_of_override (a : Authority) (o : Origin) (u : Update) (c : Context)
    (source : Source σ) (s : σ) (ho : o.channel ≠ .internal) (hu : u.isOverride = true) :
    let e := ((a.authenticate o u c).run source s).1
    let questions := (a.authenticate o u c).questions source s
    let overrides := u.credentials.overrides
    let place : List Message :=
      if o.channel = .email then [.overrideNotAllowed o]
      else if a.trusts o.sender = false then [.overrideByAdministratorsOnly] else []
    let number : List Message := if overrides.length ≠ 1 then [.multipleOverrides] else []
    (e.subject.has .overrideMaintainer = false →
      e.subject = {} ∧ e.context.status = .failedAuthentication ∧ e.asked = [] ∧
      (e.messages = if place ++ number = [] then [.overrideFailed] else place ++ number) ∧
      (questions = if place ++ number = [] then
        (overrides.flatMap (·.candidates)).map fun login => .user login.username else []) ∧
      e.context.messages = c.messages ++ (e.messages.filter (· ∉ c.messages)).eraseDups) ∧
    (place ++ number ≠ [] → e.subject.has .overrideMaintainer = false) ∧
    ∀ (b : Authority) (v : Update), b.trusts o.sender = a.trusts o.sender → v.isOverride = true →
      v.objectType = u.objectType → v.credentials.overrides = overrides →
      let f := ((b.authenticate o v c).run source s).1
      (b.authenticate o v c).questions source s = questions ∧ f.subject = e.subject ∧
        f.context.status = e.context.status ∧ f.context.messages = e.context.messages := by
  intro e questions overrides place number
  have he : e = ((a.override o u).run source s).1.recordIn c := by
    simp only [e, run_authenticate, decide_of_isOverride a o u c ho hu]
  have hq : questions = (a.override o u).questions source s := by
    simp only [questions, questions_authenticate, decide_of_isOverride a o u c ho hu]
  have obstacles : a.overrideObstacles o overrides = place ++ number :=
    overrideObstacles_eq a o overrides
  refine ⟨?_, ?_, ?_⟩
  · intro refused
    rw [he, Ruling.subject_recordIn] at refused
    have ruling := run_override_of_not_granted a o u hu source s refused
    rw [refusalReasons, obstacles] at ruling
    rw [hq, questions_override_of_not_granted a o u hu source s refused, obstacles, he, ruling]
    refine ⟨rfl, ?_, rfl, rfl, rfl, Ruling.messages_recordIn _ c⟩
    rw [Ruling.status_recordIn]
    rfl
  · intro hindered
    rw [he, Ruling.subject_recordIn, override_of_obstacle a o u (obstacles ▸ hindered)]
    rfl
  · intro b v trusts hv objectType same f
    have equal : b.authenticate o v c = a.authenticate o u c := by
      rw [authenticate, authenticate, decide_of_isOverride b o v c ho hv,
        decide_of_isOverride a o u c ho hu, override_congr trusts objectType same]
    simp only [f, equal]
    exact ⟨rfl, rfl, rfl, rfl⟩

/-- An authority without strategies that trusts one sender. -/
private def unstaffed : Authority where
  strategies := []
  distinct := .nil
  registry := ⟨[]⟩
  trusts := (· == "10.1.2.3")
  maxPasswords := 20
  restricted := true

/-- An authority with the standard strategies that trusts the same sender. -/
private def staffed : Authority :=
  { unstaffed with
    strategies := Trial.standardStrategies
    distinct := Trial.nodup_standardStrategies
    maxPasswords := 1 }

/-- A change of a person with the login of a user that does not exist. -/
private def strangeChange : Update :=
  .prepare ⟨1⟩ .modify { objectType := .person, key := ⟨"JD1-TEST"⟩ }
    [.credential (.override (.ofText "ghost,secret"))]

/-- A creation of another person with the same login and a password. -/
private def strangeCreation : Update :=
  .prepare ⟨2⟩ .create
    { objectType := .person, key := ⟨"JD2-TEST"⟩, attributes := [⟨Record.mntBy, "OWN-MNT"⟩] }
    [.credential (.password "secret"), .credential (.override (.ofText "ghost,secret"))]

/-- A request for override without an override value. -/
private def bareRequest : Update :=
  .prepare ⟨3⟩ .delete { objectType := .person, key := ⟨"JD1-TEST"⟩ } [.overrideRequest]

/-- An unknown user is looked up and refused, also for another update before another authority. From
a mail nobody is looked up, and both reasons are given. -/
theorem strange_login_refused :
    let c := Context.fresh strangeChange
    let store := MemoryStore.empty.answers.source
    let e := ((unstaffed.authenticate Trial.trustedOrigin strangeChange c).run store ()).1
    let f := ((staffed.authenticate Trial.trustedOrigin strangeCreation c).run store ()).1
    let mail : Origin := ⟨.email, "10.1.2.3"⟩
    let g := ((staffed.authenticate mail bareRequest c).run store ()).1
    e.context.status = .failedAuthentication ∧ e.context.messages = [.overrideFailed] ∧
      (unstaffed.authenticate Trial.trustedOrigin strangeChange c).questions store () =
        [.user "ghost"] ∧
      f.context.status = .failedAuthentication ∧ f.context.messages = [.overrideFailed] ∧
      g.context.status = .failedAuthentication ∧
      g.context.messages = [.overrideNotAllowed mail, .multipleOverrides] ∧
      (staffed.authenticate mail bareRequest c).questions store () = [] := by
  intro c store e f mail g
  obtain ⟨refusal, -, alike⟩ := authenticate_of_override unstaffed Trial.trustedOrigin strangeChange
    c store () nofun rfl
  obtain ⟨-, status, -, messages, asked, recorded⟩ := refusal rfl
  obtain ⟨-, -, sameStatus, sameMessages⟩ := alike staffed strangeCreation rfl rfl rfl rfl
  obtain ⟨refusal, hindered, -⟩ := authenticate_of_override staffed mail bareRequest c store ()
    nofun rfl
  obtain ⟨-, mailStatus, -, mailMessages, mailAsked, mailRecorded⟩ := refusal (hindered nofun)
  rw [messages] at recorded
  rw [mailMessages] at mailRecorded
  exact ⟨status, recorded, asked, sameStatus.trans status, sameMessages.trans recorded, mailStatus,
    mailRecorded, mailAsked⟩

end RegistryConsent.Authority
