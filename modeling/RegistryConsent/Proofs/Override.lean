import RegistryConsent.Proofs.Decision
import RegistryConsent.Proofs.Registry
import RegistryConsent.Trial

/-!
# Who may override

The override of an administrator comes from the registry's own caller or from a login, and never
from a maintainer. The logins of an override value are tried in order; the first one whose user is
found, has the password and may override for the type of the object ends the search.
-/

namespace RegistryConsent

/-- The logins of a list, each with the answer of a source when their users are looked up one after
the other. -/
def Source.attempts {σ : Type} (source : Source σ) : List Login → σ → List (Login × UserAnswer)
  | [], _ => []
  | login :: rest, s =>
    (login, (source.user login.username s).1) ::
      attempts source rest (source.user login.username s).2

/-- Whether a user is found for a login, has its password and may override for a type of objects. -/
def admits (t : ObjectType) : Login × UserAnswer → Bool
  | (login, .ok user) => user.password.verifies login.password && user.objectTypes.contains t
  | (_, .error _) => false

/-- The login of a user is admitted for the types of objects of the user. -/
theorem admits_ofPassword_iff {t : ObjectType} {username password : String}
    {salt : Vector UInt8 16} {types : List ObjectType} :
    admits t (⟨username, password⟩, .ok (.ofPassword username password salt types)) = true ↔
      t ∈ types := by
  have verified : (PasswordHash.ofPassword password salt).verifies password = true :=
    beq_self_eq_true _
  rw [admits, User.ofPassword, verified, Bool.true_and, SortedSet.contains_iff,
    SortedSet.mem_ofList]

namespace Authority

variable {σ : Type}

/-- A login is tried by asking for its user, and only after a failure the others are. -/
theorem tryLogins_cons (u : Update) (login : Login) (rest : List Login) :
    tryLogins u (login :: rest) = Consult.askUser login.username >>= fun answer =>
      if admits u.objectType (login, answer) then pure true else tryLogins u rest := by
  rw [tryLogins]
  congr 1
  funext answer
  cases answer <;> rfl

/-- Some login is accepted exactly when one of the attempts is admitted. -/
theorem run_tryLogins (u : Update) (logins : List Login) (source : Source σ) (s : σ) :
    ((tryLogins u logins).run source s).1 =
      (source.attempts logins s).any (admits u.objectType) := by
  induction logins generalizing s with
  | nil => rfl
  | cons login rest ih =>
    rw [tryLogins_cons, Consult.run_bind_eq, Consult.run_askUser, Source.attempts, List.any_cons]
    cases h : admits u.objectType (login, (source.user login.username s).1) with
    | true => rfl
    | false => simpa using ih _

/-- Users are looked up in the order of the logins, to the first one that is admitted. -/
theorem questions_tryLogins (u : Update) (logins : List Login) (source : Source σ) (s : σ) :
    (tryLogins u logins).questions source s =
      (logins.take ((source.attempts logins s).findIdx (admits u.objectType) + 1)).map
        fun login => .user login.username := by
  induction logins generalizing s with
  | nil => rfl
  | cons login rest ih =>
    rw [tryLogins_cons, Consult.questions_bind, Consult.questions_askUser, Consult.run_askUser,
      Source.attempts, List.findIdx_cons, List.take_succ_cons, List.map_cons,
      List.singleton_append]
    cases h : admits u.objectType (login, (source.user login.username s).1) with
    | true => simp
    | false => simpa using ih _

/-- Nothing speaks against an override request before its logins are tried: it has the one override
value `v` and comes from a trusted sender on a channel that admits it. -/
structure Opens (a : Authority) (o : Origin) (u : Update) (v : OverrideValue) : Prop where
  isOverride : u.isOverride = true
  channel : o.channel ≠ .email
  trusted : a.trusts o.sender = true
  overrides : u.credentials.overrides = [v]

/-- The number of override values is another obstacle than the place that a request comes from. -/
private theorem multipleOverrides_ne (o : Origin) :
    Message.multipleOverrides ≠ .overrideNotAllowed o ∧
      Message.multipleOverrides ≠ .overrideByAdministratorsOnly := by
  have texts (channel : Channel) :
      "Multiple override passwords used" ≠ "Override not allowed in " ++ channel.name := by
    cases channel <;> decide
  exact ⟨fun same => texts o.channel (congrArg Message.text same), by decide⟩

/-- What speaks against a request for override: an unfit channel or else an untrusted sender, and a
number of override values other than one. -/
theorem overrideObstacles_eq (a : Authority) (o : Origin) (overrides : List OverrideValue) :
    a.overrideObstacles o overrides =
      (if o.channel = .email then [.overrideNotAllowed o]
        else if a.trusts o.sender = false then [.overrideByAdministratorsOnly] else []) ++
      if overrides.length ≠ 1 then [.multipleOverrides] else [] := by
  have other := multipleOverrides_ne o
  rw [overrideObstacles]
  cases trusted : a.trusts o.sender <;> by_cases email : o.channel = .email <;>
    by_cases single : overrides.length = 1 <;>
      simp [Origin.allowsAdministration, email, single, Messages.toList_push, Messages.empty,
        other.1, other.2]

/-- There is no obstacle exactly for one override value from a trusted sender. -/
theorem overrideObstacles_eq_nil_iff (a : Authority) (o : Origin) (overrides : List OverrideValue) :
    a.overrideObstacles o overrides = [] ↔
      o.channel ≠ .email ∧ a.trusts o.sender = true ∧ ∃ v, overrides = [v] := by
  have single : overrides.length = 1 ↔ ∃ v, overrides = [v] := List.length_eq_one_iff
  rw [overrideObstacles_eq, List.append_eq_nil_iff]
  by_cases ho : o.channel = .email <;> by_cases ht : a.trusts o.sender = true <;>
    simp [ho, ht, ← single]

/-- A request for override without an obstacle is open to the logins of one value. -/
theorem exists_opens_iff {a : Authority} {o : Origin} {u : Update} (hu : u.isOverride = true) :
    (∃ v, a.Opens o u v) ↔ a.overrideObstacles o u.credentials.overrides = [] := by
  rw [overrideObstacles_eq_nil_iff]
  constructor
  · rintro ⟨v, h⟩
    exact ⟨h.channel, h.trusted, v, h.overrides⟩
  · rintro ⟨channel, trusted, v, overrides⟩
    exact ⟨v, hu, channel, trusted, overrides⟩

/-- With an obstacle an override request is refused without a look-up. -/
theorem override_of_obstacle (a : Authority) (o : Origin) (u : Update)
    (h : a.overrideObstacles o u.credentials.overrides ≠ []) :
    a.override o u = pure (refuseOverride (a.overrideObstacles o u.credentials.overrides)) := by
  -- By `h` the obstacles match the second pattern only.
  simp only [override]

/-- Without an obstacle the logins of the override value decide. -/
theorem override_of_opens {a : Authority} {o : Origin} {u : Update} {v : OverrideValue}
    (h : a.Opens o u v) :
    a.override o u = do
      if ← tryLogins u v.candidates then
        return { subject := .ofPrincipal .overrideMaintainer, messages := [.overrideUsed] }
      else return refuseOverride [.overrideFailed] := by
  have hn := (exists_opens_iff h.isOverride).mp ⟨v, h⟩
  simp only [override, hn]
  simp only [h.overrides, List.flatMap_cons, List.flatMap_nil, List.append_nil]

/-- Without an obstacle a request for override is granted by a login, or refused after all of
them. -/
theorem run_override_of_opens {a : Authority} {o : Origin} {u : Update} {v : OverrideValue}
    (h : a.Opens o u v) (source : Source σ) (s : σ) :
    ((a.override o u).run source s).1 =
      if (source.attempts v.candidates s).any (admits u.objectType) then
        { subject := .ofPrincipal .overrideMaintainer, messages := [.overrideUsed] }
      else refuseOverride [.overrideFailed] := by
  rw [override_of_opens h, Consult.run_bind_eq, run_tryLogins]
  split <;> rfl

/-- Without an obstacle override is granted when one of the attempts is admitted. -/
theorem subject_override_of_opens {a : Authority} {o : Origin} {u : Update} {v : OverrideValue}
    (h : a.Opens o u v) (source : Source σ) (s : σ) :
    ((a.override o u).run source s).1.subject =
      if (source.attempts v.candidates s).any (admits u.objectType) then
        .ofPrincipal .overrideMaintainer
      else {} := by
  rw [run_override_of_opens h]
  split <;> rfl

/-- Without an obstacle override is granted exactly when one of the attempts is admitted, and then
nothing else is. -/
theorem has_overrideMaintainer_of_opens {a : Authority} {o : Origin} {u : Update}
    {v : OverrideValue} (h : a.Opens o u v) (source : Source σ) (s : σ) :
    let subject := ((a.override o u).run source s).1.subject
    (subject.has .overrideMaintainer = true ↔
      ∃ attempt ∈ source.attempts v.candidates s, admits u.objectType attempt = true) ∧
    (subject.has .overrideMaintainer = true → subject = .ofPrincipal .overrideMaintainer) := by
  intro subject
  have hs : subject = if (source.attempts v.candidates s).any (admits u.objectType) then
      .ofPrincipal .overrideMaintainer else {} := subject_override_of_opens h source s
  rw [← List.any_eq_true, hs]
  cases (source.attempts v.candidates s).any (admits u.objectType) with
  | true => exact ⟨⟨fun _ => rfl, fun _ => rfl⟩, fun _ => rfl⟩
  | false =>
    have refused : ({} : Subject).has .overrideMaintainer = false := rfl
    simp [refused]

/-- No two override values are open to override. -/
theorem Opens.unique {a : Authority} {o : Origin} {u : Update} {v w : OverrideValue}
    (hv : a.Opens o u v) (hw : a.Opens o u w) : w = v :=
  List.head_eq_of_cons_eq (hw.overrides.symm.trans hv.overrides)

/-- With an obstacle override is not granted. -/
theorem subject_override_of_not_opens {a : Authority} {o : Origin} {u : Update}
    (hu : u.isOverride = true) (h : ∀ v, ¬a.Opens o u v) (source : Source σ) (s : σ) :
    ((a.override o u).run source s).1.subject = {} := by
  have hn : a.overrideObstacles o u.credentials.overrides ≠ [] := by
    intro clear
    obtain ⟨v, opens⟩ := (exists_opens_iff hu).mpr clear
    exact h v opens
  rw [override_of_obstacle a o u hn]
  rfl

/-- A request for override is granted with a notice, or refused for some reason. -/
theorem run_override_cases (a : Authority) (o : Origin) (u : Update) (source : Source σ) (s : σ) :
    ((a.override o u).run source s).1 =
        { subject := .ofPrincipal .overrideMaintainer, messages := [.overrideUsed] } ∨
      ∃ reasons ≠ [], ((a.override o u).run source s).1 = refuseOverride reasons := by
  generalize hr : (a.override o u).run source s = r
  simp only [override] at hr
  split at hr
  · rw [Consult.run_bind_eq] at hr
    split at hr
    · exact .inl (hr ▸ rfl)
    · exact .inr ⟨[.overrideFailed], List.cons_ne_nil _ _, hr ▸ rfl⟩
  · next hindered => exact .inr ⟨_, hindered, hr ▸ rfl⟩

/-- A request for override has failed unless it is granted. -/
theorem verdict_override_eq (a : Authority) (o : Origin) (u : Update) (source : Source σ) (s : σ) :
    ((a.override o u).run source s).1.verdict =
      if ((a.override o u).run source s).1.subject.has .overrideMaintainer then none
      else some .failedAuthentication := by
  rcases run_override_cases a o u source s with granted | ⟨reasons, -, refused⟩
  · rw [granted]
    rfl
  · rw [refused]
    rfl

/-- A request for override is granted or has failed; it never waits. -/
theorem verdict_override (a : Authority) (o : Origin) (u : Update) (source : Source σ) (s : σ) :
    ((a.override o u).run source s).1.verdict = none ∨
      ((a.override o u).run source s).1.verdict = some .failedAuthentication := by
  rw [verdict_override_eq]
  split
  · exact .inl rfl
  · exact .inr rfl

/-- The messages about a request for override differ. -/
theorem nodup_messages_override (a : Authority) (o : Origin) (u : Update) (source : Source σ)
    (s : σ) : ((a.override o u).run source s).1.messages.Nodup := by
  generalize hr : (a.override o u).run source s = r
  simp only [override] at hr
  split at hr
  · rw [Consult.run_bind_eq] at hr
    split at hr <;> exact hr ▸ List.pairwise_singleton _ _
  · exact hr ▸ Messages.nodup _

/-- The messages of a decision differ. -/
theorem nodup_messages_decide (a : Authority) (o : Origin) (u : Update) (c : Context)
    (source : Source σ) (s : σ) : ((a.decide o u c).run source s).1.messages.Nodup := by
  by_cases ho : o.channel = .internal
  · rw [decide_of_internal a o u c ho]
    exact List.nodup_nil
  · cases hu : u.isOverride with
    | true =>
      rw [decide_of_isOverride a o u c ho hu]
      exact nodup_messages_override a o u source s
    | false =>
      rw [decide_of_not_isOverride a o u c ho hu]
      exact nodup_messages_judge a o u c source s

/-- The judgement of the strategies never grants override. -/
theorem overrideMaintainer_not_mem_judge (m : Maintainers) (a : Authority)
    (hm : m.registry = .ok a.registry) (o : Origin) (u : Update) (c : Context) (source : Source σ)
    (s : σ) : ((a.judge o u c).run source s).1.subject.has .overrideMaintainer = false := by
  by_cases hp : a.maxPasswords < u.credentials.passwords.length
  · rw [judge_of_lt a o u c hp]
    rfl
  · rw [judge_of_le a o u c (Nat.le_of_not_lt hp), Consult.run_map, Bool.eq_false_iff]
    intro h
    obtain ⟨r, -, -, -, hr⟩ :=
      (mem_principalsOf a u _ _).mp ((SortedSet.contains_iff _ _).mp h)
    exact m.overrideMaintainer_not_mem_lookup a.registry hm r.key hr

/-- From elsewhere than the registry's own caller, a request that is not open is not granted. -/
theorem not_has_overrideMaintainer (m : Maintainers) (a : Authority)
    (hm : m.registry = .ok a.registry) (o : Origin) (u : Update) (c : Context) (source : Source σ)
    (s : σ) (ho : o.channel ≠ .internal) (h : ∀ v, ¬a.Opens o u v) :
    ((a.decide o u c).run source s).1.subject.has .overrideMaintainer = false := by
  cases hu : u.isOverride with
  | true =>
    rw [decide_of_isOverride a o u c ho hu, subject_override_of_not_opens hu h]
    rfl
  | false =>
    rw [decide_of_not_isOverride a o u c ho hu]
    exact overrideMaintainer_not_mem_judge m a hm o u c source s

/-- An evaluation confers the override of an administrator exactly when the update comes from the
registry's own caller or nothing speaks against its request and a login is admitted. It then confers
nothing else and names no strategy. Users are looked up in the order of the logins, up to the first
one that is admitted. -/
theorem has_overrideMaintainer_iff (m : Maintainers) (a : Authority)
    (hm : m.registry = .ok a.registry) (o : Origin) (u : Update) (c : Context) (source : Source σ)
    (s : σ) :
    let subject := ((a.authenticate o u c).run source s).1.subject
    (subject.has .overrideMaintainer = true ↔
      o.channel = .internal ∨ ∃ v, a.Opens o u v ∧
        ∃ attempt ∈ source.attempts v.candidates s, admits u.objectType attempt = true) ∧
    (subject.has .overrideMaintainer = true → subject = .ofPrincipal .overrideMaintainer) ∧
    ∀ v, o.channel ≠ .internal → a.Opens o u v →
      (a.authenticate o u c).questions source s =
        (v.candidates.take
          ((source.attempts v.candidates s).findIdx (admits u.objectType) + 1)).map
            fun login => .user login.username := by
  intro subject
  have hs : subject = ((a.decide o u c).run source s).1.subject := by
    simp only [subject, run_authenticate, Ruling.subject_recordIn]
  rw [← and_assoc]
  constructor
  · by_cases ho : o.channel = .internal
    · have granted : subject = .ofPrincipal .overrideMaintainer := by
        rw [hs, decide_of_internal a o u c ho]
        rfl
      rw [granted]
      exact ⟨⟨fun _ => .inl ho, fun _ => rfl⟩, fun _ => rfl⟩
    · by_cases hv : ∃ v, a.Opens o u v
      · obtain ⟨v, hv⟩ := hv
        obtain ⟨granted, only⟩ := has_overrideMaintainer_of_opens hv source s
        rw [← decide_of_isOverride a o u c ho hv.isOverride, ← hs] at granted only
        refine ⟨⟨fun h => .inr ⟨v, hv, granted.mp h⟩, ?_⟩, only⟩
        rintro (h | ⟨w, hw, admitted⟩)
        · exact absurd h ho
        · obtain rfl := hv.unique hw
          exact granted.mpr admitted
      · have refused := not_has_overrideMaintainer m a hm o u c source s ho (not_exists.mp hv)
        rw [← hs] at refused
        rw [refused]
        refine ⟨⟨nofun, ?_⟩, nofun⟩
        rintro (h | ⟨v, h, -⟩)
        · exact absurd h ho
        · exact absurd ⟨v, h⟩ hv
  · intro v ho hv
    rw [questions_authenticate, decide_of_isOverride a o u c ho hv.isOverride,
      override_of_opens hv, Consult.questions_bind, questions_tryLogins]
    split <;> exact List.append_nil _

/-- An authority with one power maintainer and one trusted sender. -/
private def guarded : Authority where
  strategies := Trial.standardStrategies
  distinct := Trial.nodup_standardStrategies
  registry := ⟨[(⟨"RIR-POWER-MNT"⟩, .single .powerMaintainer)]⟩
  trusts := (· == "10.1.2.3")
  maxPasswords := 20
  restricted := true

/-- A request for override whose value has two readings. -/
private def loginTwice : Update :=
  .prepare ⟨1⟩ .modify { objectType := .person, key := ⟨"JD1-TEST"⟩ }
    [.credential (.override (.ofText "dbadmin,pass,word"))]

/-- A store whose first answer is an error. -/
private def recovering : Source Nat where
  user name n :=
    (if n = 0 then .error .unavailable
      else .ok (.ofPassword name "pass,word" (.replicate 16 0) [.person]), n + 1)
  object _ _ n := (.ok none, n + 1)

/-- The second reading of an override value overrides although the look-up for the first one has
failed, and both have been looked up. -/
theorem overrides_by_second_login :
    let e := guarded.authenticate Trial.trustedOrigin loginTwice (.fresh loginTwice)
    ({ power := .single ⟨"RIR-POWER-MNT"⟩ } : Maintainers).registry = .ok guarded.registry ∧
      (e.run recovering 0).1.subject = .ofPrincipal .overrideMaintainer ∧
      e.questions recovering 0 = [.user "dbadmin", .user "dbadmin"] := by
  have opens : guarded.Opens Trial.trustedOrigin loginTwice (.ofText "dbadmin,pass,word") :=
    ⟨rfl, by decide, rfl, rfl⟩
  have attempts : recovering.attempts (OverrideValue.ofText "dbadmin,pass,word").candidates 0 =
      [(⟨"dbadmin", "pass"⟩, .error .unavailable), (⟨"dbadmin", "pass,word"⟩,
        .ok (.ofPassword "dbadmin" "pass,word" (.replicate 16 0) [.person]))] := rfl
  have admitted : admits loginTwice.objectType (⟨"dbadmin", "pass,word"⟩,
      .ok (.ofPassword "dbadmin" "pass,word" (.replicate 16 0) [.person])) = true :=
    admits_ofPassword_iff.mpr (List.mem_singleton_self _)
  obtain ⟨granted, only, asked⟩ := has_overrideMaintainer_iff
    { power := .single ⟨"RIR-POWER-MNT"⟩ } guarded rfl Trial.trustedOrigin loginTwice
    (.fresh loginTwice) recovering 0
  refine ⟨rfl, only (granted.mpr (.inr ⟨_, opens, ?_⟩)), ?_⟩
  · rw [attempts]
    exact ⟨_, List.mem_cons_of_mem _ List.mem_cons_self, admitted⟩
  · rw [asked _ (by decide) opens, attempts, List.findIdx_cons, List.findIdx_cons, admitted]
    rfl

end Authority

end RegistryConsent
