import RegistryConsent.Deferral
import RegistryConsent.Findings
import RegistryConsent.Policy

/-!
# Authorities

An authority decides whether an update may go ahead. Updates from inside the registry are granted
override; a request for override needs the login of an administrator; all others are judged by every
strategy that supports them, and the maintainers that vouch confer the principals that the registry
lists for them. What comes out is a subject, and on rejection a status with the reasons for it.
-/

namespace RegistryConsent

/-- What decides about updates. -/
structure Authority where
  /-- The strategies in the order in which they are asked. -/
  strategies : List Strategy
  /-- No two strategies have the same name. -/
  distinct : (strategies.map (·.name)).Nodup
  registry : Registry
  /-- Whether an address belongs to the registry's own network. -/
  trusts : String → Bool
  maxPasswords : Nat
  /-- Whether principals are conferred only inside the trusted network. -/
  restricted : Bool

/-- Why an authority cannot be set up. -/
inductive SetupError where
  | policy (e : PolicyError)
  | duplicateStrategy (name : String)
deriving DecidableEq

/-- The wording of an error. -/
def SetupError.message : SetupError → String
  | .policy e => e.message
  | .duplicateStrategy name => "duplicate strategy name: " ++ name

/-- The first name that has occurred before. -/
def firstRepeated? (seen : List String) : List String → Option String
  | [] => none
  | name :: rest => if name ∈ seen then some name else firstRepeated? (name :: seen) rest

/-- Names without a repeated one differ from each other and from those seen before. -/
theorem nodup_of_firstRepeated? {seen names : List String} (h : firstRepeated? seen names = none) :
    names.Nodup ∧ ∀ n ∈ names, n ∉ seen := by
  induction names generalizing seen with
  | nil => simp
  | cons name rest ih =>
    unfold firstRepeated? at h
    split at h
    · cases h
    · rename_i hname
      obtain ⟨hn, hs⟩ := ih h
      refine ⟨List.nodup_cons.2 ⟨fun hm => hs name hm (by simp), hn⟩, fun n hm => ?_⟩
      rcases List.mem_cons.1 hm with rfl | hm
      · exact hname
      · exact fun hseen => hs n hm (by simp [hseen])

/-- What is decided about an update. -/
structure Ruling where
  subject : Subject
  /-- The status that the update gets; without one it keeps its own. -/
  verdict : Option Status := none
  /-- The messages about the update, in order. -/
  messages : List Message := []
  /-- The names of the strategies that were asked, in order. -/
  asked : List String := []

/-- A ruling and the context in which it is recorded. -/
structure Evaluation extends Ruling where
  /-- The context after the evaluation. -/
  context : Context

/-- Records a ruling in the context of its update: first the status, then the messages and the
subject. -/
def Ruling.recordIn (r : Ruling) (c : Context) : Evaluation :=
  { r with
    context := ((r.verdict.elim c c.withStatus).addMessages r.messages).withSubject r.subject }

namespace Authority

/-- The authority of a policy and some strategies under different names. -/
def assemble (p : Policy) (strategies : List Strategy)
    (distinct : (strategies.map (·.name)).Nodup) : Except PolicyError Authority := do
  let registry ← p.registry
  let ranges ← p.network
  return {
    strategies, distinct, registry
    trusts := Range.trusts ranges
    maxPasswords := p.maxPasswords
    restricted := p.restrictToTrustedNetwork }

/-- Checks a policy and the names of some strategies and sets up their authority. The ranges and the
registry, which the check has read, are read once more. -/
def make (p : Policy) (strategies : List Strategy) : Except SetupError Authority := do
  p.check.mapError .policy
  match h : firstRepeated? [] (strategies.map (·.name)) with
  | some name => throw (.duplicateStrategy name)
  | none => (assemble p strategies (nodup_of_firstRepeated? h).1).mapError .policy

/-- The strategies that may be waited for. -/
def deferral (a : Authority) : Deferral := .ofStrategies a.strategies

/-- Whether administrative operations from an origin are out of place. -/
def isOutside (a : Authority) (o : Origin) : Bool := !o.allowsAdministration || !a.trusts o.sender

/-- Asks every strategy that supports the update, in order. -/
def answers (a : Authority) (u : Update) (c : Context) : Consult (List Answer) :=
  (a.strategies.filter (·.supports u)).mapM fun s => do return ⟨s.name, ← s.authenticate u c⟩

/-- The principals of some records: those of the maintainers among them, except of one that the
update itself creates. -/
def principalsOf (a : Authority) (u : Update) (records : List Record) : SortedSet Principal :=
  let keys := (records.filter (·.objectType == .mntner)).map (·.key)
  .ofList ((keys.filter (!u.createsMaintainer ·)).flatMap fun key => (a.registry.lookup key).toList)

/-- The subject that some answers give. -/
def subjectOf (a : Authority) (u : Update) (answers : List Answer) : Subject :=
  let found := Findings.ofAnswers answers
  { principals := a.principalsOf u found.authenticated.records
    passed := found.passed
    failed := found.failed }

/-- Whether a subject holds a principal although its origin lies outside the trusted network. -/
def violatesRestriction (a : Authority) (o : Origin) (s : Subject) : Bool :=
  !s.principals.isEmpty && a.restricted && a.isOutside o

/-- The reasons against an update: those of the refusals, and that a principal is conferred from
outside the trusted network. -/
def reasons (a : Authority) (o : Origin) (answers : List Answer) (s : Subject) : List Message :=
  let said := (Findings.ofAnswers answers).messages
  (if a.violatesRestriction o s then said.push .outsideRegistryNetwork else said).toList

/-- The status of an update for some reasons against it: without any it stays, otherwise the update
waits or has failed. -/
def verdict? (a : Authority) (u : Update) (c : Context) (s : Subject) (reasons : List Message) :
    Option Status :=
  if reasons.isEmpty then none
  else if a.deferral.isPending u c s then some .pendingAuthentication
  else some .failedAuthentication

/-- The ruling on a subject for some reasons against it. -/
def conclude (a : Authority) (u : Update) (c : Context) (s : Subject) (reasons : List Message)
    (asked : List String) : Ruling :=
  ⟨s, a.verdict? u c s reasons, reasons, asked⟩

/-- Judges an update by the strategies. -/
def judge (a : Authority) (o : Origin) (u : Update) (c : Context) : Consult Ruling :=
  if a.maxPasswords < u.credentials.passwords.length then
    pure (a.conclude u c {} [.tooManyPasswords] [])
  else do
    let answers ← a.answers u c
    let s := a.subjectOf u answers
    return a.conclude u c s (a.reasons o answers s) (answers.map (·.strategy))

/-- Tries logins in order until one may override. -/
def tryLogins (u : Update) : List Login → Consult Bool
  | [] => pure false
  | login :: rest => do
    match ← Consult.askUser login.username with
    | .ok user =>
      if user.mayOverride login.password u.objectType then return true else tryLogins u rest
    | .error _ => tryLogins u rest

/-- What speaks against an override request before any login is tried. -/
def overrideObstacles (a : Authority) (o : Origin) (overrides : List OverrideValue) :
    List Message :=
  let place : Messages :=
    if !o.allowsAdministration then Messages.empty.push (.overrideNotAllowed o)
    else if !a.trusts o.sender then Messages.empty.push .overrideByAdministratorsOnly
    else .empty
  (if overrides.length = 1 then place else place.push .multipleOverrides).toList

/-- The refusal of an override request, which is never left to wait. -/
def refuseOverride (reasons : List Message) : Ruling :=
  { subject := {}, verdict := some .failedAuthentication, messages := reasons }

/-- Decides about an override request. -/
def override (a : Authority) (o : Origin) (u : Update) : Consult Ruling :=
  let overrides := u.credentials.overrides
  match a.overrideObstacles o overrides with
  | [] => do
    if ← tryLogins u (overrides.flatMap (·.candidates)) then
      return { subject := .ofPrincipal .overrideMaintainer, messages := [.overrideUsed] }
    else return refuseOverride [.overrideFailed]
  | obstacles => pure (refuseOverride obstacles)

/-- Decides about an update. -/
def decide (a : Authority) (o : Origin) (u : Update) (c : Context) : Consult Ruling :=
  if o.overridesByDefault then pure { subject := .ofPrincipal .overrideMaintainer }
  else if u.isOverride then a.override o u
  else a.judge o u c

/-- Decides about an update and records the ruling in its context. -/
def authenticate (a : Authority) (o : Origin) (u : Update) (c : Context) : Consult Evaluation := do
  return (← a.decide o u c).recordIn c

end Authority

end RegistryConsent
