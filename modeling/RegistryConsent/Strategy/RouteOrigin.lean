import RegistryConsent.Strategy.Maintainers

/-!
# Authentication by the origin of a route

A new route needs the consent of the autonomous system it starts from: of one of the maintainers
that the stored object of that system names.
-/

namespace RegistryConsent

/-- Refuses because there is no autonomous system of the name. -/
def missingAutNum (name : String) : Outcome :=
  .error (.because (.referenceMissing ObjectType.autNum.name name))

/-- The judgement of the autonomous system of a name. -/
def judgeByOrigin (u : Update) : Option Handle → Consult Outcome
  | none => pure (missingAutNum "(none)")
  | some origin => do
    match ← Consult.stored .autNum origin with
    | none => return missingAutNum origin.spelling
    | some autNum => authenticateBy u autNum Record.mntBy.spelling autNum.maintainers

/-- Passes a new route by the consent of a maintainer of its origin. -/
def Strategy.routeOrigin : Strategy where
  name := "RouteAutnumAuthentication"
  supports u := u.action == .create && (u.objectType == .route || u.objectType == .route6) &&
    u.record.originHandle.isSome
  authenticate u _ := judgeByOrigin u u.record.originHandle
  deferrable := [.route, .route6]

end RegistryConsent
