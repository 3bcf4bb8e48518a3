import RegistryConsent.Strategy.Maintainers

/-!
# Authentication by the maintainers of a record

The governing version of a record is the submitted one when it is created and the stored one
otherwise, so that an update cannot appoint its own judges. It passes when one of the maintainers
that the governing version names vouches for it, or when that version names none.
-/

namespace RegistryConsent

/-- The version of the record whose maintainers decide, if there is one. -/
def governingRecord (u : Update) : Consult (Option Record) :=
  if u.action = .create then pure (some u.record) else .stored u.objectType u.key

/-- The judgement of the maintainers of a governing version. -/
def judgeByMaintainers (u : Update) : Option Record → Consult Outcome
  | none => pure (.error (.because (.referenceMissing u.objectType.name u.key.spelling)))
  | some record =>
    if record.maintainers.isEmpty then pure (.ok [])
    else authenticateBy u record Record.mntBy.spelling record.maintainers

/-- Passes by the consent of a maintainer of the governing version. -/
def Strategy.mntBy : Strategy where
  name := "MntByAuthentication"
  supports u := u.action != .create || !u.record.maintainers.isEmpty
  authenticate u _ := governingRecord u >>= judgeByMaintainers u
  deferrable := [.route, .route6]

end RegistryConsent
