import RegistryConsent.Network.Range
import RegistryConsent.Registry

/-!
# Policies

What an authority is configured with. A policy gives the trusted network and the registry of
principals. `Policy.check` passes when both can be read, and tells the first thing that is wrong
with a policy otherwise.
-/

namespace RegistryConsent

/-- The configuration of an authority. -/
structure Policy where
  /-- The ranges of the registry's own network. -/
  trustedRanges : List String := []
  /-- Whether conferring a principal needs a trusted address on a channel that allows it. -/
  restrictToTrustedNetwork : Bool := true
  /-- The number of passwords that an update may carry. -/
  maxPasswords : Nat := 20
  maintainers : Maintainers := {}
deriving DecidableEq

/-- The policy with every field at its default. -/
instance : Inhabited Policy := ⟨{}⟩

/-- What is wrong with a policy. -/
inductive PolicyError where
  /-- No password at all would be allowed. -/
  | noPasswords
  | range (e : InputError)
  | maintainer (e : InvalidMaintainer)
deriving DecidableEq

/-- The wording of an error. -/
def PolicyError.message : PolicyError → String
  | .noPasswords => "invalid configuration: max_passwords must be at least 1"
  | .range e => "core error: " ++ e.message
  | .maintainer e => "permission error: " ++ e.message

namespace Policy

/-- The trusted ranges. -/
def network (p : Policy) : Except PolicyError (List Range) :=
  (Range.parseAll p.trustedRanges).mapError .range

/-- The registry of principals. -/
def registry (p : Policy) : Except PolicyError Registry :=
  p.maintainers.registry.mapError .maintainer

/-- Checks that a policy allows passwords and that its ranges and then its registry are read. -/
def check (p : Policy) : Except PolicyError Unit := do
  if p.maxPasswords = 0 then throw .noPasswords
  let _ ← p.network
  let _ ← p.registry
  return ()

end Policy

end RegistryConsent
