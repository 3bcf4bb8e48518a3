import Mathlib.Init
import RegistryConsent.Credential.Set

/-!
# Indexed credentials

Credentials in the order of submission beside an index by hash, so that a look-up does not run
through the list.
-/

namespace RegistryConsent

/-- Credentials in the order in which they were first added, and an index of them. -/
structure IndexedCredentials [Hashable Credential] where
  items : List Credential
  seen : Std.HashSet Credential

namespace IndexedCredentials

variable [Hashable Credential]

/-- No credentials. -/
def empty : IndexedCredentials := ⟨[], ∅⟩

/-- Enters a credential into the index, puts it at the end unless it was there, and tells whether it
was new. -/
def add (s : IndexedCredentials) (c : Credential) : IndexedCredentials × Bool :=
  match s.seen.containsThenInsert c with
  | (true, seen) => ({ s with seen }, false)
  | (false, seen) => (⟨s.items ++ [c], seen⟩, true)

/-- The credentials of a list. -/
def ofList (cs : List Credential) : IndexedCredentials := cs.foldl (fun s c => (s.add c).1) empty

end IndexedCredentials

end RegistryConsent
