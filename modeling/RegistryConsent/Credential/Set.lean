import RegistryConsent.Credential

/-!
# Credential sets

The credentials of an update in the order of submission, each once.
-/

namespace RegistryConsent

/-- Credentials in the order in which they were first added. -/
structure CredentialSet where
  toList : List Credential
  nodup : toList.Nodup

namespace CredentialSet

/-- Sets with the same credentials in the same order are equal. -/
theorem ext {s t : CredentialSet} (h : s.toList = t.toList) : s = t := by
  cases s; cases t; cases h; rfl

/-- Sets are compared by their lists. -/
instance : DecidableEq CredentialSet := fun s t =>
  decidable_of_iff (s.toList = t.toList) ⟨ext, fun h => h ▸ rfl⟩

/-- The set without credentials. -/
def empty : CredentialSet := ⟨[], .nil⟩

/-- Adds a credential at the end unless it is there, and tells whether it was new. -/
def add (s : CredentialSet) (c : Credential) : CredentialSet × Bool :=
  if h : c ∈ s.toList then (s, false)
  else
    (⟨s.toList ++ [c], List.nodup_append.2
      ⟨s.nodup, by simp, fun a ha b hb => by rintro rfl; exact h (List.mem_singleton.1 hb ▸ ha)⟩⟩,
      true)

/-- The set of the credentials of a list. -/
def ofList (cs : List Credential) : CredentialSet := cs.foldl (fun s c => (s.add c).1) empty

/-- The passwords, in order. -/
def passwords (s : CredentialSet) : List String :=
  s.toList.filterMap fun | .password p => some p | _ => none

/-- The override values, in order. -/
def overrides (s : CredentialSet) : List OverrideValue :=
  s.toList.filterMap fun | .override v => some v | _ => none

/-- The signed texts, in order. -/
def signedTexts (s : CredentialSet) : List SignedText :=
  s.toList.filterMap fun | .signed t => some t | _ => none

end CredentialSet

end RegistryConsent
