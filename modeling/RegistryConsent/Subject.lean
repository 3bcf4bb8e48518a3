import RegistryConsent.Principal

/-!
# Subjects

The outcome of one evaluation: the principals it confers and the strategies that passed and failed.
-/

namespace RegistryConsent

/-- What an evaluation confers, and who judged it how. -/
structure Subject where
  principals : SortedSet Principal := .empty
  /-- The names of the strategies that passed. -/
  passed : SortedSet String := .empty
  /-- The names of the strategies that applied and failed. -/
  failed : SortedSet String := .empty
deriving DecidableEq

namespace Subject

/-- The subject without principals and strategies. -/
instance : Inhabited Subject := ⟨{}⟩

/-- The subject that holds one principal and no strategy. -/
def ofPrincipal (p : Principal) : Subject := { principals := .single p }

/-- Whether a principal is conferred. -/
def has (s : Subject) (p : Principal) : Bool := s.principals.contains p

/-- Whether nothing is conferred and no strategy is named. -/
def isEmpty (s : Subject) : Bool := s.principals.isEmpty && s.passed.isEmpty && s.failed.isEmpty

end Subject

end RegistryConsent
