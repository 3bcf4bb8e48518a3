import RegistryConsent.SortedSet

/-!
# Principals

The roles that an evaluation may confer, in the order in which they are declared.
-/

namespace RegistryConsent

/-- A role in the registry. -/
inductive Principal where
  /-- A database administrator who acts by override. -/
  | overrideMaintainer
  | powerMaintainer
  | enduserMaintainer
  | allocMaintainer
  | rsMaintainer
  | enumMaintainer
  | dbmMaintainer
deriving DecidableEq, Inhabited

namespace Principal

/-- Principals are in the order in which they are listed. -/
instance : Ord Principal := ⟨compareOn Principal.ctorIdx⟩

/-- The order of principals is that of their places, hence transitive. -/
instance : Std.TransOrd Principal := inferInstanceAs (Std.TransCmp (compareOn Principal.ctorIdx))

/-- Every principal, in order. -/
def all : List Principal :=
  [overrideMaintainer, powerMaintainer, enduserMaintainer, allocMaintainer, rsMaintainer,
    enumMaintainer, dbmMaintainer]

/-- The name of a principal. -/
def name : Principal → String
  | overrideMaintainer => "override-maintainer"
  | powerMaintainer => "power-maintainer"
  | enduserMaintainer => "enduser-maintainer"
  | allocMaintainer => "alloc-maintainer"
  | rsMaintainer => "rs-maintainer"
  | enumMaintainer => "enum-maintainer"
  | dbmMaintainer => "dbm-maintainer"

end Principal

end RegistryConsent
