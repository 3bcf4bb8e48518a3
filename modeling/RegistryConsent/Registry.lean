import RegistryConsent.Handle
import RegistryConsent.Principal
import RegistryConsent.Text.Quoted

/-!
# The registry of principals

Which principals the maintainers of the registry carry. The registry is built from groups of names,
each group conferring one principal, and answers for a name in any case.
-/

namespace RegistryConsent

/-- Names that confer a principal. -/
structure MaintainerGroup where
  names : List Handle
  principal : Principal

/-- A blank name in a group. -/
structure InvalidMaintainer where
  principal : Principal
  name : Handle
deriving DecidableEq

/-- The wording of the error. -/
def InvalidMaintainer.message (e : InvalidMaintainer) : String :=
  "invalid maintainer name for " ++ e.principal.name ++ ": " ++ Text.quoted e.name.spelling

/-- The principals of each maintainer, no two maintainers being the same. -/
structure Registry where
  entries : List (Handle × SortedSet Principal)

namespace Registry

/-- The registry without maintainers. -/
def empty : Registry := ⟨[]⟩

/-- Confers a principal on a name. -/
def confer (r : Registry) (name : Handle) (p : Principal) : Registry := ⟨fileUnder name p r.entries⟩

/-- Confers the principal of a group on its names, none of which may be blank. -/
def addGroup (r : Registry) (g : MaintainerGroup) : Except InvalidMaintainer Registry :=
  g.names.foldlM (fun r name =>
    if name.isBlank then .error ⟨g.principal, name⟩ else .ok (r.confer name g.principal)) r

/-- The registry of some groups; the first blank name is the error. -/
def build (groups : List MaintainerGroup) : Except InvalidMaintainer Registry :=
  groups.foldlM addGroup empty

/-- The principals that a name carries. -/
def lookup (r : Registry) (name : Handle) : SortedSet Principal :=
  (filedUnder? r.entries name).getD .empty

/-- The number of maintainers. -/
def size (r : Registry) : Nat := r.entries.length

end Registry

/-- The names that the registry's configuration lists for each principal. -/
structure Maintainers where
  power : SortedSet Handle := .empty
  enduser : SortedSet Handle := .empty
  alloc : SortedSet Handle := .empty
  rs : SortedSet Handle := .empty
  enum : SortedSet Handle := .empty
  dbm : SortedSet Handle := .empty
deriving DecidableEq

namespace Maintainers

/-- No maintainer is listed under any principal. -/
instance : Inhabited Maintainers := ⟨{}⟩

/-- The listed names as groups. -/
def groups (m : Maintainers) : List MaintainerGroup :=
  [⟨m.power.toList, .powerMaintainer⟩, ⟨m.enduser.toList, .enduserMaintainer⟩,
    ⟨m.alloc.toList, .allocMaintainer⟩, ⟨m.rs.toList, .rsMaintainer⟩,
    ⟨m.enum.toList, .enumMaintainer⟩, ⟨m.dbm.toList, .dbmMaintainer⟩]

/-- The registry of the listed names. -/
def registry (m : Maintainers) : Except InvalidMaintainer Registry := Registry.build m.groups

end Maintainers

end RegistryConsent
