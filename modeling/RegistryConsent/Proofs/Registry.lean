import RegistryConsent.Policy
import RegistryConsent.Proofs.SortedSet

/-!
# What a registry confers

A registry that is built from groups of names confers a principal on a name exactly when a group of
this principal lists the name in some case. The groups of a configuration stand for six principals,
so that none of its registries confers the override of an administrator.
-/

namespace RegistryConsent

namespace Registry

/-- A name carries the same principals in every case. -/
theorem lookup_congr (r : Registry) {x y : Handle} (h : (x == y) = true) :
    r.lookup x = r.lookup y := by
  rw [lookup, lookup, filedUnder?_congr r.entries h]

/-- Conferring a principal on a name adds it to what the name carries in any case. -/
theorem lookup_confer (r : Registry) (name x : Handle) (p : Principal) :
    (r.confer name p).lookup x = if name == x then (r.lookup x).insert p else r.lookup x := by
  rw [lookup, confer, filedUnder?_fileUnder]
  split <;> rfl

/-- A name carries the principals that have been conferred on it, one more by each step. -/
theorem mem_lookup_confer (r : Registry) (name x : Handle) (p q : Principal) :
    q ∈ ((r.confer name p).lookup x).toList ↔ (p = q ∧ name == x) ∨ q ∈ (r.lookup x).toList := by
  rw [lookup_confer]
  by_cases hx : name == x
  · simp [hx, SortedSet.mem_insert, eq_comm]
  · simp [hx]

/-- The names of some groups in order, each with the principal of its group. -/
def listings (groups : List MaintainerGroup) : List (Principal × Handle) :=
  groups.flatMap fun g => g.names.map fun name => (g.principal, name)

/-- What is listed is a name of a group. -/
theorem exists_mem_listings_iff {groups : List MaintainerGroup} {P : Principal × Handle → Prop} :
    (∃ l ∈ listings groups, P l) ↔ ∃ g ∈ groups, ∃ name ∈ g.names, P (g.principal, name) := by
  simp only [listings, List.mem_flatMap, List.mem_map]
  constructor
  · rintro ⟨_, ⟨g, hg, name, hname, rfl⟩, h⟩
    exact ⟨g, hg, name, hname, h⟩
  · rintro ⟨g, hg, name, hname, h⟩
    exact ⟨_, ⟨g, hg, name, hname, rfl⟩, h⟩

/-- Confers principals on names, one after the other. -/
def conferAll (r : Registry) (listed : List (Principal × Handle)) : Registry :=
  listed.foldl (fun r l => r.confer l.2 l.1) r

/-- Confers a principal on a name that is not blank. -/
def accept (r : Registry) (l : Principal × Handle) : Except InvalidMaintainer Registry :=
  if l.2.isBlank then .error ⟨l.1, l.2⟩ else .ok (r.confer l.2 l.1)

/-- The groups are read as one list of names. -/
theorem foldlM_addGroup (groups : List MaintainerGroup) (r : Registry) :
    groups.foldlM addGroup r = (listings groups).foldlM accept r := by
  induction groups generalizing r with
  | nil => rfl
  | cons g groups ih =>
    have group : r.addGroup g = (g.names.map fun name => (g.principal, name)).foldlM accept r := by
      rw [List.foldlM_map]
      rfl
    rw [List.foldlM_cons, listings, List.flatMap_cons, List.foldlM_append, group]
    exact bind_congr ih

/-- The first blank name ends the reading; without one, all names are read. -/
theorem foldlM_accept (listed : List (Principal × Handle)) (r : Registry) :
    listed.foldlM accept r =
      match listed.find? (·.2.isBlank) with
      | some l => .error ⟨l.1, l.2⟩
      | none => .ok (r.conferAll listed) := by
  induction listed generalizing r with
  | nil => rfl
  | cons l listed ih =>
    rw [List.foldlM_cons, List.find?_cons, accept]
    cases l.2.isBlank with
    | true => rfl
    | false => exact ih (r.confer l.2 l.1)

/-- A registry is built from the list of all names, unless one of them is blank. -/
theorem build_eq (groups : List MaintainerGroup) :
    build groups =
      match (listings groups).find? (·.2.isBlank) with
      | some l => .error ⟨l.1, l.2⟩
      | none => .ok (empty.conferAll (listings groups)) := by
  rw [build, foldlM_addGroup, foldlM_accept]

/-- The error is the first blank name with the principal of its group. -/
theorem build_eq_error_iff {groups : List MaintainerGroup} {e : InvalidMaintainer} :
    build groups = .error e ↔
      (listings groups).find? (·.2.isBlank) = some (e.principal, e.name) := by
  rw [build_eq]
  cases (listings groups).find? (·.2.isBlank) with
  | none => exact ⟨nofun, nofun⟩
  | some l =>
    constructor
    · intro h
      cases h
      rfl
    · intro h
      cases h
      rfl

/-- A registry comes out when no name is blank, and all names have been read into it. -/
theorem build_eq_ok_iff {groups : List MaintainerGroup} {r : Registry} :
    build groups = .ok r ↔
      (listings groups).find? (·.2.isBlank) = none ∧ empty.conferAll (listings groups) = r := by
  rw [build_eq]
  cases (listings groups).find? (·.2.isBlank) with
  | none => exact ⟨fun h => ⟨rfl, Except.ok.inj h⟩, fun h => congrArg Except.ok h.2⟩
  | some l => exact ⟨nofun, nofun⟩

/-- A name carries what has been conferred on it in any case and what it carried before. -/
theorem mem_lookup_conferAll (r : Registry) (listed : List (Principal × Handle)) (x : Handle)
    (q : Principal) :
    q ∈ ((r.conferAll listed).lookup x).toList ↔
      (∃ l ∈ listed, l.1 = q ∧ l.2 == x) ∨ q ∈ (r.lookup x).toList :=
  foldl_iff (P := fun r => q ∈ (Registry.lookup r x).toList)
    (fun r l => mem_lookup_confer r l.2 x l.1 q) r listed

/-- A registry confers exactly what some group of it confers. -/
theorem mem_lookup_build (groups : List MaintainerGroup) (r : Registry) (h : build groups = .ok r)
    (x : Handle) (q : Principal) :
    q ∈ (r.lookup x).toList ↔
      ∃ g ∈ groups, ∃ name ∈ g.names, g.principal = q ∧ name == x := by
  obtain ⟨-, rfl⟩ := build_eq_ok_iff.mp h
  rw [mem_lookup_conferAll, exists_mem_listings_iff]
  simp [lookup, filedUnder?, empty, SortedSet.empty]

end Registry

namespace Maintainers

/-- The names that a configuration lists for a principal; there are none for the override of an
administrator. -/
def names (m : Maintainers) : Principal → SortedSet Handle
  | .overrideMaintainer => .empty
  | .powerMaintainer => m.power
  | .enduserMaintainer => m.enduser
  | .allocMaintainer => m.alloc
  | .rsMaintainer => m.rs
  | .enumMaintainer => m.enum
  | .dbmMaintainer => m.dbm

/-- A configuration confers a principal on the names that it lists for it, in any case. -/
theorem mem_lookup_iff (m : Maintainers) (r : Registry) (h : m.registry = .ok r) (x : Handle)
    (p : Principal) :
    p ∈ (r.lookup x).toList ↔ ∃ name ∈ (m.names p).toList, name == x := by
  rw [Registry.mem_lookup_build m.groups r h]
  cases p <;> simp [groups, names, SortedSet.empty]

/-- No configured name carries the override of an administrator. -/
theorem overrideMaintainer_not_mem_lookup (m : Maintainers) (r : Registry)
    (h : m.registry = .ok r) (x : Handle) :
    Principal.overrideMaintainer ∉ (r.lookup x).toList := by
  rw [mem_lookup_iff m r h]
  rintro ⟨_, listed, -⟩
  cases listed

end Maintainers

end RegistryConsent
