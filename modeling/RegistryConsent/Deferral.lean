import RegistryConsent.Strategy

/-!
# Deferral

For some types of objects a creation needs the consent of several parties. When one of them has
agreed and only such parties are missing, the update waits for them instead of failing. The index
tells for each type which strategies may be waited for.
-/

namespace RegistryConsent

/-- The names of the strategies that may be waited for, under each type of objects that some
strategy declares. -/
structure Deferral where
  entries : List (ObjectType × SortedSet String)

namespace Deferral

/-- The index without entries. -/
def empty : Deferral := ⟨[]⟩

/-- Files the name of a strategy under a type. -/
def file (d : Deferral) (t : ObjectType) (name : String) : Deferral := ⟨fileUnder t name d.entries⟩

/-- Files the name of a strategy under each type that it declares. -/
def addStrategy (d : Deferral) (strategy : Strategy) : Deferral :=
  strategy.deferrable.foldl (fun d t => d.file t strategy.name) d

/-- The index of what some strategies declare. -/
def ofStrategies (strategies : List Strategy) : Deferral := strategies.foldl addStrategy empty

/-- The names for a type, if any strategy declares it. -/
def get? (d : Deferral) (t : ObjectType) : Option (SortedSet String) := filedUnder? d.entries t

/-- Whether a rejected update waits: it creates an object, no error was reported before, all that
failed may be waited for and some of those have passed. -/
def isPending (d : Deferral) (u : Update) (c : Context) (s : Subject) : Bool :=
  !c.hasErrors && u.action == .create &&
    match d.get? u.objectType with
    | none => false
    | some names => s.failed.toList.all names.contains && s.passed.toList.any names.contains

end Deferral

end RegistryConsent
