import RegistryConsent.Deferral
import RegistryConsent.Proofs.SortedSet

/-!
# When an update waits

The index of the strategies that may be waited for gives back, for each type of objects, what the
strategies declare. With it a rejected update waits exactly when it creates an object, no error was
there before, every strategy that failed declares the type and some strategy that passed does.
-/

namespace RegistryConsent.Deferral

/-- The names of the strategies that declare a type. -/
def declaring (strategies : List Strategy) (t : ObjectType) : List String :=
  (strategies.filter (·.deferrable.contains t)).map (·.name)

/-- The names that declare a type are those of the strategies that list it. -/
theorem mem_declaring_iff (strategies : List Strategy) (t : ObjectType) (name : String) :
    name ∈ declaring strategies t ↔
      ∃ strategy ∈ strategies, strategy.name = name ∧ t ∈ strategy.deferrable := by
  simp only [declaring, List.mem_map, List.mem_filter, List.contains_iff_mem, and_assoc,
    and_comm (a := _ ∈ Strategy.deferrable _)]

/-- Some name declares a type when some strategy lists it. -/
theorem declaring_ne_nil_iff (strategies : List Strategy) (t : ObjectType) :
    declaring strategies t ≠ [] ↔ ∃ strategy ∈ strategies, t ∈ strategy.deferrable := by
  constructor
  · intro named
    obtain ⟨name, hname⟩ := List.exists_mem_of_ne_nil _ named
    obtain ⟨strategy, hmem, -, lists⟩ := (mem_declaring_iff strategies t name).mp hname
    exact ⟨strategy, hmem, lists⟩
  · rintro ⟨strategy, hmem, lists⟩
    exact List.ne_nil_of_mem
      ((mem_declaring_iff strategies t strategy.name).mpr ⟨strategy, hmem, rfl, lists⟩)

/-- A name is filed under a type. -/
def Files (d : Deferral) (t : ObjectType) (name : String) : Prop :=
  ∃ names, d.get? t = some names ∧ name ∈ names.toList

/-- Filing a name adds it to those of its type and leaves the other types as they are. -/
theorem get?_file (d : Deferral) (t u : ObjectType) (name : String) :
    (d.file t name).get? u =
      if t = u then some (((d.get? u).getD .empty).insert name) else d.get? u := by
  rw [get?, file, filedUnder?_fileUnder]
  simp only [beq_iff_eq, get?]

/-- One name more is filed under the type of a step. -/
theorem files_file_iff (d : Deferral) (t u : ObjectType) (name other : String) :
    (d.file t name).Files u other ↔ (name = other ∧ t = u) ∨ d.Files u other := by
  rw [Files, Files, get?_file]
  by_cases same : t = u
  · cases found : d.get? u <;> simp [same, SortedSet.mem_insert, SortedSet.empty, eq_comm]
  · simp [same]

/-- The type of a step is found afterwards. -/
theorem isSome_get?_file_iff (d : Deferral) (t u : ObjectType) (name : String) :
    ((d.file t name).get? u).isSome = true ↔ t = u ∨ (d.get? u).isSome = true := by
  rw [get?_file]
  split <;> simp [*]

/-- A strategy is filed under the types that it declares. -/
theorem files_addStrategy_iff (d : Deferral) (strategy : Strategy) (t : ObjectType)
    (name : String) :
    (d.addStrategy strategy).Files t name ↔
      (strategy.name = name ∧ t ∈ strategy.deferrable) ∨ d.Files t name := by
  rw [addStrategy, foldl_iff (P := fun d => Files d t name)
    fun d u => files_file_iff d u t strategy.name name]
  simp [and_comm (b := t ∈ strategy.deferrable)]

/-- The types that a strategy declares are found afterwards. -/
theorem isSome_get?_addStrategy_iff (d : Deferral) (strategy : Strategy) (t : ObjectType) :
    ((d.addStrategy strategy).get? t).isSome = true ↔
      t ∈ strategy.deferrable ∨ (d.get? t).isSome = true := by
  rw [addStrategy, foldl_iff (P := fun d => (get? d t).isSome = true)
    fun d u => isSome_get?_file_iff d u t strategy.name]
  simp

/-- Under a type the names are filed that declare it. -/
theorem files_ofStrategies_iff (strategies : List Strategy) (t : ObjectType) (name : String) :
    (ofStrategies strategies).Files t name ↔ name ∈ declaring strategies t := by
  rw [ofStrategies, foldl_iff (P := fun d => Files d t name)
    fun d strategy => files_addStrategy_iff d strategy t name, mem_declaring_iff]
  simp [Files, get?, filedUnder?, empty]

/-- The types that are found are those that are declared. -/
theorem isSome_get?_ofStrategies_iff (strategies : List Strategy) (t : ObjectType) :
    ((ofStrategies strategies).get? t).isSome = true ↔
      ∃ strategy ∈ strategies, t ∈ strategy.deferrable := by
  rw [ofStrategies, foldl_iff (P := fun d => (get? d t).isSome = true)
    fun d strategy => isSome_get?_addStrategy_iff d strategy t]
  simp [get?, filedUnder?, empty]

/-- The index has an entry for the types that are declared, with the names that declare them. -/
theorem get?_ofStrategies (strategies : List Strategy) (t : ObjectType) :
    (ofStrategies strategies).get? t =
      if declaring strategies t = [] then none else some (.ofList (declaring strategies t)) := by
  have found := isSome_get?_ofStrategies_iff strategies t
  rw [← declaring_ne_nil_iff] at found
  cases filed : (ofStrategies strategies).get? t with
  | none => simp_all
  | some names =>
    rw [if_neg (found.mp (by rw [filed]; rfl))]
    refine congrArg some (SortedSet.ext_mem fun name => ?_)
    rw [SortedSet.mem_ofList, ← files_ofStrategies_iff, Files, filed]
    simp

/-- An index of what strategies declare. -/
structure Indexes (d : Deferral) (strategies : List Strategy) : Prop where
  /-- A type that is found has the names of those that declare it. -/
  names {t : ObjectType} {names : SortedSet String} : d.get? t = some names → ∀ name,
    name ∈ names.toList ↔ ∃ strategy ∈ strategies, strategy.name = name ∧ t ∈ strategy.deferrable
  /-- The types that are found are those that some strategy declares. -/
  found (t : ObjectType) :
    (∃ names, d.get? t = some names) ↔ ∃ strategy ∈ strategies, t ∈ strategy.deferrable
  /-- There is no entry for another type. -/
  declared : ∀ entry ∈ d.entries, ∃ strategy ∈ strategies, entry.1 ∈ strategy.deferrable

/-- The index of some strategies is one of what they declare. -/
theorem indexes_ofStrategies (strategies : List Strategy) :
    (ofStrategies strategies).Indexes strategies where
  names {t names} h name := by
    rw [← mem_declaring_iff, ← files_ofStrategies_iff, Files, h]
    simp
  found t := by
    rw [← isSome_get?_ofStrategies_iff, Option.isSome_iff_exists]
  declared entry h := by
    rw [← isSome_get?_ofStrategies_iff, get?, filedUnder?, Option.isSome_map, List.find?_isSome]
    exact ⟨entry, h, beq_self_eq_true _⟩

/-- A rejected update waits when it creates an object, no error was there before, only strategies
that declare its type have failed and one of them has passed. -/
theorem isPending_iff (strategies : List Strategy) (u : Update) (c : Context) (s : Subject) :
    (ofStrategies strategies).isPending u c s = true ↔
      c.hasErrors = false ∧ u.action = .create ∧
      (∀ name ∈ s.failed.toList, name ∈ declaring strategies u.objectType) ∧
      ∃ name ∈ s.passed.toList, name ∈ declaring strategies u.objectType := by
  rw [isPending, get?_ofStrategies]
  by_cases h : declaring strategies u.objectType = []
  · simp [h]
  · simp [h, SortedSet.contains_iff, and_assoc]

end RegistryConsent.Deferral
