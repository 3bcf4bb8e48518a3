/-!
# Finite sets kept in ascending order

A set is its strictly ascending list of elements, so that two sets over a lawful order are equal
when they have the same elements. Elements that compare equal count as one: inserting keeps the
element that is there already. Where values are filed under keys, each key has the set of its own.
-/

namespace RegistryConsent

/-- Puts an element at its place in an ascending list, unless one that compares equal is there. -/
def insertAscending {α : Type} [Ord α] (x : α) : List α → List α
  | [] => [x]
  | y :: ys =>
    match compare x y with
    | .lt => x :: y :: ys
    | .eq => y :: ys
    | .gt => y :: insertAscending x ys

/-- The result holds only the new element and the former ones. -/
theorem mem_of_mem_insertAscending {α : Type} [Ord α] {x b : α} {ys : List α}
    (h : b ∈ insertAscending x ys) : b = x ∨ b ∈ ys := by
  induction ys with
  | nil => simpa [insertAscending] using h
  | cons y ys ih =>
    unfold insertAscending at h
    split at h <;> simp only [List.mem_cons] at h ⊢
    · exact h
    · exact .inr h
    · rcases h with h | h
      · exact .inr (.inl h)
      · exact (ih h).imp id .inr

/-- Ascending lists stay ascending. -/
theorem pairwise_insertAscending {α : Type} [Ord α] [Std.TransOrd α] (x : α) {ys : List α}
    (h : ys.Pairwise fun a b => compare a b = .lt) :
    (insertAscending x ys).Pairwise fun a b => compare a b = .lt := by
  induction ys with
  | nil => simp [insertAscending]
  | cons y ys ih =>
    obtain ⟨hy, hys⟩ := List.pairwise_cons.1 h
    unfold insertAscending
    split
    · rename_i hxy
      refine List.pairwise_cons.2 ⟨fun b hb => ?_, h⟩
      rcases List.mem_cons.1 hb with rfl | hb
      · exact hxy
      · exact Std.TransCmp.lt_trans hxy (hy b hb)
    · exact h
    · rename_i hxy
      refine List.pairwise_cons.2 ⟨fun b hb => ?_, ih hys⟩
      rcases mem_of_mem_insertAscending hb with rfl | hb
      · exact Std.OrientedCmp.lt_of_gt hxy
      · exact hy b hb

/-- A finite set, kept as the strictly ascending list of its elements. -/
structure SortedSet (α : Type) [Ord α] where
  /-- The elements in ascending order. -/
  toList : List α
  /-- Each element is below all that follow it. -/
  ascending : toList.Pairwise fun a b => compare a b = .lt

namespace SortedSet

variable {α : Type} [Ord α]

/-- Sets with the same list of elements are equal. -/
theorem ext {s t : SortedSet α} (h : s.toList = t.toList) : s = t := by
  cases s; cases t; cases h; rfl

/-- Sets are compared by their lists. -/
instance [DecidableEq α] : DecidableEq (SortedSet α) := fun s t =>
  decidable_of_iff (s.toList = t.toList) ⟨ext, fun h => h ▸ rfl⟩

/-- The set without elements. -/
def empty : SortedSet α := ⟨[], .nil⟩

/-- Unless told otherwise a set is empty. -/
instance : Inhabited (SortedSet α) := ⟨empty⟩

/-- The set of one element. -/
def single (x : α) : SortedSet α := ⟨[x], by simp⟩

/-- Whether a set has no element. -/
def isEmpty (s : SortedSet α) : Bool := s.toList.isEmpty

/-- The number of elements. -/
def size (s : SortedSet α) : Nat := s.toList.length

/-- Whether an element that compares equal to `x` is in the set. -/
def contains (s : SortedSet α) (x : α) : Bool := s.toList.any fun y => compare x y == .eq

variable [Std.TransOrd α]

/-- Adds an element; one that is there already is kept in its place. -/
def insert (s : SortedSet α) (x : α) : SortedSet α :=
  ⟨insertAscending x s.toList, pairwise_insertAscending x s.ascending⟩

/-- Adds the elements of a list from left to right. -/
def insertMany (s : SortedSet α) (xs : List α) : SortedSet α := xs.foldl insert s

/-- The set of the elements of a list, the first of those that compare equal being kept. -/
def ofList (xs : List α) : SortedSet α := empty.insertMany xs

end SortedSet

/-- Files a value under a key, which is entered at the end unless it is there. -/
def fileUnder {κ α : Type} [BEq κ] [Ord α] [Std.TransOrd α] (key : κ) (x : α) :
    List (κ × SortedSet α) → List (κ × SortedSet α)
  | [] => [(key, SortedSet.empty.insert x)]
  | (k, xs) :: rest =>
    if k == key then (k, xs.insert x) :: rest else (k, xs) :: fileUnder key x rest

/-- What is filed under a key, if anything is. -/
def filedUnder? {κ α : Type} [BEq κ] [Ord α] (entries : List (κ × SortedSet α)) (key : κ) :
    Option (SortedSet α) :=
  (entries.find? (·.1 == key)).map (·.2)

end RegistryConsent
