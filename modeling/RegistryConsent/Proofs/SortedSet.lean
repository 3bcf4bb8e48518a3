import RegistryConsent.ObjectType
import RegistryConsent.Principal

/-!
# Members of sorted sets

Over an order in which only equal elements compare equal, a set holds exactly what has been put into
it. The orders of texts, principals and types of objects are of this kind. Over any other order it
holds, of elements that compare equal, the one that was put into it first. Under a key there is what
has been filed under it, and nothing that was filed under another one.
-/

namespace RegistryConsent

/-- What one step of a fold makes true for its own element, or leaves true, holds after all steps
when one of the elements makes it true or it was true before. -/
theorem foldl_iff {α β : Type} {f : β → α → β} {P : β → Prop} {Q : α → Prop}
    (step : ∀ b a, P (f b a) ↔ Q a ∨ P b) (b : β) (as : List α) :
    P (as.foldl f b) ↔ (∃ a ∈ as, Q a) ∨ P b := by
  induction as generalizing b with
  | nil => simp
  | cons a as ih =>
    rw [List.foldl_cons, ih, step]
    simp only [List.mem_cons, exists_eq_or_imp]
    rw [or_left_comm, or_assoc]

/-- Exactly the new element and the former ones are in the result. -/
theorem mem_insertAscending {α : Type} [Ord α] [Std.LawfulEqOrd α] (x b : α) (ys : List α) :
    b ∈ insertAscending x ys ↔ b = x ∨ b ∈ ys := by
  refine ⟨mem_of_mem_insertAscending, ?_⟩
  induction ys with
  | nil => simp [insertAscending]
  | cons y ys ih =>
    intro h
    unfold insertAscending
    split
    · simpa using h
    · rename_i hxy
      rcases h with rfl | h
      · simp [Std.LawfulEqOrd.eq_of_compare hxy]
      · exact h
    · rcases h with h | h
      · exact List.mem_cons_of_mem y (ih (.inl h))
      · rcases List.mem_cons.mp h with rfl | h
        · exact List.mem_cons_self
        · exact List.mem_cons_of_mem y (ih (.inr h))

namespace SortedSet

variable {α : Type} [Ord α] [Std.TransOrd α] [Std.LawfulEqOrd α]

omit [Std.TransOrd α] in
/-- A set contains its elements. -/
theorem contains_iff (s : SortedSet α) (x : α) : s.contains x = true ↔ x ∈ s.toList := by
  simp only [contains, List.any_eq_true, beq_iff_eq, Std.LawfulEqOrd.compare_eq_iff_eq]
  exact ⟨fun ⟨y, hy, h⟩ => h ▸ hy, fun h => ⟨x, h, rfl⟩⟩

/-- Inserting adds one element. -/
theorem mem_insert (s : SortedSet α) (x b : α) :
    b ∈ (s.insert x).toList ↔ b = x ∨ b ∈ s.toList :=
  mem_insertAscending x b s.toList

/-- Inserting the elements of a list adds these. -/
theorem mem_insertMany (s : SortedSet α) (xs : List α) (b : α) :
    b ∈ (s.insertMany xs).toList ↔ b ∈ xs ∨ b ∈ s.toList := by
  rw [insertMany, foldl_iff (P := fun s : SortedSet α => b ∈ s.toList) fun s x => s.mem_insert x b]
  simp

/-- The set of a list holds the elements of the list. -/
@[simp] theorem mem_ofList (xs : List α) (b : α) : b ∈ (ofList xs).toList ↔ b ∈ xs := by
  simp [ofList, mem_insertMany, empty]

omit [Std.LawfulEqOrd α] in
/-- No element is there twice. -/
theorem nodup (s : SortedSet α) : s.toList.Nodup := by
  refine s.ascending.imp fun {x y} below same => ?_
  rw [same] at below
  cases (Std.ReflCmp.compare_self (a := y)).symm.trans below

omit [Std.LawfulEqOrd α] in
/-- Sets of the same elements are equal. -/
theorem ext_mem {s t : SortedSet α} (h : ∀ x, x ∈ s.toList ↔ x ∈ t.toList) : s = t := by
  refine ext (List.Perm.eq_of_pairwise ?_ s.ascending t.ascending
    ((List.perm_ext_iff_of_nodup s.nodup t.nodup).mpr h))
  intro x y _ _ below above
  exact absurd above (Std.OrientedCmp.not_lt_of_lt below)

end SortedSet

/-! ### What is found in a set -/

/-- Looking for an element finds the former one, or else the new one. -/
theorem find?_insertAscending {α : Type} [Ord α] [Std.TransOrd α] (x b : α) {ys : List α}
    (ascending : ys.Pairwise fun a b => compare a b = .lt) :
    (insertAscending x ys).find? (compare · b == .eq) =
      (ys.find? (compare · b == .eq)).or ([x].find? (compare · b == .eq)) := by
  induction ys with
  | nil => rfl
  | cons y ys ih =>
    unfold insertAscending
    split
    · rename_i hxy
      by_cases same : compare x b = .eq
      · -- All former elements are behind the new one, and so behind `b`.
        have behind : (y :: ys).find? (compare · b == .eq) = none := by
          rw [List.find?_eq_none]
          intro z hz
          have above : compare x z = .lt := by
            rcases List.mem_cons.mp hz with rfl | hz
            · exact hxy
            · exact Std.TransCmp.lt_trans hxy ((List.pairwise_cons.mp ascending).1 z hz)
          have above : compare b z = .lt :=
            Std.TransCmp.lt_of_eq_of_lt (Std.OrientedCmp.eq_symm same) above
          rw [Std.OrientedCmp.gt_of_lt above]
          exact Bool.false_ne_true
        rw [behind]
        simp [same]
      · simp [same]
    · rename_i hxy
      by_cases same : compare x b = .eq
      · have found : compare y b = .eq :=
          Std.TransCmp.eq_trans (Std.OrientedCmp.eq_symm hxy) same
        simp [found]
      · simp [same]
    · rw [List.find?_cons, List.find?_cons]
      split
      · rfl
      · exact ih (List.pairwise_cons.mp ascending).2

/-- An element that is not there yet is added to the others. -/
theorem insertAscending_perm {α : Type} [Ord α] {x : α} {ys : List α}
    (new : ys.any (compare x · == .eq) = false) : (insertAscending x ys).Perm (x :: ys) := by
  induction ys with
  | nil => exact .rfl
  | cons y ys ih =>
    rw [List.any_cons, Bool.or_eq_false_iff] at new
    unfold insertAscending
    split
    · exact .rfl
    · rename_i same
      rw [same] at new
      cases new.1
    · exact ((ih new.2).cons y).trans (.swap x y ys)

namespace SortedSet

variable {α : Type} [Ord α] [Std.TransOrd α]

/-- The element of a set that compares equal to `x`. -/
def find? (s : SortedSet α) (x : α) : Option α := s.toList.find? (compare · x == .eq)

/-- Of a set and a further element the former one is found first. -/
theorem find?_insert (s : SortedSet α) (x b : α) :
    (s.insert x).find? b = (s.find? b).or ([x].find? (compare · b == .eq)) :=
  find?_insertAscending x b s.ascending

/-- Of elements that compare equal, the one is kept that was put in first. -/
theorem find?_insertMany (s : SortedSet α) (xs : List α) (b : α) :
    (s.insertMany xs).find? b = (s.find? b).or (xs.find? (compare · b == .eq)) := by
  induction xs generalizing s with
  | nil => simp [insertMany]
  | cons x xs ih =>
    rw [insertMany, List.foldl_cons, ← List.singleton_append, List.find?_append, ← Option.or_assoc,
      ← find?_insert]
    exact ih (s.insert x)

/-- In the set of a list there is found what is found first in the list. -/
theorem find?_ofList (xs : List α) (b : α) :
    (ofList xs).find? b = xs.find? (compare · b == .eq) := by
  rw [ofList, find?_insertMany]
  rfl

/-- The elements of a set are those that are found for themselves. -/
theorem mem_iff_find? (s : SortedSet α) (x : α) : x ∈ s.toList ↔ s.find? x = some x := by
  constructor
  · intro hx
    obtain ⟨before, after, split⟩ := List.append_of_mem hx
    have ascending := s.ascending
    rw [split, List.pairwise_append] at ascending
    rw [find?, split, List.find?_eq_some_iff_append]
    refine ⟨by simp, before, after, rfl, fun y hy => ?_⟩
    rw [ascending.2.2 y hy x List.mem_cons_self]
    rfl
  · exact List.mem_of_find?_eq_some

/-- A set contains what is found in it. -/
theorem isSome_find? (s : SortedSet α) (x : α) : (s.find? x).isSome = s.contains x := by
  rw [find?, List.isSome_find?, contains]
  congr 1
  funext y
  rw [Std.OrientedOrd.eq_swap]
  cases compare x y <;> rfl

/-- Sets in which the same is found are equal. -/
theorem ext_find? {s t : SortedSet α} (h : ∀ x, s.find? x = t.find? x) : s = t := by
  apply ext_mem
  intro x
  rw [mem_iff_find?, mem_iff_find?, h]

/-- The elements of a set make it up again. -/
@[simp] theorem ofList_toList (s : SortedSet α) : ofList s.toList = s :=
  ext_find? fun x => find?_ofList s.toList x

/-- Inserting an element that is there changes nothing. -/
theorem insert_of_contains {s : SortedSet α} {x : α} (known : s.contains x = true) :
    s.insert x = s := by
  apply ext_find?
  intro b
  rw [find?_insert]
  cases found : s.find? b with
  | some y => rfl
  | none =>
    have other : compare x b ≠ .eq := by
      intro same
      obtain ⟨y, hy, hxy⟩ := List.any_eq_true.mp known
      have hyb : compare y b = .eq :=
        Std.TransCmp.eq_trans (Std.OrientedCmp.eq_symm (beq_iff_eq.mp hxy)) same
      exact List.find?_eq_none.mp found y hy (beq_iff_eq.mpr hyb)
    simp [other]

/-- A set grows by an element that it does not contain. -/
theorem size_insert (s : SortedSet α) (x : α) :
    (s.insert x).size = if s.contains x then s.size else s.size + 1 := by
  cases known : s.contains x with
  | true => rw [insert_of_contains known, if_pos rfl]
  | false => exact (insertAscending_perm known).length_eq

end SortedSet

/-! ### What is filed under a key -/

section Filed

variable {κ α : Type} [BEq κ] [EquivBEq κ] [Ord α]

/-- The same is filed under keys that count as equal. -/
theorem filedUnder?_congr (entries : List (κ × SortedSet α)) {k l : κ} (h : (k == l) = true) :
    filedUnder? entries k = filedUnder? entries l := by
  have same : (fun entry : κ × SortedSet α => entry.1 == k) = fun entry => entry.1 == l :=
    funext fun entry => BEq.congr_right h
  rw [filedUnder?, filedUnder?, same]

/-- Filing a value adds it to what is under its key and leaves the other keys as they are. -/
theorem filedUnder?_fileUnder [Std.TransOrd α] (key k : κ) (x : α)
    (entries : List (κ × SortedSet α)) :
    filedUnder? (fileUnder key x entries) k =
      if key == k then some (((filedUnder? entries k).getD .empty).insert x)
      else filedUnder? entries k := by
  simp only [filedUnder?]
  induction entries with
  | nil => by_cases hk : key == k <;> simp [fileUnder, hk]
  | cons entry rest ih =>
    obtain ⟨l, xs⟩ := entry
    by_cases hl : l == key
    · have hlk : (l == k) = (key == k) := BEq.congr_left hl
      by_cases hk : key == k <;> simp [fileUnder, hl, hlk, hk]
    · by_cases hlk : l == k
      · have hk : (key == k) = false := by
          rw [Bool.eq_false_iff]
          exact fun hk => hl (BEq.trans hlk (BEq.symm hk))
        simp [fileUnder, hl, hlk, hk]
      · simpa [fileUnder, hl, hlk] using ih

end Filed

/-- Each principal stands at its place among all. -/
private theorem get?_all_principal (p : Principal) : Principal.all[p.ctorIdx]? = some p := by
  cases p <;> rfl

/-- Each object type stands at its place among all. -/
private theorem get?_all_type (t : ObjectType) : ObjectType.all[t.ctorIdx]? = some t := by
  cases t <;> rfl

/-- Principals that compare equal are the same. -/
instance : Std.LawfulEqOrd Principal where
  eq_of_compare := by
    intro p q h
    have hi : p.ctorIdx = q.ctorIdx := Std.LawfulEqOrd.eq_of_compare h
    exact Option.some.inj (by rw [← get?_all_principal, ← get?_all_principal, hi])

/-- Types that compare equal are the same. -/
instance : Std.LawfulEqOrd ObjectType where
  eq_of_compare := by
    intro t u h
    have hi : t.ctorIdx = u.ctorIdx := Std.LawfulEqOrd.eq_of_compare h
    exact Option.some.inj (by rw [← get?_all_type, ← get?_all_type, hi])

end RegistryConsent
