/-!
# Results in parts

A computation that may fail gives a result when each of its parts does, and the error of the first
part that fails otherwise.
-/

namespace RegistryConsent

/-- A result in two parts is there when both parts give one. -/
theorem bind_eq_ok_iff {ε α β : Type} {x : Except ε α} {f : α → Except ε β} {r : β} :
    x >>= f = .ok r ↔ ∃ a, x = .ok a ∧ f a = .ok r := by
  cases x with
  | error e => exact ⟨nofun, nofun⟩
  | ok a =>
    constructor
    · exact fun h => ⟨a, rfl, h⟩
    · rintro ⟨_, same, h⟩
      cases same
      exact h

/-- An error in two parts is that of the first part, or that of the second behind a result of the
first. -/
theorem bind_eq_error_iff {ε α β : Type} {x : Except ε α} {f : α → Except ε β} {e : ε} :
    x >>= f = .error e ↔ x = .error e ∨ ∃ a, x = .ok a ∧ f a = .error e := by
  cases x with
  | error e' =>
    constructor
    · exact fun h => .inl (congrArg Except.error (Except.error.inj h))
    · rintro (h | ⟨_, h, -⟩) <;> cases h
      rfl
  | ok a =>
    constructor
    · exact fun h => .inr ⟨a, rfl, h⟩
    · rintro (h | ⟨_, same, h⟩)
      · cases h
      · cases same
        exact h

/-- The results for the elements of a list are there when each of them is. -/
theorem mapM_eq_ok_iff {ε α β : Type} {f : α → Except ε β} {xs : List α} {ys : List β} :
    xs.mapM f = .ok ys ↔ xs.map f = ys.map .ok := by
  induction xs generalizing ys with
  | nil =>
    rw [List.mapM_nil, List.map_nil, eq_comm (a := []), List.map_eq_nil_iff]
    exact ⟨fun h => (Except.ok.inj h).symm, fun h => congrArg Except.ok h.symm⟩
  | cons x xs ih =>
    rw [List.mapM_cons, bind_eq_ok_iff, List.map_cons, eq_comm, List.map_eq_cons_iff]
    constructor
    · rintro ⟨y, hy, rest⟩
      obtain ⟨ys, hys, same⟩ := bind_eq_ok_iff.mp rest
      exact ⟨y, ys, (Except.ok.inj same).symm, hy.symm, (ih.mp hys).symm⟩
    · rintro ⟨y, ys, rfl, hy, hys⟩
      exact ⟨y, hy.symm, bind_eq_ok_iff.mpr ⟨ys, ih.mpr hys.symm, rfl⟩⟩

/-- There is a list of results exactly when it is that of the results for the elements. -/
theorem mapM_eq_some_iff {α β : Type} {f : α → Option β} {xs : List α} {ys : List β} :
    xs.mapM f = some ys ↔ xs.map f = ys.map some := by
  induction xs generalizing ys with
  | nil =>
    rw [List.mapM_nil, List.map_nil, eq_comm (a := []), List.map_eq_nil_iff, eq_comm]
    exact Option.some_inj
  | cons x xs ih =>
    rw [List.mapM_cons, Option.bind_eq_bind, Option.bind_eq_some_iff, List.map_cons, eq_comm,
      List.map_eq_cons_iff]
    constructor
    · rintro ⟨y, hy, rest⟩
      obtain ⟨ys, hys, same⟩ := Option.bind_eq_some_iff.mp rest
      exact ⟨y, ys, (Option.some.inj same).symm, hy.symm, (ih.mp hys).symm⟩
    · rintro ⟨y, ys, rfl, hy, hys⟩
      exact ⟨y, hy.symm, Option.bind_eq_some_iff.mpr ⟨ys, ih.mpr hys.symm, rfl⟩⟩

/-- Where there are results for a list, there is one for each element. -/
theorem exists_of_mapM_eq_some {α β : Type} {f : α → Option β} {xs : List α} {ys : List β}
    (h : xs.mapM f = some ys) {x : α} (hx : x ∈ xs) : ∃ y, f x = some y := by
  have there := List.mem_map_of_mem (f := f) hx
  rw [mapM_eq_some_iff.mp h] at there
  obtain ⟨y, -, same⟩ := List.mem_map.mp there
  exact ⟨y, same.symm⟩

/-- There are results for the elements of a list when there is one for each. -/
theorem exists_mapM_eq_ok_iff {ε α β : Type} {f : α → Except ε β} {xs : List α} :
    (∃ ys, xs.mapM f = .ok ys) ↔ ∀ x ∈ xs, ∃ y, f x = .ok y := by
  induction xs with
  | nil => exact ⟨fun _ => List.forall_mem_nil _, fun _ => ⟨[], rfl⟩⟩
  | cons x xs ih =>
    rw [List.forall_mem_cons, ← ih]
    constructor
    · rintro ⟨ys, h⟩
      rw [List.mapM_cons] at h
      obtain ⟨y, hy, h⟩ := bind_eq_ok_iff.mp h
      obtain ⟨ys', hys, -⟩ := bind_eq_ok_iff.mp h
      exact ⟨⟨y, hy⟩, ys', hys⟩
    · rintro ⟨⟨y, hy⟩, ys, hys⟩
      refine ⟨y :: ys, ?_⟩
      rw [List.mapM_cons, hy, hys]
      rfl

/-- The error for the elements of a list is that of the first element without a result. -/
theorem mapM_eq_error_iff {ε α β : Type} {f : α → Except ε β} {xs : List α} {e : ε} :
    xs.mapM f = .error e ↔ ∃ before x after, xs = before ++ x :: after ∧
      (∀ y ∈ before, ∃ b, f y = .ok b) ∧ f x = .error e := by
  induction xs with
  | nil =>
    constructor
    · exact nofun
    · rintro ⟨before, x, after, none, -⟩
      cases before <;> cases none
  | cons y ys ih =>
    rw [List.mapM_cons, bind_eq_error_iff]
    constructor
    · rintro (h | ⟨b, hb, h⟩)
      · exact ⟨[], y, ys, rfl, List.forall_mem_nil _, h⟩
      · rcases bind_eq_error_iff.mp h with h | ⟨_, -, h⟩
        · obtain ⟨before, x, after, rfl, passed, h⟩ := ih.mp h
          exact ⟨y :: before, x, after, rfl, List.forall_mem_cons.mpr ⟨⟨b, hb⟩, passed⟩, h⟩
        · cases h
    · rintro ⟨before, x, after, split, passed, h⟩
      cases before with
      | nil =>
        obtain ⟨rfl, rfl⟩ := List.cons.inj split
        exact .inl h
      | cons y' before =>
        obtain ⟨rfl, rfl⟩ := List.cons.inj split
        obtain ⟨⟨b, hb⟩, passed⟩ := List.forall_mem_cons.mp passed
        exact .inr ⟨b, hb, bind_eq_error_iff.mpr
          (.inl (ih.mpr ⟨before, x, after, rfl, passed, h⟩))⟩

/-- Another wording of the error leaves a result as it is. -/
theorem mapError_eq_ok_iff {ε ε' α : Type} {f : ε → ε'} {x : Except ε α} {a : α} :
    x.mapError f = .ok a ↔ x = .ok a := by
  cases x with
  | error e => exact ⟨nofun, nofun⟩
  | ok b =>
    change Except.ok b = Except.ok a ↔ _
    rw [Except.ok.injEq, Except.ok.injEq]

/-- Another wording is that of an error. -/
theorem mapError_eq_error_iff {ε ε' α : Type} {f : ε → ε'} {x : Except ε α} {e' : ε'} :
    x.mapError f = .error e' ↔ ∃ e, x = .error e ∧ f e = e' := by
  cases x with
  | error e =>
    constructor
    · exact fun h => ⟨e, rfl, Except.error.inj h⟩
    · rintro ⟨_, same, rfl⟩
      cases same
      rfl
  | ok b => exact ⟨nofun, nofun⟩

end RegistryConsent
