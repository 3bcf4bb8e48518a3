import RegistryConsent.Consult

/-!
# What a consultation asks

The questions that a consultation puts to a source form a list beside its result. A consultation in
two parts asks the questions of both parts, one after the other. One that is made of equal parts
for the elements of a list gives, under fixed answers, the results of the parts.
-/

namespace RegistryConsent

/-- One look-up. -/
inductive Question where
  | user (name : String)
  | object (t : ObjectType) (key : Handle)
deriving DecidableEq

/-- The stored object of a key, where an error counts as none. -/
def Answers.stored (answers : Answers) (t : ObjectType) (key : Handle) : Option Record :=
  match answers.object t key with
  | .ok found => found
  | .error _ => none

namespace Consult

variable {α β σ : Type}

/-- The questions that a consultation asks of a source, in order. -/
def questions (source : Source σ) : Consult α → σ → List Question
  | done _, _ => []
  | user name next, s =>
    .user name :: questions source (next (source.user name s).1) (source.user name s).2
  | object t key next, s =>
    .object t key :: questions source (next (source.object t key s).1) (source.object t key s).2

/-- A result that is there needs no source. -/
@[simp] theorem run_pure (source : Source σ) (x : α) (s : σ) :
    (pure x : Consult α).run source s = (x, s) := rfl

/-- The second part of a consultation is carried out with the result of the first. -/
@[simp] theorem run_bind_eq (source : Source σ) (c : Consult α) (f : α → Consult β) (s : σ) :
    (c >>= f).run source s = (f (c.run source s).1).run source (c.run source s).2 :=
  run_bind source c f s

/-- A function of the result leaves the answers that are used as they are. -/
@[simp] theorem run_map (source : Source σ) (f : α → β) (c : Consult α) (s : σ) :
    (f <$> c).run source s = (f (c.run source s).1, (c.run source s).2) := by
  rw [map_eq_pure_bind, run_bind_eq]
  rfl

/-- The look-up of a user answers what the source answers. -/
@[simp] theorem run_askUser (source : Source σ) (name : String) (s : σ) :
    (askUser name).run source s = source.user name s := rfl

/-- A result that is there needs no question. -/
@[simp] theorem questions_pure (source : Source σ) (x : α) (s : σ) :
    (pure x : Consult α).questions source s = [] := rfl

/-- The look-up of a user is one question. -/
@[simp] theorem questions_askUser (source : Source σ) (name : String) (s : σ) :
    (askUser name).questions source s = [.user name] := rfl

/-- The questions of the second part follow those of the first. -/
@[simp] theorem questions_bind (source : Source σ) (c : Consult α) (f : α → Consult β) (s : σ) :
    (c >>= f).questions source s = c.questions source s ++
      (f (c.run source s).1).questions source (c.run source s).2 := by
  change (c.bind f).questions source s = _
  induction c generalizing s with
  | done a => rfl
  | user name next ih => exact congrArg (Question.user name :: ·) (ih _ _)
  | object t key next ih => exact congrArg (Question.object t key :: ·) (ih _ _)

/-- A function of the result asks nothing more. -/
@[simp] theorem questions_map (source : Source σ) (f : α → β) (c : Consult α) (s : σ) :
    (f <$> c).questions source s = c.questions source s := by
  rw [map_eq_pure_bind, questions_bind, questions_pure, List.append_nil]

/-- The look-up of what is stored comes to what is found, and to nothing when it fails. -/
theorem run_stored (source : Source σ) (t : ObjectType) (key : Handle) (s : σ) :
    (stored t key).run source s =
      ((source.object t key s).1.toOption.join, (source.object t key s).2) := by
  rw [stored, run]
  cases (source.object t key s).1 <;> rfl

/-- The look-up of what is stored is one question. -/
theorem questions_stored (source : Source σ) (t : ObjectType) (key : Handle) (s : σ) :
    (stored t key).questions source s = [.object t key] := by
  rw [stored, questions]
  cases (source.object t key s).1 <;> rfl

/-- Under fixed answers the parts for the elements of a list ask their questions one after the
other. -/
theorem questions_mapM (answers : Answers) (f : α → Consult β) (xs : List α) :
    (xs.mapM f).questions answers.source () =
      xs.flatMap fun x => (f x).questions answers.source () := by
  induction xs with
  | nil => rfl
  | cons x xs ih =>
    rw [List.mapM_cons, questions_bind, questions_bind, questions_pure, List.append_nil,
      List.flatMap_cons]
    -- Fixed answers have no state, so that the rest starts where the whole did.
    exact congrArg ((f x).questions answers.source () ++ ·) ih

/-- Under fixed answers a result that is there stays. -/
@[simp] theorem under_pure (answers : Answers) (x : α) :
    (pure x : Consult α).under answers = x := rfl

/-- Under fixed answers the second part goes on with the result of the first. -/
@[simp] theorem under_bind (answers : Answers) (c : Consult α) (f : α → Consult β) :
    (c >>= f).under answers = (f (c.under answers)).under answers := by
  change (c.bind f).under answers = _
  induction c with
  | done a => rfl
  | user name next ih => exact ih _
  | object t key next ih => exact ih _

/-- Under fixed answers a function of the result is applied to it. -/
@[simp] theorem under_map (answers : Answers) (f : α → β) (c : Consult α) :
    (f <$> c).under answers = f (c.under answers) := by
  rw [map_eq_pure_bind, under_bind]
  rfl

/-- Under fixed answers a look-up finds what is stored. -/
@[simp] theorem under_stored (answers : Answers) (t : ObjectType) (key : Handle) :
    (stored t key).under answers = answers.stored t key := by
  simp only [stored, under, Answers.stored]
  cases answers.object t key <;> rfl

/-- Under fixed answers the parts for the elements of a list do not affect each other. -/
@[simp] theorem under_mapM (answers : Answers) (f : α → Consult β) (xs : List α) :
    (xs.mapM f).under answers = xs.map fun x => (f x).under answers := by
  induction xs with
  | nil => simp
  | cons x xs ih => simp [ih]

/-- The same parts for the elements of a list make up the same whole. -/
theorem mapM_congr {f g : α → Consult β} {xs : List α} (h : ∀ x ∈ xs, f x = g x) :
    xs.mapM f = xs.mapM g := by
  induction xs with
  | nil => rfl
  | cons x xs ih =>
    rw [List.mapM_cons, List.mapM_cons, h x List.mem_cons_self,
      ih fun y hy => h y (List.mem_cons_of_mem x hy)]

/-- The results for the elements of a list come from the elements, in order. -/
theorem map_run_mapM {γ : Type} (source : Source σ) (f : α → Consult β) (g : α → γ) (h : β → γ)
    (xs : List α) (hf : ∀ x ∈ xs, ∀ s, h ((f x).run source s).1 = g x) (s : σ) :
    ((xs.mapM f).run source s).1.map h = xs.map g := by
  induction xs generalizing s with
  | nil => simp
  | cons x xs ih =>
    have rest (t : σ) := ih (fun y hy => hf y (List.mem_cons_of_mem x hy)) t
    simp [hf x List.mem_cons_self, rest]

end Consult

end RegistryConsent
