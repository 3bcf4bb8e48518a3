import RegistryConsent.Record
import RegistryConsent.Store.Error
import RegistryConsent.User

/-!
# Consultations

A consultation is a computation that may look up users and objects. It is a tree of questions: what
it does next depends on the answer to the last one, and on nothing else. A source of answers
carries it out; sources may change with each question, answers that stay fixed are a source without
state.
-/

namespace RegistryConsent

/-- What a store answers to the look-up of a user. -/
abbrev UserAnswer := Except StoreError User

/-- What a store answers to the look-up of an object. -/
abbrev ObjectAnswer := Except StoreError (Option Record)

/-- A computation that may look up users and objects. -/
inductive Consult (α : Type) where
  | done (a : α)
  | user (name : String) (next : UserAnswer → Consult α)
  | object (t : ObjectType) (key : Handle) (next : ObjectAnswer → Consult α)

/-- Answers that stay the same however often and in whatever order they are asked for. -/
structure Answers where
  user : String → UserAnswer
  object : ObjectType → Handle → ObjectAnswer

/-- Answers that may depend on what was asked before, by way of a state. -/
structure Source (σ : Type) where
  user : String → σ → UserAnswer × σ
  object : ObjectType → Handle → σ → ObjectAnswer × σ

/-- The source of fixed answers. -/
def Answers.source (a : Answers) : Source Unit where
  user name _ := (a.user name, ())
  object t key _ := (a.object t key, ())

namespace Consult

variable {α β : Type}

/-- Goes on with the result of a consultation. -/
def bind : Consult α → (α → Consult β) → Consult β
  | done a, f => f a
  | user name next, f => user name fun answer => bind (next answer) f
  | object t key next, f => object t key fun answer => bind (next answer) f

/-- Consultations are put together one after the other. -/
instance : Monad Consult where
  pure := done
  bind := bind

/-- Looks up a user. -/
def askUser (name : String) : Consult UserAnswer := user name done

/-- Looks up an object; without an answer there is none. -/
def stored (t : ObjectType) (key : Handle) : Consult (Option Record) :=
  object t key fun
    | .ok found => done found
    | .error _ => done none

/-- Carries out a consultation with the answers of a source. -/
def run {σ : Type} (source : Source σ) : Consult α → σ → α × σ
  | done a, s => (a, s)
  | user name next, s => run source (next (source.user name s).1) (source.user name s).2
  | object t key next, s => run source (next (source.object t key s).1) (source.object t key s).2

/-- The result of a consultation under fixed answers. -/
def under (answers : Answers) : Consult α → α
  | done a => a
  | user name next => under answers (next (answers.user name))
  | object t key next => under answers (next (answers.object t key))

/-- Under fixed answers there is no state to follow. -/
theorem run_source (answers : Answers) (c : Consult α) :
    run answers.source c () = (under answers c, ()) := by
  induction c with
  | done a => rfl
  | user name next ih => exact ih _
  | object t key next ih => exact ih _

/-- A consultation in two parts is carried out part by part. -/
theorem run_bind {σ : Type} (source : Source σ) (c : Consult α) (f : α → Consult β) (s : σ) :
    run source (c.bind f) s = run source (f (run source c s).1) (run source c s).2 := by
  induction c generalizing s with
  | done a => rfl
  | user name next ih => exact ih _ _
  | object t key next ih => exact ih _ _

/-- Doing nothing afterwards changes nothing. -/
theorem bind_done (c : Consult α) : c.bind done = c := by
  induction c with
  | done a => rfl
  | user name next ih => exact congrArg (user name) (funext ih)
  | object t key next ih => exact congrArg (object t key) (funext ih)

/-- Three parts in a row are the same however they are grouped. -/
theorem bind_assoc {γ : Type} (c : Consult α) (f : α → Consult β) (g : β → Consult γ) :
    (c.bind f).bind g = c.bind fun a => (f a).bind g := by
  induction c with
  | done a => rfl
  | user name next ih => exact congrArg (user name) (funext ih)
  | object t key next ih => exact congrArg (object t key) (funext ih)

/-- How consultations are grouped does not matter, and one without a look-up adds nothing. -/
instance : LawfulMonad Consult :=
  LawfulMonad.mk' Consult bind_done (fun _ _ => rfl) bind_assoc

end Consult

end RegistryConsent
