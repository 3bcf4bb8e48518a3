import RegistryConsent.Store.Memory

/-!
# Stores with faults

A store whose look-ups fail until a budget of faults is spent, users and objects drawing from the
same budget, and which then answers as the store behind it. Writing never fails.
-/

namespace RegistryConsent

/-- How many look-ups are still to fail. -/
inductive FaultBudget where
  | next (n : Nat)
  | always
deriving DecidableEq

namespace FaultBudget

/-- The count of failures that is never used up: the greatest machine word. -/
def endless : USize := .ofNat (USize.size - 1)

/-- The budget of a count of failures. -/
def ofCount (n : USize) : FaultBudget := if n = endless then always else next n.toNat

/-- The count of the failures that are left. -/
def left : FaultBudget → USize
  | next n => .ofNat n
  | always => endless

/-- Whether the next look-up fails. -/
def fails : FaultBudget → Bool
  | next n => 0 < n
  | always => true

/-- The budget after one look-up. -/
def spend : FaultBudget → FaultBudget
  | next n => next (n - 1)
  | always => always

end FaultBudget

/-- A memory store with a budget of faults. -/
structure FaultyStore where
  store : MemoryStore
  budget : FaultBudget

namespace FaultyStore

/-- A store whose next look-ups fail, as many as a count says. -/
def failing (store : MemoryStore) (failures : USize) : FaultyStore := ⟨store, .ofCount failures⟩

/-- The failures not yet handed out. -/
def failuresLeft (s : FaultyStore) : USize := s.budget.left

/-- Looks up a user. -/
def getUser (s : FaultyStore) (name : String) : UserAnswer × FaultyStore :=
  (if s.budget.fails then .error .unavailable else s.store.getUser name,
    { s with budget := s.budget.spend })

/-- Looks up a record. -/
def getRecord (s : FaultyStore) (t : ObjectType) (key : Handle) : ObjectAnswer × FaultyStore :=
  (if s.budget.fails then .error .unavailable else s.store.getRecord t key,
    { s with budget := s.budget.spend })

/-- Puts a user. -/
def putUser (s : FaultyStore) (u : User) : FaultyStore := { s with store := s.store.putUser u }

/-- Puts a record. -/
def putRecord (s : FaultyStore) (r : Record) : FaultyStore :=
  { s with store := s.store.putRecord r }

/-- The store as a source of answers. -/
def source : Source FaultyStore where
  user name s := s.getUser name
  object t key s := s.getRecord t key

end FaultyStore

end RegistryConsent
