import RegistryConsent.Strategy

/-!
# What the strategies bring forward

The strategies that are asked about an update answer one after the other. Their answers come to the
messages of the refusals, each once, the records that vouch, one of each identity, and the names of
the strategies that passed and of those that failed.
-/

namespace RegistryConsent

/-- What a strategy said about an update. -/
structure Answer where
  strategy : String
  outcome : Outcome

namespace Answer

/-- Whether the strategy passed the update. -/
def passed (a : Answer) : Bool := a.outcome.isOk

/-- The records that vouched. -/
def records (a : Answer) : List Record := a.outcome.toOption.getD []

/-- The messages of the refusal. -/
def messages (a : Answer) : List Message :=
  match a.outcome with
  | .ok _ => []
  | .error refusal => refusal.messages

end Answer

/-- The records that vouch for an update, the first of each identity, beside the identities that
came up. -/
structure AuthenticatedRecords where
  seen : List (ObjectType × Handle)
  records : List Record

namespace AuthenticatedRecords

/-- No records. -/
def empty : AuthenticatedRecords := ⟨[], []⟩

/-- Puts a record at the end unless one of its identity came up. -/
def add (s : AuthenticatedRecords) (r : Record) : AuthenticatedRecords :=
  if s.seen.contains r.identity then s else ⟨r.identity :: s.seen, s.records ++ [r]⟩

/-- Adds records from left to right. -/
def extend (s : AuthenticatedRecords) (rs : List Record) : AuthenticatedRecords := rs.foldl add s

end AuthenticatedRecords

/-- What some answers come to. -/
structure Findings where
  /-- The messages of the refusals. -/
  messages : Messages := .empty
  /-- The records that vouch. -/
  authenticated : AuthenticatedRecords := .empty
  /-- The names of the strategies that passed. -/
  passed : SortedSet String := .empty
  /-- The names of the strategies that failed. -/
  failed : SortedSet String := .empty

namespace Findings

/-- Takes in the answer of one more strategy. -/
def add (f : Findings) (answer : Answer) : Findings :=
  match answer.outcome with
  | .ok records =>
    { f with
      authenticated := f.authenticated.extend records
      passed := f.passed.insert answer.strategy }
  | .error refusal =>
    { f with
      messages := f.messages.extend refusal.messages
      failed := f.failed.insert answer.strategy }

/-- What the answers of a list come to. -/
def ofAnswers (answers : List Answer) : Findings := answers.foldl add {}

end Findings

end RegistryConsent
