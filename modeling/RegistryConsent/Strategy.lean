import RegistryConsent.Consult
import RegistryConsent.Context

/-!
# Strategies

A strategy is one independent way to prove that an update may go ahead. It says which updates it
judges and which types of objects may wait for another party when it fails.
-/

namespace RegistryConsent

/-- Why a strategy rejects an update. -/
structure Refusal where
  messages : List Message
deriving DecidableEq

/-- The refusal as a text. -/
def Refusal.text (r : Refusal) : String :=
  "authentication failed (" ++ toString r.messages.length ++ " message(s))"

/-- The answer of a strategy: the records that vouch for the update, or a refusal. -/
abbrev Outcome := Except Refusal (List Record)

/-- One way to prove that an update may go ahead. -/
structure Strategy where
  name : String
  /-- Whether the strategy judges an update. -/
  supports : Update → Bool
  authenticate : Update → Context → Consult Outcome
  /-- The types of objects whose creation may wait when this strategy fails. -/
  deferrable : List ObjectType := []

/-- A refusal with one message. -/
def Refusal.because (m : Message) : Refusal := ⟨[m]⟩

end RegistryConsent
