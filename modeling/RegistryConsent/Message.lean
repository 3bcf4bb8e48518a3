import RegistryConsent.Origin
import RegistryConsent.Record

/-!
# Messages

The diagnostics attached to an update, and the wording of those that authorisation gives. They are
gathered in the order of arrival, and none is kept twice.
-/

namespace RegistryConsent

/-- How grave a message is. -/
inductive Severity where
  | error
  | warning
  | info
deriving DecidableEq, Inhabited

/-- The name of a severity. -/
def Severity.name : Severity → String
  | .error => "Error"
  | .warning => "Warning"
  | .info => "Info"

/-- A diagnostic. -/
structure Message where
  severity : Severity
  text : String
deriving DecidableEq, Inhabited

namespace Message

/-- Whether the message reports an error. -/
def isError (m : Message) : Bool := m.severity == .error

/-- The message as one text. -/
def line (m : Message) : String := "***" ++ m.severity.name ++ ": " ++ m.text

/-- More passwords were submitted than are allowed. -/
def tooManyPasswords : Message := ⟨.error, "Too many passwords specified"⟩

/-- The channel of the update admits no override. -/
def overrideNotAllowed (o : Origin) : Message :=
  ⟨.error, "Override not allowed in " ++ o.channel.name⟩

/-- The sender is outside the trusted network. -/
def overrideByAdministratorsOnly : Message :=
  ⟨.error, "Override only allowed by database administrators"⟩

/-- There is not exactly one override value. -/
def multipleOverrides : Message := ⟨.error, "Multiple override passwords used"⟩

/-- Override was granted. -/
def overrideUsed : Message := ⟨.info, "Authorisation override used"⟩

/-- No reading of the override value is a valid login. -/
def overrideFailed : Message := ⟨.error, "Override authentication failed"⟩

/-- A registry maintainer acted from outside the trusted network. -/
def outsideRegistryNetwork : Message :=
  ⟨.error, "Registry maintainers can only update data from within the registry network"⟩

/-- The names that a message lists. -/
def nameList (names : List Handle) : String :=
  if names.isEmpty then "none" else ", ".intercalate (names.map (·.spelling))

/-- None of the maintainers that an attribute of a record names was matched by the credentials. -/
def notAuthenticated (record : Record) (attr : String) (candidates : List Handle) : Message :=
  ⟨.error, "Authorisation for [" ++ record.objectType.name ++ "] " ++ record.key.spelling ++
    " failed\nusing \"" ++ attr ++ ":\"\nnot authenticated by: " ++ nameList candidates⟩

/-- An object that the check depends on is not in the registry. -/
def referenceMissing (kind key : String) : Message :=
  ⟨.error, "Authorisation failed: referenced " ++ kind ++ " " ++ key ++ " does not exist"⟩

end Message

/-- Messages in the order of arrival. -/
structure Messages where
  toList : List Message
  /-- No message is there twice. -/
  nodup : toList.Nodup

namespace Messages

/-- No messages. -/
def empty : Messages := ⟨[], List.nodup_nil⟩

/-- Adds a message at the end unless it is there. -/
def push (ms : Messages) (m : Message) : Messages :=
  if h : m ∈ ms.toList then ms
  else
    ⟨ms.toList ++ [m], List.nodup_append.2
      ⟨ms.nodup, by simp, fun a ha b hb => by rintro rfl; exact h (List.mem_singleton.1 hb ▸ ha)⟩⟩

/-- Adds messages from left to right. -/
def extend (ms : Messages) (more : List Message) : Messages := more.foldl push ms

end Messages

end RegistryConsent
