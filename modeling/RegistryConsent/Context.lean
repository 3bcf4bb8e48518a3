import RegistryConsent.Message
import RegistryConsent.Subject
import RegistryConsent.Update

/-!
# Contexts

What has been found out about an update so far: its status, the messages about it, each once and in
the order of arrival, and the subject of the last evaluation.
-/

namespace RegistryConsent

/-- How far an update has come. -/
inductive Status where
  /-- Nothing has rejected the update. -/
  | success
  /-- Something other than authorisation has rejected the update. -/
  | failed
  /-- Authorisation has rejected the update. -/
  | failedAuthentication
  /-- Some parties have agreed, and others may yet do so. -/
  | pendingAuthentication
deriving DecidableEq, Inhabited

namespace Status

/-- Every status, in order. -/
def all : List Status := [success, failed, failedAuthentication, pendingAuthentication]

/-- How a status is shown. -/
def name : Status → String
  | success => "SUCCESS"
  | failed => "FAILED"
  | failedAuthentication => "FAILED_AUTHENTICATION"
  | pendingAuthentication => "PENDING_AUTHENTICATION"

end Status

/-- What has been found out about an update. -/
structure Context where
  updateId : UpdateId
  status : Status
  messages : List Message
  /-- The subject of the last evaluation, if there was one. -/
  subject : Option Subject
  /-- No message is there twice. -/
  nodup : messages.Nodup

namespace Context

/-- Contexts that agree in what can be seen are equal. -/
theorem ext {c d : Context} (hi : c.updateId = d.updateId) (hs : c.status = d.status)
    (hm : c.messages = d.messages) (hu : c.subject = d.subject) : c = d := by
  cases c; cases d; cases hi; cases hs; cases hm; cases hu; rfl

/-- The context of an update about which nothing is known. -/
def fresh (u : Update) : Context := ⟨u.id, .success, [], none, .nil⟩

/-- The messages as they were gathered. -/
def gathered (c : Context) : Messages := ⟨c.messages, c.nodup⟩

/-- Adds a message at the end unless it is there. -/
def addMessage (c : Context) (m : Message) : Context :=
  let kept := c.gathered.push m
  { c with messages := kept.toList, nodup := kept.nodup }

/-- Adds messages from left to right. -/
def addMessages (c : Context) (ms : List Message) : Context := ms.foldl addMessage c

/-- Sets the status. -/
def withStatus (c : Context) (s : Status) : Context := { c with status := s }

/-- Records the subject of an evaluation. -/
def withSubject (c : Context) (s : Subject) : Context := { c with subject := some s }

/-- Whether an error has been reported. -/
def hasErrors (c : Context) : Bool := c.messages.any (·.isError)

end Context

end RegistryConsent
