import RegistryConsent.Action
import RegistryConsent.Credential.Set
import RegistryConsent.Record

/-!
# Updates

A proposed change of one record together with the proof submitted for it. An update that carries an
override value is an override request, whether that was asked for or not.
-/

namespace RegistryConsent

/-- The number of an update. -/
structure UpdateId where
  value : UInt64
deriving DecidableEq, Inhabited

/-- An update number as a text. -/
def UpdateId.text (i : UpdateId) : String := "#" ++ toString i.value.toNat

/-- A source of update numbers, which hands out the next one. -/
structure UpdateId.Source where
  next : UpdateId := ⟨1⟩

/-- Draws a number and moves the source on. -/
def UpdateId.Source.draw (s : UpdateId.Source) : UpdateId × UpdateId.Source :=
  (s.next, ⟨⟨s.next.value + 1⟩⟩)

/-- A change of one record and the proof submitted with it. -/
structure Update where
  id : UpdateId
  action : Action
  /-- The record as it is to be after the update. -/
  record : Record
  credentials : CredentialSet
  /-- Whether the update asks for an administrator's override. -/
  isOverride : Bool
  /-- An override value is a request for override. -/
  isOverride_of_mem : ∀ v, .override v ∈ credentials.toList → isOverride = true

/-- One thing that is submitted for an update. -/
inductive Submission where
  | credential (c : Credential)
  | overrideRequest
deriving DecidableEq

namespace Update

/-- An update without proof. -/
def start (id : UpdateId) (action : Action) (record : Record) : Update :=
  ⟨id, action, record, .empty, false, by simp [CredentialSet.empty]⟩

/-- Whether a credential is an override value. -/
def marksOverride : Credential → Bool
  | .override _ => true
  | _ => false

/-- Adds a credential. -/
def withCredential (u : Update) (c : Credential) : Update :=
  { u with
    credentials := (u.credentials.add c).1
    isOverride := u.isOverride || marksOverride c
    isOverride_of_mem := by
      intro v hv
      unfold CredentialSet.add at hv
      split at hv
      · simp [u.isOverride_of_mem v hv]
      · rcases List.mem_append.1 hv with hv | hv
        · simp [u.isOverride_of_mem v hv]
        · simp [← List.mem_singleton.1 hv, marksOverride] }

/-- Asks for override. -/
def withOverrideRequest (u : Update) : Update :=
  { u with isOverride := true, isOverride_of_mem := fun _ _ => rfl }

/-- Adds one thing that is submitted. -/
def submit (u : Update) : Submission → Update
  | .credential c => u.withCredential c
  | .overrideRequest => u.withOverrideRequest

/-- The update of a number, an action, a record and all that is submitted for it. -/
def prepare (id : UpdateId) (action : Action) (record : Record) (submissions : List Submission) :
    Update :=
  submissions.foldl submit (start id action record)

/-- The type of the record. -/
def objectType (u : Update) : ObjectType := u.record.objectType

/-- The key of the record. -/
def key (u : Update) : Handle := u.record.key

/-- Updates are compared field by field, their records and credentials as these are. -/
instance : BEq Update where
  beq u v := u.id == v.id && u.action == v.action && u.record == v.record &&
    u.isOverride == v.isOverride && u.credentials == v.credentials

/-- Whether the update creates a maintainer under the given name. -/
def createsMaintainer (u : Update) (name : Handle) : Bool :=
  u.action == .create && u.objectType == .mntner && u.key == name

/-- The update in one line. -/
def text (u : Update) : String :=
  u.id.text ++ " " ++ u.action.name ++ " [" ++ u.objectType.name ++ "] " ++ u.key.spelling

end Update

end RegistryConsent
