/-!
# Errors of reading registry values

Each error names its cause and carries the offending text; `InputError.message` fixes the wording.
-/

namespace RegistryConsent

/-- What is wrong with the text of a record. -/
inductive RecordFault where
  /-- No line of the text is significant. -/
  | empty
  /-- A line has no colon. -/
  | notAttribute (line : String)
  /-- Nothing but blanks stands in front of the colon. -/
  | emptyName (line : String)
  /-- Nothing but blanks stands behind the colon of the first line. -/
  | missingKey
deriving DecidableEq

/-- The wording of a fault in the text of a record. -/
def RecordFault.message : RecordFault → String
  | .empty => "empty record"
  | .notAttribute line => "not an attribute: " ++ line
  | .emptyName line => "empty attribute name: " ++ line
  | .missingKey => "missing primary key"

/-- Why a text is not the written form of a registry value. -/
inductive InputError where
  | unknownObjectType (name : String)
  | unknownAction (name : String)
  | invalidAddress (text : String)
  | invalidRange (text : String)
  | invalidPasswordHash (text : String)
  | malformedRecord (fault : RecordFault)
deriving DecidableEq

/-- The wording of an error. -/
def InputError.message : InputError → String
  | .unknownObjectType name => "unknown object type: " ++ name
  | .unknownAction name => "unknown action: " ++ name
  | .invalidAddress text => "invalid address: " ++ text
  | .invalidRange text => "invalid network range: " ++ text
  | .invalidPasswordHash text => "invalid password hash: " ++ text
  | .malformedRecord fault => "malformed record: " ++ fault.message

end RegistryConsent
