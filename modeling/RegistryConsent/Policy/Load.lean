import RegistryConsent.Json.Forms
import RegistryConsent.Json.Text

/-!
# Loading policies

A policy is loaded from a JSON text, or from the bytes of one, and must pass its check.
-/

namespace RegistryConsent

/-- Why a policy could not be loaded. -/
inductive LoadError where
  /-- The bytes are no text. -/
  | unreadable
  /-- The text is not the JSON form of a policy. -/
  | unparsable
  | invalid (e : PolicyError)
deriving DecidableEq

namespace Policy

/-- Loads a policy from a text. -/
def load (s : String) : Except LoadError Policy :=
  match (Json.parse? s).bind ofJson? with
  | none => .error .unparsable
  | some p =>
    match p.check with
    | .ok _ => .ok p
    | .error e => .error (.invalid e)

/-- Loads a policy from the bytes of a text. -/
def loadBytes (bytes : List UInt8) : Except LoadError Policy :=
  match Bytes.toText? bytes with
  | none => .error .unreadable
  | some s => load s

end Policy

end RegistryConsent
