import RegistryConsent.Bytes.Quoted
import RegistryConsent.Credential.Set

/-!
# Redacted descriptions

How keys, signatures, logins and credentials are described where secrets must not be shown: digests
and keys by their first sixteen digits, passwords not at all.
-/

namespace RegistryConsent

/-- The first sixteen hexadecimal digits of some bytes. -/
def leadingDigits (bytes : List UInt8) : String := .ofList ((Hex.encodeChars bytes).take 16)

/-- The description of a public key. -/
def PublicKey.redacted (k : PublicKey) : String :=
  "Ed25519Pub(" ++ leadingDigits k.bytes.toList ++ ")"

/-- The description of a signature. -/
def Signature.redacted (s : Signature) : String :=
  "Ed25519Sig(" ++ leadingDigits s.bytes.toList ++ "...)"

/-- The description of a login, without its password. -/
def Login.redacted (l : Login) : String :=
  "UsernamePassword \x7b username: " ++ Text.quoted l.username ++ ", password: \"..\" \x7d"

/-- The description of an override value: its user and the number of its readings. -/
def OverrideValue.redacted (v : OverrideValue) : String :=
  let user := match v.candidates with
    | [] => "None"
    | l :: _ => "Some(" ++ Text.quoted l.username ++ ")"
  "OverrideCredential(user=" ++ user ++ ", candidates=" ++ toString v.candidates.length ++ ")"

/-- The description of a signed text. -/
def SignedText.redacted (s : SignedText) : String :=
  "SignedMessageCredential \x7b content: " ++ Bytes.quoted s.content ++ ", signature: " ++
    s.signature.redacted ++ " \x7d"

/-- The description of a credential. -/
def Credential.redacted : Credential → String
  | .password _ => "Password(..)"
  | .override v => "Override(" ++ v.redacted ++ ")"
  | .signed s => "SignedMessage(" ++ s.redacted ++ ")"

/-- The descriptions of the credentials of a set. -/
def CredentialSet.redacted (s : CredentialSet) : String :=
  "[" ++ ", ".intercalate (s.toList.map Credential.redacted) ++ "]"

end RegistryConsent
