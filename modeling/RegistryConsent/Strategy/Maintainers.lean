import RegistryConsent.Record.Text
import RegistryConsent.Strategy

/-!
# Authentication by maintainers

A maintainer vouches for an update when one of its `auth` lines matches one of the credentials. A
line is a scheme and a value: a hash that a submitted password has, or a key that signed exactly
the text of the submitted record.
-/

namespace RegistryConsent

/-- The scheme of password hashes. -/
def passwordScheme : Handle := ⟨"BLAKE3-PW"⟩

/-- The scheme of public keys. -/
def keyScheme : Handle := ⟨"ED25519-KEY"⟩

/-- The `auth` line that accepts a password under a salt. -/
def passwordLine (password : String) (salt : Vector UInt8 16) : String :=
  passwordScheme.spelling ++ " " ++ (PasswordHash.ofPassword password salt).text

/-- The `auth` line that accepts the signatures of a key. -/
def keyLine (key : PublicKey) : String := keyScheme.spelling ++ " " ++ key.hex

namespace Update

/-- Whether a submitted password has the hash that a text stands for. -/
def matchesPassword (u : Update) (value : String) : Bool :=
  match PasswordHash.parse value with
  | .ok hash => u.credentials.passwords.any hash.verifies
  | .error _ => false

/-- Whether the key that a text stands for signed the text of the record. -/
def matchesKey (u : Update) (value : String) : Bool :=
  match PublicKey.ofHex value with
  | .ok key => u.credentials.signedTexts.any fun s => s.covers u.record.text && s.isBy key
  | .error _ => false

/-- Whether the credentials match an `auth` line. -/
def matchesLine (u : Update) (line : String) : Bool :=
  match Text.words line.toList with
  | [scheme, value] =>
    if (⟨.ofList scheme⟩ : Handle) == passwordScheme then u.matchesPassword (.ofList value)
    else if (⟨.ofList scheme⟩ : Handle) == keyScheme then u.matchesKey (.ofList value)
    else false
  | _ => false

end Update

/-- Whether a maintainer vouches for an update. -/
def Record.vouchesFor (maintainer : Record) (u : Update) : Bool :=
  (maintainer.values Record.auth).any u.matchesLine

/-- The maintainer of a name: the submitted record if the update creates it, else the stored one. -/
def maintainerNamed (u : Update) (name : Handle) : Consult (Option Record) :=
  if u.createsMaintainer name then pure (some u.record) else .stored .mntner name

/-- The maintainers of some names that vouch for an update, in order. -/
def vouchers (u : Update) : List Handle → Consult (List Record)
  | [] => pure []
  | name :: rest => do
    let found ← maintainerNamed u name
    let others ← vouchers u rest
    return (found.filter (·.vouchesFor u)).toList ++ others

/-- Passes with the maintainers that vouch; without any the refusal names all that were asked. -/
def authenticateBy (u : Update) (target : Record) (attr : String) (names : List Handle) :
    Consult Outcome := do
  let found ← vouchers u names
  if found.isEmpty then return .error (.because (.notAuthenticated target attr names))
  else return .ok found

end RegistryConsent
