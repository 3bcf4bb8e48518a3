import RegistryConsent.Bytes.Hex
import RegistryConsent.Digest.Blake3
import RegistryConsent.InputError
import RegistryConsent.Text.Blank

/-!
# Password hashes

A password is kept as a salt and the digest of a fixed tag, the salt and the password. The text form
is `$salt$digest` in hexadecimal digits.
-/

namespace RegistryConsent

/-- A salted digest of a password. -/
structure PasswordHash where
  salt : Vector UInt8 16
  digest : Vector UInt8 32
deriving DecidableEq

namespace PasswordHash

/-- The tag in front of all that is hashed. -/
def tag : String := "regauth-pw-v0:"

/-- The digest of a password under a salt. -/
def digestOf (salt : Vector UInt8 16) (password : String) : Vector UInt8 32 :=
  Blake3.digest (Bytes.ofText tag ++ salt.toList ++ Bytes.ofText password)

/-- The hash of a password under a salt. -/
def ofPassword (password : String) (salt : Vector UInt8 16) : PasswordHash :=
  ⟨salt, digestOf salt password⟩

/-- Whether a password has this hash. -/
def verifies (h : PasswordHash) (password : String) : Bool := h.digest == digestOf h.salt password

/-- The text form. -/
def text (h : PasswordHash) : String :=
  "$" ++ Hex.encode h.salt.toList ++ "$" ++ Hex.encode h.digest.toList

/-- Reads the text form, up to blanks at its ends. -/
def parse (s : String) : Except InputError PasswordHash :=
  match (Text.strip s.toList).splitOn '$' with
  | [[], salt, digest] =>
    match Hex.decodeVector 16 (.ofList salt), Hex.decodeVector 32 (.ofList digest) with
    | .ok salt, .ok digest => .ok ⟨salt, digest⟩
    | _, _ => .error (.invalidPasswordHash s)
  | _ => .error (.invalidPasswordHash s)

end PasswordHash

end RegistryConsent
