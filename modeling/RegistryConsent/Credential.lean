import RegistryConsent.Signature.Ed25519
import RegistryConsent.Text.Blank
import RegistryConsent.Text.Cut

/-!
# Credentials

The pieces of proof that come with an update: passwords, override values and signed texts.

An override value reads `user,password` or `user,password,remarks`. Since a password may hold
commas, each comma behind the first one may end it, and so may the end of the value: every such
reading is a candidate, the shortest password first.
-/

namespace RegistryConsent

/-- A user name and a password. -/
structure Login where
  username : String
  password : String
deriving DecidableEq

/-- The beginnings of a text that end in front of a comma or at its end, by length. -/
def commaBeginnings : List Char → List (List Char)
  | [] => [[]]
  | c :: cs => (if c = ',' then [[]] else []) ++ (commaBeginnings cs).map (c :: ·)

/-- An override value, without blanks at its ends. -/
structure OverrideValue where
  value : String
deriving DecidableEq

namespace OverrideValue

/-- Takes a value as it was submitted. -/
def ofText (s : String) : OverrideValue := ⟨Text.trim s⟩

/-- The logins that the value may stand for, in the order in which they are tried. -/
def candidates (v : OverrideValue) : List Login :=
  match Text.cut? ',' v.value.toList with
  | none => []
  | some (user, rest) =>
    if (Text.strip user).isEmpty then []
    else ((commaBeginnings rest).filter (!·.isEmpty)).map fun p =>
      ⟨.ofList (Text.strip user), .ofList p⟩

end OverrideValue

/-- A content and its signature. -/
structure SignedText where
  content : List UInt8
  signature : Signature
deriving DecidableEq

namespace SignedText

/-- The content signed under a seed. -/
def ofSeed (seed : Vector UInt8 32) (content : List UInt8) : SignedText :=
  ⟨content, Ed25519.sign seed content⟩

/-- Whether the content is exactly a text. -/
def covers (s : SignedText) (text : String) : Bool := s.content == Bytes.ofText text

/-- Whether a key made the signature. -/
def isBy (s : SignedText) (key : PublicKey) : Bool := key.accepts s.content s.signature

end SignedText

/-- A piece of proof that comes with an update. -/
inductive Credential where
  | password (p : String)
  | override (v : OverrideValue)
  | signed (s : SignedText)
deriving DecidableEq

end RegistryConsent
