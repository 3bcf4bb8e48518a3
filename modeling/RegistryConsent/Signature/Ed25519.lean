import RegistryConsent.Bytes.Hex
import RegistryConsent.Digest.Sha512
import RegistryConsent.Signature.Edwards

/-!
# Ed25519 signatures

Keys and signatures over bytes. Signing is deterministic. Verification recomputes the point that
the first half of the signature should encode and compares the bytes: it accepts points of small
order and encodings of `y` that are not reduced, but no second half at or above the order of the
base point.
-/

namespace RegistryConsent

/-- An Ed25519 public key: the encoding of a point. -/
structure PublicKey where
  bytes : Vector UInt8 32
deriving DecidableEq

/-- An Ed25519 signature: the encoding of a point and a scalar. -/
structure Signature where
  bytes : Vector UInt8 64
deriving DecidableEq

/-- Why a signature does not count. -/
inductive SignatureError where
  /-- The key encodes no point of the curve. -/
  | invalidPublicKey
  | invalidSignature
deriving DecidableEq

/-- The wording of an error. -/
def SignatureError.message : SignatureError → String
  | .invalidPublicKey => "invalid public key"
  | .invalidSignature => "invalid signature"

namespace Ed25519

open Edwards

/-- The encoding of a point: `y` in 255 bits and the lowest bit of `x` on top. -/
def encodePoint (p : Point) : List UInt8 :=
  let z := inverse p.Z
  Bytes.littleEndian 32 ((p.Y * z).val + ((p.X * z).val % 2) <<< 255)

/-- Reads the encoding of a point. -/
def decodePoint? (bytes : List UInt8) : Option Point :=
  let n := Bytes.ofLittleEndian bytes
  let y : Field := Fin.ofNat prime (n % 1 <<< 255)
  (xOfY? y (n >>> 255 % 2 == 1)).map fun x => .affine x y

/-- The digest of some bytes as a number. -/
def digestNumber (bytes : List UInt8) : Nat := Bytes.ofLittleEndian (Sha512.digest bytes).toList

/-- The secret scalar of a seed: three low bits cleared, the top two bits set to 01. -/
def secretScalar (seed : Vector UInt8 32) : Nat :=
  let n := Bytes.ofLittleEndian ((Sha512.digest seed.toList).toList.take 32)
  n % 1 <<< 254 / 8 * 8 + 1 <<< 254

/-- The second half of the digest of a seed, from which the nonces are drawn. -/
def nonceKey (seed : Vector UInt8 32) : List UInt8 := (Sha512.digest seed.toList).toList.drop 32

/-- The encoding of a point as a vector. -/
def encodedPoint (p : Point) : Vector UInt8 32 :=
  ⟨(encodePoint p).toArray, by simp [encodePoint, Bytes.length_littleEndian]⟩

/-- The public key of a seed. -/
def publicKey (seed : Vector UInt8 32) : PublicKey :=
  ⟨encodedPoint (base.multiply (secretScalar seed))⟩

/-- The scalar that binds a nonce point, a key and a message together. -/
def challenge (r key message : List UInt8) : Nat := digestNumber (r ++ key ++ message) % order

/-- The signature of a message under a seed. -/
def sign (seed : Vector UInt8 32) (message : List UInt8) : Signature :=
  let nonce := digestNumber (nonceKey seed ++ message) % order
  let r := encodedPoint (base.multiply nonce)
  let k := challenge r.toList (publicKey seed).bytes.toList message
  let s := (nonce + k * secretScalar seed) % order
  let half : Vector UInt8 32 :=
    ⟨(Bytes.littleEndian 32 s).toArray, by simp [Bytes.length_littleEndian]⟩
  ⟨(r ++ half : Vector UInt8 (32 + 32))⟩

/-- Checks a signature of a message under a key. -/
def verify (key : PublicKey) (message : List UInt8) (signature : Signature) :
    Except SignatureError Unit :=
  match decodePoint? key.bytes.toList with
  | none => .error .invalidPublicKey
  | some a =>
    let r := signature.bytes.toList.take 32
    let s := Bytes.ofLittleEndian (signature.bytes.toList.drop 32)
    let k := challenge r key.bytes.toList message
    if s < order ∧ encodePoint ((base.multiply s).add (a.negate.multiply k)) = r then .ok ()
    else .error .invalidSignature

end Ed25519

namespace PublicKey

/-- The key in hexadecimal digits. -/
def hex (k : PublicKey) : String := Hex.encode k.bytes.toList

/-- Reads a key from hexadecimal digits. -/
def ofHex (s : String) : Except Hex.Error PublicKey := return ⟨← Hex.decodeVector 32 s⟩

/-- Whether a signature of a message under this key is valid. -/
def accepts (k : PublicKey) (message : List UInt8) (signature : Signature) : Bool :=
  (Ed25519.verify k message signature).isOk

end PublicKey

/-- The signature in hexadecimal digits. -/
def Signature.hex (s : Signature) : String := Hex.encode s.bytes.toList

end RegistryConsent
