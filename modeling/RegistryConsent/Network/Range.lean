import RegistryConsent.InputError
import RegistryConsent.Network.AddressText
import RegistryConsent.Text.Blank
import RegistryConsent.Text.Cut

/-!
# Address ranges

A range is a network address with the number of leading bits that its members share. A list of
ranges is the trusted network: an address is trusted when one range holds it whole.
-/

namespace RegistryConsent

/-- An address and the number of its leading bits that count. -/
structure Range where
  network : Address
  length : Nat
  length_le : length ≤ network.family.width
deriving DecidableEq

namespace Range

/-- The range of a single address. -/
def single (x : Address) : Range := ⟨x, x.family.width, Nat.le_refl _⟩

/-- A range has a mask. -/
theorem isSome_mask? (r : Range) : (r.network.family.mask? r.length).isSome := by
  rw [Family.mask?_of_le r.length_le]
  rfl

/-- The mask of the bits that count. -/
def mask (r : Range) : BitVec r.network.family.width :=
  (r.network.family.mask? r.length).get r.isSome_mask?

/-- Whether another range lies within this one. -/
def contains (a b : Range) : Bool :=
  a.length ≤ b.length &&
    if h : b.network.family = a.network.family then
      a.network.bits &&& a.mask == b.network.bits.cast (congrArg Family.width h) &&& a.mask
    else false

/-- Reads the length of a range: digits, with a plus sign in front at most. -/
def readLength? (cs : List Char) : Option Nat :=
  match cs with
  | '+' :: ds => Text.natOfDigits? ds
  | ds => Text.natOfDigits? ds

/-- The range of a network and a length, if the length fits the family. -/
def make? (network : Address) (length : Nat) : Option Range :=
  if h : length ≤ network.family.width then some ⟨network, length, h⟩ else none

/-- Reads a range: an address, and behind a slash the length; without one the whole address
counts. -/
def parse (s : String) : Except InputError Range :=
  let text := Text.strip s.toList
  let (address, length) := match Text.cut? '/' text with
    | some (address, length) => (address, some length)
    | none => (text, none)
  match Address.parse? address with
  | none => .error (.invalidAddress (.ofList text))
  | some network =>
    match length with
    | none => .ok (single network)
    | some length =>
      match (readLength? length).bind (make? network) with
      | some range => .ok range
      | none => .error (.invalidRange (.ofList text))

/-- The characters of a range. -/
def render (r : Range) : List Char := r.network.render ++ '/' :: Nat.toDigits 10 r.length

/-- The text of a range. -/
def text (r : Range) : String := .ofList r.render

/-- Reads ranges; the first that cannot be read is the error. -/
def parseAll (texts : List String) : Except InputError (List Range) := texts.mapM parse

/-- Whether a text is the address, or the range, of a part of the network given by some ranges. -/
def trusts (ranges : List Range) (address : String) : Bool :=
  match parse address with
  | .ok r => ranges.any (·.contains r)
  | .error _ => false

end Range

end RegistryConsent
