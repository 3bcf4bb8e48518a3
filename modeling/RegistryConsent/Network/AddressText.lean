import RegistryConsent.Network.Address
import RegistryConsent.Text.Digits

/-!
# The text of addresses

An address of four bytes is written as four decimal numbers between dots, without zeros in front.
One of sixteen bytes is written as eight groups of hexadecimal digits between colons, where the
longest run of two or more zero groups, the first of several, shrinks to `::`; addresses that stand
for one of four bytes keep its dotted form. Reading accepts every shortening by `::` and a dotted
form in place of the last two groups.
-/

namespace RegistryConsent.Address

/-- The number that up to three decimal digits without a zero in front stand for, below 256. -/
def readOctet? (cs : List Char) : Option Nat :=
  if 3 < cs.length || (1 < cs.length && cs.head? == some '0') then none
  else (Text.natOfDigits? cs).filter (· < 256)

/-- The number that four octets stand for. -/
def readDotted? (cs : List Char) : Option Nat :=
  match (cs.splitOn '.').mapM readOctet? with
  | some [a, b, c, d] => some (((a * 256 + b) * 256 + c) * 256 + d)
  | _ => none

/-- The number that one to four hexadecimal digits stand for. -/
def readGroup? (cs : List Char) : Option Nat :=
  if 4 < cs.length then none else Text.natOfHex? cs

/-- Reads pieces as groups; a dotted last piece counts as two if it is allowed. -/
def readPieces? (dottedEnd : Bool) : List (List Char) → Option (List Nat)
  | [] => some []
  | [piece] =>
    match readGroup? piece with
    | some g => some [g]
    | none => if dottedEnd then (readDotted? piece).map fun n => [n / 65536, n % 65536] else none
  | piece :: rest => do
    let g ← readGroup? piece
    let gs ← readPieces? dottedEnd rest
    return g :: gs

/-- Reads the groups between the colons of a text, of which an empty one has none. -/
def readGroups? (dottedEnd : Bool) (cs : List Char) : Option (List Nat) :=
  if cs.isEmpty then some [] else readPieces? dottedEnd (cs.splitOn ':')

/-- The parts in front of and behind the first `::`. -/
def cutDoubleColon? : List Char → Option (List Char × List Char)
  | ':' :: ':' :: cs => some ([], cs)
  | c :: cs => (cutDoubleColon? cs).map fun (a, b) => (c :: a, b)
  | [] => none

/-- The eight groups that a text stands for. -/
def readEight? (cs : List Char) : Option (List Nat) :=
  match cutDoubleColon? cs with
  | none => (readGroups? true cs).filter (·.length == 8)
  | some (front, back) => do
    let front ← readGroups? false front
    let back ← readGroups? true back
    if front.length + back.length ≤ 7 then
      return front ++ List.replicate (8 - front.length - back.length) 0 ++ back
    else none

/-- Reads an address. -/
def parse? (cs : List Char) : Option Address :=
  match readDotted? cs with
  | some n => some ⟨.v4, .ofNat 32 n⟩
  | none =>
    (readEight? cs).map fun gs => ⟨.v6, .ofNat 128 (gs.foldl (fun n g => 65536 * n + g) 0)⟩

/-- Four octets between dots. -/
def renderDotted (n : Nat) : List Char :=
  ['.'].intercalate ([n >>> 24, n >>> 16 % 256, n >>> 8 % 256, n % 256].map (Nat.toDigits 10))

/-- The eight groups of a number, the highest first. -/
def groups (n : Nat) : List Nat :=
  [n >>> 112, n >>> 96 % 65536, n >>> 80 % 65536, n >>> 64 % 65536,
    n >>> 48 % 65536, n >>> 32 % 65536, n >>> 16 % 65536, n % 65536]

/-- Groups between colons. -/
def renderGroups (gs : List Nat) : List Char := [':'].intercalate (gs.map (Nat.toDigits 16))

/-- The number of zeros that a list starts with. -/
def zerosAhead (gs : List Nat) : Nat := (gs.takeWhile (· == 0)).length

/-- The start and length of the longest run of zeros, the first of several. -/
def longestRun : List Nat → Nat × Nat
  | [] => (0, 0)
  | g :: gs =>
    let (start, length) := longestRun gs
    if length ≤ zerosAhead (g :: gs) then (0, zerosAhead (g :: gs)) else (start + 1, length)

/-- Eight groups, the longest run of two or more zeros as `::`. -/
def renderEight (gs : List Nat) : List Char :=
  let (start, length) := longestRun gs
  if 1 < length then
    renderGroups (gs.take start) ++ ':' :: ':' :: renderGroups (gs.drop (start + length))
  else renderGroups gs

/-- The characters of an address. -/
def render : Address → List Char
  | ⟨.v4, bits⟩ => renderDotted bits.toNat
  | ⟨.v6, bits⟩ =>
    let n := bits.toNat
    if n >>> 32 = 0xffff then "::ffff:".toList ++ renderDotted (n % 1 <<< 32)
    else renderEight (groups n)

end RegistryConsent.Address
