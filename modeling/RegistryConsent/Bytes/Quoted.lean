import RegistryConsent.Bytes.Hex

/-!
# Quoted bytes

Bytes stand between double quotes behind a `b`. Those of printable ASCII are shown as characters,
the others by an escape.
-/

namespace RegistryConsent.Bytes

/-- How one byte is written between quotes. -/
def quoteByte (b : UInt8) : List Char :=
  if b = 0x0a then ['\\', 'n']
  else if b = 0x0d then ['\\', 'r']
  else if b = 0x09 then ['\\', 't']
  else if b = 0x00 then ['\\', '0']
  else if b = 0x22 || b = 0x5c then ['\\', .ofNat b.toNat]
  else if 0x20 ≤ b && b < 0x7f then [.ofNat b.toNat]
  else '\\' :: 'x' :: Hex.encodeByte b

/-- Some bytes between quotes. -/
def quoted (bytes : List UInt8) : String :=
  .ofList ('b' :: Text.textQuote :: bytes.flatMap quoteByte ++ [Text.textQuote])

end RegistryConsent.Bytes
