import RegistryConsent.Text.DefaultIgnorable
import RegistryConsent.Text.GraphemeExtend
import RegistryConsent.Text.Unprintable

/-!
# Quoted texts

A quoted text stands between double quotes, a quoted character between single ones. The quote in use
and the backslash are escaped, and so is every character that would not be seen by itself.
-/

namespace RegistryConsent.Text

/-- The two halfwidth sound marks, which extend a grapheme and yet take up room of their own. -/
def isHalfwidthSoundMark (c : Char) : Bool := c = '\uff9e' || c = '\uff9f'

/-- Whether a character would not be seen by itself. -/
def isHidden (c : Char) : Bool :=
  isUnprintable c || isDefaultIgnorable c || (isGraphemeExtend c && !isHalfwidthSoundMark c)

/-- How one character is written between quotes of the given kind. -/
def quoteChar (quote c : Char) : List Char :=
  if c = '\x00' then ['\\', '0']
  else if c = '\t' then ['\\', 't']
  else if c = '\n' then ['\\', 'n']
  else if c = '\r' then ['\\', 'r']
  else if c = '\\' || c = quote then ['\\', c]
  else if isHidden c then
    ['\\', 'u', '\x7b'] ++ Nat.toDigits 16 c.toNat ++ ['\x7d']
  else [c]

/-- The mark around quoted texts. -/
def textQuote : Char := '\x22'

/-- The mark around quoted characters. -/
def charQuote : Char := '\x27'

/-- A text between its quotes. -/
def quoted (s : String) : String :=
  .ofList (textQuote :: s.toList.flatMap (quoteChar textQuote) ++ [textQuote])

/-- A character between its quotes. -/
def quotedChar (c : Char) : String := .ofList (charQuote :: quoteChar charQuote c ++ [charQuote])

end RegistryConsent.Text
