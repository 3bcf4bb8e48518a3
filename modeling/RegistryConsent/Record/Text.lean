import RegistryConsent.Record

/-!
# The text of a record

A record is written as one line `name: value` for its type and key and one for each attribute.
Reading takes the significant lines of a text, those that are neither blank nor start with `#`, cuts
each at its first colon and trims both parts; the first line gives the type and the key.
-/

namespace RegistryConsent.Record

open Text

/-- One written line. -/
def renderLine (name value : List Char) : List Char := name ++ ':' :: ' ' :: value ++ ['\n']

/-- The characters of the text of a record. -/
def render (r : Record) : List Char :=
  renderLine r.objectType.name.toList r.key.spelling.toList ++
    r.attributes.flatMap fun a => renderLine a.name.spelling.toList a.value.toList

/-- The text of a record, which signatures cover. -/
def text (r : Record) : String := .ofList r.render

/-- The lines of a text, without trailing blanks, that are not empty and do not start with `#`. -/
def significantLines (cs : List Char) : List (List Char) :=
  ((cs.splitOn '\n').map dropBlanksEnd).filter fun l => !l.isEmpty && l.head? != some '#'

/-- Cuts a line at its first colon into a trimmed name and a trimmed value. -/
def readLine (line : List Char) : Except InputError (List Char × List Char) :=
  match cut? ':' line with
  | none => .error (.malformedRecord (.notAttribute (.ofList line)))
  | some (name, value) =>
    if (strip name).isEmpty then .error (.malformedRecord (.emptyName (.ofList line)))
    else .ok (strip name, strip value)

/-- Reads a line as an attribute. -/
def readAttribute (line : List Char) : Except InputError Attribute := do
  let (name, value) ← readLine line
  return ⟨⟨.ofList name⟩, .ofList value⟩

/-- Reads a record from its significant lines. -/
def ofLines : List (List Char) → Except InputError Record
  | [] => .error (.malformedRecord .empty)
  | first :: rest => do
    let (name, key) ← readLine first
    let objectType ← ObjectType.ofName (.ofList name)
    if key.isEmpty then throw (.malformedRecord .missingKey)
    let attributes ← rest.mapM readAttribute
    return { objectType, key := ⟨.ofList key⟩, attributes }

/-- Reads a record from a text. -/
def parse (s : String) : Except InputError Record := ofLines (significantLines s.toList)

end RegistryConsent.Record
