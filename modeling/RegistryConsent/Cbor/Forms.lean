import RegistryConsent.Cbor.Item
import RegistryConsent.Record
import RegistryConsent.SortedSet

/-!
# The CBOR forms of stored values

Object types are stored as texts, records and attributes as maps with one member for each field.
Reading passes over members of other names and refuses fields that are missing or given twice; what
follows a value is not looked at.
-/

namespace RegistryConsent

open Cbor

/-- An object type is stored as its name. -/
def ObjectType.toCbor (t : ObjectType) : List UInt8 := encodeText t.name

/-- Reads an object type: its name, also where that is announced as a map of one member. -/
def ObjectType.readCbor : Reader ObjectType := fun bytes => do
  let named := match readUntagged bytes with
    | some (.map (some 1), rest) => readName rest
    | some (.text _, _) => readName bytes
    | _ => none
  let (name, rest) ← named
  return (← all.find? fun t => Bytes.ofText t.name == name, rest)

/-- Types of objects are stored as their sequence in order. -/
def typesToCbor (types : SortedSet ObjectType) : List UInt8 :=
  encodeList (types.toList.map ObjectType.toCbor)

/-- Reads types of objects. -/
def typesOfCbor? (bytes : List UInt8) : Option (SortedSet ObjectType) :=
  (readList ObjectType.readCbor bytes).map fun (types, _) => .ofList types

/-- Sets a field that has not been given yet. -/
def readField {α : Type} (read : Reader α) : Option α → Reader (Option α)
  | none, bytes => (read bytes).map fun (x, rest) => (some x, rest)
  | some _, _ => none

/-- An attribute is stored with its name and value. -/
def Attribute.toCbor (a : Attribute) : List UInt8 :=
  encodeMap [("name", encodeText a.name.spelling), ("value", encodeText a.value)]

/-- Reads a member of an attribute. -/
def Attribute.readMember (depth : Nat) (member : List UInt8) (s : Option String × Option String) :
    Reader (Option String × Option String) := fun bytes =>
  if member = Bytes.ofText "name" then
    (readField readText s.1 bytes).map fun (x, rest) => ((x, s.2), rest)
  else if member = Bytes.ofText "value" then
    (readField readText s.2 bytes).map fun (x, rest) => ((s.1, x), rest)
  else (skip depth bytes).map fun (_, rest) => (s, rest)

/-- Reads an attribute inside `depth` items. -/
def Attribute.readCbor (depth : Nat) : Reader Attribute := fun bytes =>
  match readMap (readMember depth) (none, none) bytes with
  | some ((some name, some value), rest) => some (⟨⟨name⟩, value⟩, rest)
  | _ => none

/-- A record is stored with its type, key and attributes. -/
def Record.toCbor (r : Record) : List UInt8 :=
  encodeMap [("object_type", r.objectType.toCbor), ("key", encodeText r.key.spelling),
    ("attributes", encodeList (r.attributes.map Attribute.toCbor))]

/-- The fields of a record as far as they have been given. -/
structure PartialRecord where
  objectType : Option ObjectType := none
  key : Option String := none
  attributes : Option (List Attribute) := none

/-- Reads a member of a record. -/
def PartialRecord.readMember (member : List UInt8) (s : PartialRecord) : Reader PartialRecord :=
  fun bytes =>
    if member = Bytes.ofText "object_type" then
      (readField ObjectType.readCbor s.objectType bytes).map fun (x, rest) =>
        ({ s with objectType := x }, rest)
    else if member = Bytes.ofText "key" then
      (readField readText s.key bytes).map fun (x, rest) => ({ s with key := x }, rest)
    else if member = Bytes.ofText "attributes" then
      (readField (readList (Attribute.readCbor (nesting - 3))) s.attributes bytes).map
        fun (x, rest) => ({ s with attributes := x }, rest)
    else (skip (nesting - 1) bytes).map fun (_, rest) => (s, rest)

/-- Reads a record. -/
def Record.ofCbor? (bytes : List UInt8) : Option Record :=
  match readMap PartialRecord.readMember {} bytes with
  | some (⟨some objectType, some key, some attributes⟩, _) =>
    some { objectType, key := ⟨key⟩, attributes }
  | _ => none

end RegistryConsent
