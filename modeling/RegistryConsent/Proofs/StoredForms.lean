import Mathlib.Data.List.Perm.Subperm
import RegistryConsent.Cbor.Forms
import RegistryConsent.Proofs.Cbor
import RegistryConsent.Proofs.SortedSet

/-!
# Stored values are read back

Object types, sets of them, attributes and records are read back from their stored forms exactly as
they were, in the spelling and in the order in which they were put. A record must fit the heads of
its items, as every record in a memory does.
-/

namespace RegistryConsent

open Cbor

/-- A field that has not been given is set to what is read. -/
theorem reads_field {α : Type} {read : Reader α} {written : List UInt8} {x : α}
    (reads : Reads read written x) : Reads (readField read none) written (some x) := by
  intro rest
  rw [readField, reads rest, Option.map_some]

namespace ObjectType

/-- The bytes of a name belong to one type. -/
theorem find?_name (t : ObjectType) :
    (all.find? fun other => Bytes.ofText other.name == Bytes.ofText t.name) = some t := by
  cases t <;> rfl

/-- The names of types are short. -/
theorem length_name_le (t : ObjectType) : (Bytes.ofText t.name).length ≤ longestName := by
  cases t <;> decide

/-- An object type is read back. -/
theorem reads_toCbor (t : ObjectType) : Reads readCbor t.toCbor t := by
  intro rest
  have fits : (Bytes.ofText t.name).length < UInt64.size :=
    Nat.lt_of_le_of_lt t.length_name_le (by decide)
  have head : readUntagged (encodeText t.name ++ rest) =
      some (.text (some (Bytes.ofText t.name).length), Bytes.ofText t.name ++ rest) := by
    rw [encodeText, List.append_assoc]
    exact readUntagged_textHead fits _
  simp [toCbor, readCbor, head, reads_name t.length_name_le rest, find?_name]

end ObjectType

/-- A set of object types is read back. -/
theorem typesOfCbor?_typesToCbor (types : SortedSet ObjectType) :
    typesOfCbor? (typesToCbor types) = some types := by
  have few : types.toList.length ≤ ObjectType.all.length :=
    (List.subperm_of_subset types.nodup fun t _ => t.mem_all).length_le
  have reads : Reads (readList ObjectType.readCbor)
      (encodeList (types.toList.map ObjectType.toCbor)) types.toList :=
    reads_list (fun t _ => t.reads_toCbor) (Nat.lt_of_le_of_lt few (by decide))
  simp only [typesOfCbor?, typesToCbor, reads.whole, Option.map_some, SortedSet.ofList_toList]

/-- The texts of a record and the list of its attributes are no longer than a head can tell. This is
so of every record whose bytes have addresses of 64 bits. -/
structure Record.Fits (r : Record) : Prop where
  key : TextFits r.key.spelling
  names : ∀ a ∈ r.attributes, TextFits a.name.spelling
  values : ∀ a ∈ r.attributes, TextFits a.value
  attributes : r.attributes.length < UInt64.size

/-- Whether a record fits is found from its texts and its number of attributes. -/
instance (r : Record) : Decidable r.Fits :=
  decidable_of_iff (TextFits r.key.spelling ∧ (∀ a ∈ r.attributes, TextFits a.name.spelling) ∧
      (∀ a ∈ r.attributes, TextFits a.value) ∧ r.attributes.length < UInt64.size)
    ⟨fun ⟨key, names, values, attributes⟩ => ⟨key, names, values, attributes⟩,
      fun fits => ⟨fits.key, fits.names, fits.values, fits.attributes⟩⟩

/-- The names of members are short. -/
theorem length_member_le :
    ∀ name ∈ ["name", "value", "object_type", "key", "attributes"],
      (Bytes.ofText name).length ≤ longestName := by
  decide

/-- An attribute is read back. -/
theorem Attribute.reads_toCbor (depth : Nat) {a : Attribute} (name : TextFits a.name.spelling)
    (value : TextFits a.value) : Reads (readCbor depth) a.toCbor a := by
  have first : Reads (readMember depth (Bytes.ofText "name") (none, none))
      (encodeText a.name.spelling) (some a.name.spelling, none) := by
    intro rest
    simp [readMember, reads_field (reads_text name) rest]
  have second : Reads (readMember depth (Bytes.ofText "value") (some a.name.spelling, none))
      (encodeText a.value) (some a.name.spelling, some a.value) := by
    intro rest
    simp [readMember, Bytes.ofText_inj, reads_field (reads_text value) rest]
  have members := reads_map (.cons (length_member_le "name" (by simp)) first <|
    .cons (length_member_le "value" (by simp)) second (.nil _)) (by decide : 2 < UInt64.size)
  intro rest
  rw [readCbor, toCbor, members rest]

/-- A record is read back. -/
theorem Record.ofCbor?_toCbor {r : Record} (fits : r.Fits) : ofCbor? r.toCbor = some r := by
  have listed : Reads (readList (Attribute.readCbor (nesting - 3)))
      (encodeList (r.attributes.map Attribute.toCbor)) r.attributes :=
    reads_list (fun a ha => Attribute.reads_toCbor _ (fits.names a ha) (fits.values a ha))
      fits.attributes
  have objectType : Reads (PartialRecord.readMember (Bytes.ofText "object_type") {})
      r.objectType.toCbor ⟨some r.objectType, none, none⟩ := by
    intro rest
    simp [PartialRecord.readMember, reads_field r.objectType.reads_toCbor rest]
  have key : Reads
      (PartialRecord.readMember (Bytes.ofText "key") ⟨some r.objectType, none, none⟩)
      (encodeText r.key.spelling) ⟨some r.objectType, some r.key.spelling, none⟩ := by
    intro rest
    simp [PartialRecord.readMember, Bytes.ofText_inj, reads_field (reads_text fits.key) rest]
  have attributes : Reads (PartialRecord.readMember (Bytes.ofText "attributes")
        ⟨some r.objectType, some r.key.spelling, none⟩)
      (encodeList (r.attributes.map Attribute.toCbor))
      ⟨some r.objectType, some r.key.spelling, some r.attributes⟩ := by
    intro rest
    simp [PartialRecord.readMember, Bytes.ofText_inj, reads_field listed rest]
  have members := reads_map (.cons (length_member_le "object_type" (by simp)) objectType <|
    .cons (length_member_le "key" (by simp)) key <|
    .cons (length_member_le "attributes" (by simp)) attributes (.nil _))
    (by decide : 3 < UInt64.size)
  rw [ofCbor?, toCbor, members.whole]

end RegistryConsent
