import RegistryConsent.Cbor.Item
import RegistryConsent.Proofs.Endian

/-!
# Written items are read back

Heads are written in five lengths and read back from each of them. From there the texts, sequences
and maps that are written are read back whatever follows them, as long as their lengths fit the
longest head, which those of all data in a memory do.
-/

namespace RegistryConsent.Cbor

open Bytes

/-- A reader takes a value from its written form, whatever follows. -/
def Reads {α : Type} (read : Reader α) (written : List UInt8) (x : α) : Prop :=
  ∀ rest, read (written ++ rest) = some (x, rest)

/-- Nothing is left when nothing follows. -/
theorem Reads.whole {α : Type} {read : Reader α} {written : List UInt8} {x : α}
    (reads : Reads read written x) : read written = some (x, []) := by
  rw [← reads [], List.append_nil]

/-! ### Heads -/

/-- A content of known length is taken as it is. -/
theorem take?_append (content rest : List UInt8) :
    take? content.length (content ++ rest) = some (content, rest) := by
  simp [take?]

/-- A number that fits its bytes is read back. -/
theorem readNumber_bigEndian {count n : Nat} (fits : n < capacity count) (rest : List UInt8) :
    readNumber count (bigEndian count n ++ rest) = some (n, rest) := by
  have taken := take?_append (bigEndian count n) rest
  rw [length_bigEndian] at taken
  simp only [readNumber, taken, Option.map_some, ofBigEndian_bigEndian, Nat.mod_eq_of_lt fits]

/-- A number is read back behind the mark for the count of its bytes. -/
theorem readArgument_bigEndian {short count n : Nat}
    (marked : (short, count) ∈ [(24, 1), (25, 2), (26, 4), (27, 8)]) (fits : n < capacity count)
    (rest : List UInt8) :
    readArgument short (bigEndian count n ++ rest) = some (some n, rest) := by
  have number := readNumber_bigEndian fits rest
  simp only [List.mem_cons, Prod.mk.injEq, List.not_mem_nil, or_false] at marked
  obtain ⟨rfl, rfl⟩ | ⟨rfl, rfl⟩ | ⟨rfl, rfl⟩ | ⟨rfl, rfl⟩ := marked <;>
    simp [readArgument, number]

/-- A head is a first byte with its kind and a mark, and as many bytes as the mark announces. -/
theorem encodeHead_eq (kind : Nat) {n : Nat} (fits : n < UInt64.size) :
    ∃ short argument, short < 32 ∧ encodeHead kind n = .ofNat (32 * kind + short) :: argument ∧
      ∀ rest, readArgument short (argument ++ rest) = some (some n, rest) := by
  unfold encodeHead
  by_cases inline : n < 24
  · refine ⟨n, [], by omega, if_pos inline, fun rest => ?_⟩
    simp [readArgument, inline]
  rw [if_neg inline]
  by_cases one : n < UInt8.size
  · exact ⟨24, bigEndian 1 n, by decide, if_pos one, readArgument_bigEndian (by simp) one⟩
  rw [if_neg one]
  by_cases two : n < UInt16.size
  · exact ⟨25, bigEndian 2 n, by decide, if_pos two, readArgument_bigEndian (by simp) two⟩
  rw [if_neg two]
  by_cases four : n < UInt32.size
  · exact ⟨26, bigEndian 4 n, by decide, if_pos four, readArgument_bigEndian (by simp) four⟩
  · exact ⟨27, bigEndian 8 n, by decide, if_neg four, readArgument_bigEndian (by simp) fits⟩

/-- The mark counts for simple values and floating-point numbers alone. -/
theorem headOf?_of_lt {kind : Nat} (hk : kind < 7) (short : Nat) (number : Option Nat) :
    headOf? kind short number = headOf? kind 0 number := by
  match kind, hk with
  | 0, _ | 1, _ | 2, _ | 3, _ | 4, _ | 5, _ | 6, _ => rfl

/-- A head is read back. -/
theorem readHead_encodeHead {kind n : Nat} (hk : kind < 7) (fits : n < UInt64.size)
    (rest : List UInt8) :
    readHead (encodeHead kind n ++ rest) =
      (headOf? kind 0 (some n)).map fun head => (head, rest) := by
  obtain ⟨short, argument, hs, written, given⟩ := encodeHead_eq kind fits
  have first : (UInt8.ofNat (32 * kind + short)).toNat = 32 * kind + short := by
    rw [UInt8.toNat_ofNat']
    omega
  have mark : (32 * kind + short) % 32 = short := by omega
  have sort : (32 * kind + short) / 32 = kind := by omega
  rw [written, List.cons_append, readHead, first, mark, sort]
  simp only [given, headOf?_of_lt hk, Option.bind_eq_bind, Option.bind_some]
  cases headOf? kind 0 (some n) <;> rfl

/-- A head that is no tag stands behind no tags. -/
theorem readUntagged_of_readHead {bytes rest : List UInt8} {head : Head}
    (read : readHead bytes = some (head, rest)) (untagged : ∀ n, head ≠ .tag n) :
    readUntagged bytes = some (head, rest) := by
  rw [readUntagged]
  generalize bytes.length = limit
  rw [readPastTags.eq_def]
  simp only [read]
  split
  · next n rest' same =>
    cases same
    exact absurd rfl (untagged n)
  · rfl

/-- The head of a text is read. -/
@[simp] theorem readUntagged_textHead {n : Nat} (fits : n < UInt64.size) (rest : List UInt8) :
    readUntagged (encodeHead 3 n ++ rest) = some (.text (some n), rest) :=
  readUntagged_of_readHead (readHead_encodeHead (by decide) fits rest) nofun

/-- The head of a sequence is read. -/
@[simp] theorem readUntagged_arrayHead {n : Nat} (fits : n < UInt64.size) (rest : List UInt8) :
    readUntagged (encodeHead 4 n ++ rest) = some (.array (some n), rest) :=
  readUntagged_of_readHead (readHead_encodeHead (by decide) fits rest) nofun

/-- The head of a map is read. -/
@[simp] theorem readUntagged_mapHead {n : Nat} (fits : n < UInt64.size) (rest : List UInt8) :
    readUntagged (encodeHead 5 n ++ rest) = some (.map (some n), rest) :=
  readUntagged_of_readHead (readHead_encodeHead (by decide) fits rest) nofun

/-! ### Items -/

/-- The UTF-8 form of a text is no longer than a head can tell. -/
def TextFits (s : String) : Prop := (ofText s).length < UInt64.size

/-- Whether a text fits is a comparison of lengths. -/
instance (s : String) : Decidable (TextFits s) :=
  inferInstanceAs (Decidable ((ofText s).length < UInt64.size))

/-- The content of a text is taken when it is announced. -/
theorem readContent_text (s : String) (rest : List UInt8) :
    readContent .text (ofText s).length (ofText s ++ rest) = some (ofText s, rest) := by
  simp [readContent, take?_append, Option.filter_some]

/-- A text is read back. -/
theorem reads_text {s : String} (fits : TextFits s) : Reads readText (encodeText s) s := by
  intro rest
  have head := readUntagged_textHead fits (ofText s ++ rest)
  rw [encodeText, List.append_assoc, readText, head]
  simp [readString, readContent_text]

/-- A name is read back as its bytes. -/
theorem reads_name {s : String} (short : (ofText s).length ≤ longestName) :
    Reads readName (encodeText s) (ofText s) := by
  intro rest
  have fits : (ofText s).length < UInt64.size := Nat.lt_of_le_of_lt short (by decide)
  have head := readUntagged_textHead fits (ofText s ++ rest)
  rw [encodeText, List.append_assoc, readName, head]
  simp [short, readContent_text]

section List

variable {α : Type} {item : Reader α} {write : α → List UInt8}

/-- The items of a sequence are read one by one, the last on top. -/
theorem readCounted_items {xs : List α} (reads : ∀ x ∈ xs, Reads item (write x) x)
    (former : List α) (rest : List UInt8) :
    readCounted (fun former bytes => (item bytes).map fun (x, rest) => (x :: former, rest))
        xs.length former ((xs.map write).flatten ++ rest) = some (xs.reverse ++ former, rest) := by
  induction xs generalizing former with
  | nil => rfl
  | cons x xs ih =>
    have first := reads x List.mem_cons_self ((xs.map write).flatten ++ rest)
    have others := ih (fun y hy => reads y (List.mem_cons_of_mem x hy)) (x :: former)
    simp [readCounted, first, others]

/-- A sequence is read back when its items are. -/
theorem reads_list {xs : List α} (reads : ∀ x ∈ xs, Reads item (write x) x)
    (fits : xs.length < UInt64.size) : Reads (readList item) (encodeList (xs.map write)) xs := by
  intro rest
  have head := readUntagged_arrayHead fits ((xs.map write).flatten ++ rest)
  rw [encodeList, List.length_map, List.append_assoc, readList, head]
  simp [readSteps, readCounted_items reads]

end List

section Map

variable {σ : Type} {member : List UInt8 → σ → Reader σ}

/-- Members are read one after the other, from a state to a state. -/
inductive ReadsMembers (member : List UInt8 → σ → Reader σ) :
    σ → List (String × List UInt8) → σ → Prop where
  | nil (s : σ) : ReadsMembers member s [] s
  | cons {s s' t : σ} {name : String} {value : List UInt8} {rest : List (String × List UInt8)}
      (short : (ofText name).length ≤ longestName)
      (reads : Reads (member (ofText name) s) value s') (more : ReadsMembers member s' rest t) :
      ReadsMembers member s ((name, value) :: rest) t

/-- Members that are read one after the other are read by their number. -/
theorem ReadsMembers.readCounted {s t : σ} {members : List (String × List UInt8)}
    (reads : ReadsMembers member s members t) (rest : List UInt8) :
    Cbor.readCounted (fun s bytes => do
        let (name, rest) ← readName bytes
        member name s rest)
      members.length s ((members.flatMap fun (name, value) => encodeText name ++ value) ++ rest) =
        some (t, rest) := by
  induction reads with
  | nil s => rfl
  | cons short reads more ih =>
    simpa [Cbor.readCounted, reads_name short _, reads _] using ih

/-- A map is read back when its members are. -/
theorem reads_map {s t : σ} {members : List (String × List UInt8)}
    (reads : ReadsMembers member s members t) (fits : members.length < UInt64.size) :
    Reads (readMap member s) (encodeMap members) t := by
  intro rest
  have head := readUntagged_mapHead fits
    ((members.flatMap fun (name, value) => encodeText name ++ value) ++ rest)
  rw [encodeMap, List.append_assoc, readMap, head]
  exact reads.readCounted rest

end Map

end RegistryConsent.Cbor
