import Mathlib.Data.Finset.Card
import Mathlib.Tactic.TFAE
import RegistryConsent.Proofs.FoldedCase
import RegistryConsent.Proofs.SortedSet
import RegistryConsent.Proofs.Utf8

/-!
# Handles as keys

Names are told apart, ordered and hashed byte by byte, each byte in lower case. The three agree with
each other and with the comparison of a name with a plain text, and what is hashed for one name does
not begin what is hashed for another. A sorted set and a hashed set therefore keep the same names.
-/

namespace RegistryConsent

/-- Where a mark stands for the first time, a list is cut in one way only. -/
theorem append_cons_inj_of_first {α : Type} {mark : α} {front front' back back' : List α}
    (new : mark ∉ front) (new' : mark ∉ front')
    (h : front ++ mark :: back = front' ++ mark :: back') : front = front' ∧ back = back' := by
  classical
  have place (front back : List α) (new : mark ∉ front) :
      (front ++ mark :: back).idxOf mark = front.length := by
    rw [List.idxOf_append_of_notMem new, List.idxOf_cons_self, Nat.add_zero]
  have lengths : front.length = front'.length := by
    rw [← place front back new, h, place front' back' new']
  obtain ⟨fronts, backs⟩ := List.append_inj h lengths
  exact ⟨fronts, List.tail_eq_of_cons_eq backs⟩

/-! ### Sorted sets beside hashed ones -/

/-- Adds elements one after another, and tells of each whether it was new. -/
def addAll {σ α : Type} (add : σ → α → σ × Bool) : σ → List α → σ × List Bool
  | s, [] => (s, [])
  | s, x :: xs =>
    let (s, new) := add s x
    let (s, others) := addAll add s xs
    (s, new :: others)

namespace SortedSet

/-- Adds an element, and tells whether it was new. -/
def add {α : Type} [Ord α] [Std.TransOrd α] (s : SortedSet α) (x : α) : SortedSet α × Bool :=
  (s.insert x, !s.contains x)

/-- Adding elements one after another adds all of them. -/
theorem addAll_fst {α : Type} [Ord α] [Std.TransOrd α] (s : SortedSet α) (xs : List α) :
    (addAll add s xs).1 = s.insertMany xs := by
  induction xs generalizing s with
  | nil => rfl
  | cons x xs ih => exact ih (s.insert x)

variable {α : Type} [Ord α] [BEq α] [Hashable α]

/-- A sorted set and a hashed one have equally many elements, and the same is found in both. -/
structure InStep (s : SortedSet α) (t : Std.HashSet α) : Prop where
  find (x : α) : s.find? x = t.get? x
  size : s.size = t.size

end SortedSet

/-- Adds an element to a hashed set, and tells whether it was new. -/
def addHashed {α : Type} [BEq α] [Hashable α] (t : Std.HashSet α) (x : α) :
    Std.HashSet α × Bool :=
  let (known, t) := t.containsThenInsert x
  (t, !known)

namespace SortedSet.InStep

variable {α : Type} [Ord α] [Std.TransOrd α] [BEq α] [Hashable α]

omit [Std.TransOrd α] in
/-- Without elements the sets are in step. -/
theorem empty : InStep (.empty : SortedSet α) ∅ where
  find _ := Std.HashSet.get?_empty.symm
  size := Std.HashSet.size_empty.symm

variable [Std.LawfulBEqOrd α] [EquivBEq α] [LawfulHashable α] {s : SortedSet α} {t : Std.HashSet α}

/-- Sets in step take an element as new together, and are in step after that. -/
theorem add (h : InStep s t) (x : α) :
    (s.add x).2 = (addHashed t x).2 ∧ InStep (s.add x).1 (addHashed t x).1 := by
  have known : s.contains x = t.contains x := by
    rw [← isSome_find?, h.find, Std.HashSet.contains_eq_isSome_get?]
  have split : t.containsThenInsert x = (t.contains x, t.insert x) :=
    Prod.ext Std.HashSet.containsThenInsert_fst Std.HashSet.containsThenInsert_snd
  rw [addHashed, split]
  refine ⟨congrArg not known, fun y => ?_, ?_⟩
  · show (s.insert x).find? y = (t.insert x).get? y
    cases there : t.contains x with
    | true =>
      rw [insert_of_contains (known.trans there), h.find, Std.HashSet.get?_insert, if_neg]
      exact fun new => new.2 (Std.HashSet.contains_iff_mem.mp there)
    | false =>
      have new : x ∉ t := Std.HashSet.contains_eq_false_iff_not_mem.mp there
      rw [find?_insert, h.find, Std.HashSet.get?_insert]
      by_cases same : (x == y) = true
      · have absent : t.get? y = none := by
          rw [← Option.not_isSome_iff_eq_none, ← Std.HashSet.contains_eq_isSome_get?,
            ← Std.HashSet.contains_congr same, there]
          exact Bool.false_ne_true
        rw [absent, if_pos ⟨same, new⟩, Option.none_or, List.find?_singleton,
          Std.LawfulBEqOrd.compare_eq_iff_beq.mpr same]
        rfl
      · have other : (compare x y == .eq) = false := by
          rw [beq_eq_false_iff_ne, ne_eq, Std.LawfulBEqOrd.compare_eq_iff_beq]
          exact same
        rw [if_neg fun h => same h.1, List.find?_singleton, other, if_neg Bool.false_ne_true,
          Option.or_none]
  · show (s.insert x).size = (t.insert x).size
    rw [size_insert, Std.HashSet.size_insert, known, h.size]
    simp only [Std.HashSet.contains_iff_mem]

/-- So they do through any number of additions. -/
theorem addAll (h : InStep s t) (xs : List α) :
    (RegistryConsent.addAll SortedSet.add s xs).2 = (RegistryConsent.addAll addHashed t xs).2 ∧
      InStep (RegistryConsent.addAll SortedSet.add s xs).1
        (RegistryConsent.addAll addHashed t xs).1 := by
  induction xs generalizing s t with
  | nil => exact ⟨rfl, h⟩
  | cons x xs ih =>
    obtain ⟨new, after⟩ := h.add x
    obtain ⟨others, final⟩ := ih after
    exact ⟨List.cons_eq_cons.mpr ⟨new, others⟩, final⟩

end SortedSet.InStep

namespace Bytes

/-- A byte, an ASCII capital being put in lower case. -/
def lower (b : UInt8) : UInt8 := if 0x41 ≤ b ∧ b ≤ 0x5a then b + 0x20 else b

/-- Whether bytes are as many as others and, one by one, the same up to ASCII case. -/
def sameUpToCase (xs ys : List UInt8) : Bool :=
  xs.length == ys.length && (xs.zip ys).all fun (x, y) => lower x == lower y

/-- Bytes are the same up to case when they are the same in lower case. -/
theorem sameUpToCase_iff {xs ys : List UInt8} :
    sameUpToCase xs ys = true ↔ xs.map lower = ys.map lower := by
  rw [sameUpToCase, Bool.and_eq_true]
  induction xs generalizing ys with
  | nil => cases ys <;> simp
  | cons x xs ih =>
    cases ys with
    | nil => simp
    | cons y ys => simp [← ih, and_left_comm]

private theorem lower_table : ∀ n < 128,
    lower (.ofNat (Char.ofNat n).toNat) = .ofNat (Char.ofNat n).toLower.toNat := by decide +kernel

/-- The bytes of a character in lower case are those of its small letter. -/
theorem map_lower_utf8EncodeChar (c : Char) :
    (String.utf8EncodeChar c).map lower = String.utf8EncodeChar c.toLower := by
  rcases Nat.lt_or_ge c.toNat 128 with ascii | other
  · have small : c.toLower.toNat < 128 := (Text.toNat_toLower_lt_iff c).mpr ascii
    rw [utf8EncodeChar_of_ascii ascii, utf8EncodeChar_of_ascii small]
    have table := Text.of_ascii
      (P := fun c => lower (.ofNat c.toNat) = .ofNat c.toLower.toNat) lower_table ascii
    rw [List.map_singleton, table]
  · rw [Text.toLower_of_le other]
    refine (List.map_congr_left fun b hb => ?_).trans (List.map_id _)
    have large := le_of_mem_utf8EncodeChar other hb
    have capital : ¬(0x41 ≤ b ∧ b ≤ 0x5a) := by
      rintro ⟨-, le⟩
      have small : b.toNat ≤ 0x5a := UInt8.le_iff_toNat_le.mp le
      omega
    exact if_neg capital

/-- The bytes of a text in lower case are those of the text in lower case. -/
theorem map_lower_ofText (s : String) :
    (ofText s).map lower = ofText (.ofList (foldCase s)) := by
  have chars : ofText s = s.toList.flatMap String.utf8EncodeChar := by
    rw [← ofText_ofList, String.ofList_toList]
  rw [chars, ofText_ofList, foldCase, List.map_flatMap, List.flatMap_map]
  simp only [map_lower_utf8EncodeChar]

end Bytes

namespace Handle

/-- The bytes of a name in lower case. -/
def loweredBytes (h : Handle) : List UInt8 := (Bytes.ofText h.spelling).map Bytes.lower

/-- The bytes in lower case are those of the name in lower case. -/
theorem loweredBytes_eq (h : Handle) : h.loweredBytes = Bytes.ofText h.lowered :=
  Bytes.map_lower_ofText h.spelling

/-- Names are the same when their bytes in lower case are. -/
theorem beq_iff_loweredBytes {a b : Handle} :
    (a == b) = true ↔ a.loweredBytes = b.loweredBytes := by
  rw [loweredBytes_eq, loweredBytes_eq, Bytes.ofText_inj, lowered_inj]

/-- Names are ordered as their bytes in lower case. -/
theorem compare_eq (a b : Handle) : compare a b = compare a.loweredBytes b.loweredBytes := by
  rw [loweredBytes_eq, loweredBytes_eq, lowered, lowered, Bytes.compare_ofText]
  rfl

/-- Handles compare equal exactly when they are the same up to case. -/
instance : Std.LawfulBEqOrd Handle where
  compare_eq_iff_beq := by
    intro a b
    rw [compare_eq, Std.LawfulEqOrd.compare_eq_iff_eq, beq_iff_loweredBytes]

/-- The bytes of a name in lower case are hashed, and behind them one that no name has. -/
theorem hashedBytes_eq (h : Handle) : h.hashedBytes = h.loweredBytes ++ [0xff] := by
  rw [hashedBytes, loweredBytes_eq]

/-- No name has the closing byte. -/
theorem not_mem_loweredBytes (h : Handle) : 0xff ∉ h.loweredBytes := by
  intro there
  rw [loweredBytes_eq] at there
  have bound := Bytes.toNat_lt_of_mem_ofText there
  exact absurd bound (by decide)

/-- What is hashed for a name ends where the last byte says. -/
theorem hashedBytes_append_inj {a b : Handle} {xs ys : List UInt8}
    (h : a.hashedBytes ++ xs = b.hashedBytes ++ ys) : (a == b) = true ∧ xs = ys := by
  rw [hashedBytes_eq, hashedBytes_eq, List.append_assoc, List.append_assoc] at h
  obtain ⟨same, rest⟩ := append_cons_inj_of_first a.not_mem_loweredBytes
    b.not_mem_loweredBytes h
  exact ⟨beq_iff_loweredBytes.mpr same, rest⟩

/-- The same is hashed for two names exactly when they are the same. -/
theorem hashedBytes_inj {a b : Handle} : a.hashedBytes = b.hashedBytes ↔ (a == b) = true := by
  rw [hashedBytes_eq, hashedBytes_eq, List.append_left_inj, beq_iff_loweredBytes]

/-- What is hashed for a name begins what is hashed for another only if the names are the same. -/
theorem hashedBytes_isPrefix_iff {a b : Handle} :
    a.hashedBytes <+: b.hashedBytes ↔ (a == b) = true := by
  constructor
  · rintro ⟨rest, h⟩
    rw [← List.append_nil b.hashedBytes] at h
    exact (hashedBytes_append_inj h).1
  · intro same
    rw [hashedBytes_inj.mpr same]

/-- What is hashed for names in a row tells them apart. -/
theorem flatMap_hashedBytes_inj {as bs : List Handle} :
    as.flatMap hashedBytes = bs.flatMap hashedBytes ↔
      List.Forall₂ (fun a b => (a == b) = true) as bs := by
  have visible (h : Handle) : h.hashedBytes ≠ [] := by
    rw [hashedBytes_eq]
    exact List.append_ne_nil_of_right_ne_nil _ (List.cons_ne_nil _ _)
  induction as generalizing bs with
  | nil =>
    cases bs with
    | nil => simp
    | cons b bs => simp [visible]
  | cons a as ih =>
    cases bs with
    | nil => simp [visible]
    | cons b bs =>
      rw [List.flatMap_cons, List.flatMap_cons, List.forall₂_cons]
      constructor
      · intro h
        obtain ⟨same, rest⟩ := hashedBytes_append_inj h
        exact ⟨same, ih.mp rest⟩
      · rintro ⟨same, rest⟩
        rw [hashedBytes_inj.mpr same, ih.mpr rest]

/-- Whether a plain text spells this name in some case. -/
def isText (h : Handle) (s : String) : Bool :=
  Bytes.sameUpToCase (Bytes.ofText h.spelling) (Bytes.ofText s)

/-- A name is compared with a plain text as with the name that is spelt so. -/
theorem isText_eq (h : Handle) (s : String) : h.isText s = (h == ⟨s⟩) := by
  rw [Bool.eq_iff_iff, isText, Bytes.sameUpToCase_iff, beq_iff_loweredBytes]
  rfl

/-! ### Sets of names -/

/-- Hashes names through the bytes that are hashed for them. -/
@[reducible] def hashableBy (hashOf : List UInt8 → UInt64) : Hashable Handle :=
  ⟨fun h => hashOf h.hashedBytes⟩

/-- Names that are the same have the same hash. -/
theorem lawfulHashable (hashOf : List UInt8 → UInt64) :
    @LawfulHashable Handle _ (hashableBy hashOf) :=
  @LawfulHashable.mk _ _ (hashableBy hashOf) fun _ _ same =>
    congrArg hashOf (hashedBytes_inj.mpr same)

/-- The names of a set differ in lower case. -/
theorem nodup_map_lowered (s : SortedSet Handle) : (s.toList.map lowered).Nodup := by
  rw [List.Nodup, List.pairwise_map]
  refine s.ascending.imp fun {a b} below same => ?_
  rw [Std.LawfulBEqOrd.compare_eq_iff_beq.mpr (lowered_inj.mp same)] at below
  cases below

/-- Searching by the order finds the same name as searching by comparison. -/
theorem find?_compare (names : List Handle) (h : Handle) :
    names.find? (compare · h == .eq) = names.find? (· == h) := by
  congr 1
  funext a
  rw [Bool.eq_iff_iff, beq_iff_eq, Std.LawfulBEqOrd.compare_eq_iff_beq]

/-- A set has the names of the list it was made of, up to case. -/
theorem mem_map_lowered_ofList {names : List Handle} {key : String} :
    key ∈ (SortedSet.ofList names).toList.map lowered ↔ key ∈ names.map lowered := by
  have found (h : Handle) : (SortedSet.ofList names).find? h = names.find? (· == h) := by
    rw [SortedSet.find?_ofList, find?_compare]
  rw [List.mem_map, List.mem_map]
  constructor
  · rintro ⟨h, there, rfl⟩
    rw [SortedSet.mem_iff_find?, found] at there
    exact ⟨h, List.mem_of_find?_eq_some there, rfl⟩
  · rintro ⟨h, listed, rfl⟩
    obtain ⟨first, there⟩ := Option.isSome_iff_exists.mp
      (List.find?_isSome.mpr ⟨h, listed, BEq.rfl⟩ : (names.find? (· == h)).isSome = true)
    have same : (first == h) = true := List.find?_some (p := (· == h)) there
    rw [← found] at there
    exact ⟨first, List.mem_of_find?_eq_some there, lowered_inj.mpr same⟩

/-- A set of names counts them up to case. -/
theorem size_ofList (names : List Handle) :
    (SortedSet.ofList names).size = (names.map lowered).toFinset.card := by
  have same : ((SortedSet.ofList names).toList.map lowered).toFinset =
      (names.map lowered).toFinset := by
    ext key
    rw [List.mem_toFinset, List.mem_toFinset, mem_map_lowered_ofList]
  rw [← same, List.toFinset_card_of_nodup (nodup_map_lowered _), List.length_map]
  rfl

/-- Names are the same exactly when their bytes in lower case are, when neither comes before the
other, when the same bytes are hashed for them, and when what is hashed for the one begins what is
hashed for the other. Their bytes in lower case are hashed with a closing byte, and what is hashed
for names in a row tells the names apart. The order of names is that of their bytes in lower case;
it is total, and only the same names stand at the same place. Plain texts are compared as the names
that are spelt so. However the hashed bytes are made into a number, a sorted set and a hashed one
that take in the same names find each of them new or known together, come to as many names as there
are spellings in lower case, and keep the first spelling of each. -/
theorem keys_cohere :
    (∀ a b : Handle,
      [(a == b) = true, a.loweredBytes = b.loweredBytes, compare a b = .eq,
        a.hashedBytes = b.hashedBytes, a.hashedBytes <+: b.hashedBytes].TFAE) ∧
    (∀ a : Handle, a.hashedBytes = a.loweredBytes ++ [0xff]) ∧
    (∀ as bs : List Handle, as.flatMap hashedBytes = bs.flatMap hashedBytes ↔
      List.Forall₂ (fun a b => (a == b) = true) as bs) ∧
    (∀ a b : Handle, compare a b = compare a.loweredBytes b.loweredBytes) ∧
    (∀ a b : Handle, (compare a b).isLE → (compare b a).isLE → (a == b) = true) ∧
    (∀ a b c : Handle, (compare a b).isLE → (compare b c).isLE → (compare a c).isLE) ∧
    (∀ a b : Handle, (compare a b).isLE ∨ (compare b a).isLE) ∧
    (∀ (a : Handle) (s : String), a.isText s = (a == ⟨s⟩) ∧
      (a.isText s = true ↔ compare a ⟨s⟩ = .eq)) ∧
    ∀ (hashOf : List UInt8 → UInt64) (names : List Handle),
      letI := hashableBy hashOf
      let (sorted, news) := addAll SortedSet.add .empty names
      let (hashed, news') := addAll addHashed (∅ : Std.HashSet Handle) names
      news = news' ∧ sorted.size = (names.map lowered).toFinset.card ∧ hashed.size = sorted.size ∧
        ∀ h, sorted.find? h = names.find? (· == h) ∧ hashed.get? h = names.find? (· == h) := by
  refine ⟨fun a b => ?_, hashedBytes_eq, fun _ _ => flatMap_hashedBytes_inj, compare_eq,
    fun a b le ge => ?_, fun _ _ _ => Std.TransCmp.isLE_trans, fun a b => ?_,
    fun a s => ⟨isText_eq a s, ?_⟩, fun hashOf names => ?_⟩
  · tfae_have 1 ↔ 2 := beq_iff_loweredBytes
    tfae_have 1 ↔ 3 := Std.LawfulBEqOrd.compare_eq_iff_beq.symm
    tfae_have 1 ↔ 4 := hashedBytes_inj.symm
    tfae_have 1 ↔ 5 := hashedBytes_isPrefix_iff.symm
    tfae_finish
  · rw [Std.OrientedOrd.eq_swap (a := b)] at ge
    rw [← Std.LawfulBEqOrd.compare_eq_iff_beq]
    cases order : compare a b <;> rw [order] at le ge <;> trivial
  · rw [Std.OrientedOrd.eq_swap (a := b)]
    cases compare a b <;> decide
  · rw [isText_eq, Std.LawfulBEqOrd.compare_eq_iff_beq]
  · have lawful := lawfulHashable hashOf
    let := hashableBy hashOf
    obtain ⟨news, final⟩ := SortedSet.InStep.empty.addAll names
    have found (h : Handle) : (addAll SortedSet.add .empty names).1.find? h =
        names.find? (· == h) := by
      rw [SortedSet.addAll_fst, ← SortedSet.ofList, SortedSet.find?_ofList, find?_compare]
    refine ⟨news, ?_, final.size.symm, fun h => ⟨found h, ?_⟩⟩
    · rw [SortedSet.addAll_fst]
      exact size_ofList names
    · rw [← final.find, found]

end Handle

end RegistryConsent
