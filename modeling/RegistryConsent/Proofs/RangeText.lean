import RegistryConsent.Network.Range
import RegistryConsent.Proofs.AddressText
import RegistryConsent.Proofs.Words

/-!
# Ranges are read from their texts

A range is read from an address, behind which a slash and a length may follow. The text of a range
is read back as the range, so that ranges with the same text are the same. Blanks at the ends of a
text do not matter, nor does a length that counts the whole address.
-/

namespace RegistryConsent.Range

open Text Address

/-- A range is its network and its length. -/
theorem ext {r s : Range} (network : r.network = s.network) (length : r.length = s.length) :
    r = s := by
  cases r
  cases s
  subst network length
  rfl

/-! ### Reading -/

/-- A length is read from its digits with any zeros and at most one plus sign in front. -/
theorem readLength?_eq_some_iff {cs : List Char} {n : Nat} :
    readLength? cs = some n ↔
      ∃ sign ∈ [[], ['+']], ∃ k, cs = sign ++ (List.replicate k '0' ++ Nat.toDigits 10 n) := by
  simp only [List.mem_cons, List.not_mem_nil, or_false, exists_eq_or_imp, exists_eq_left,
    List.nil_append, ← natOfDigits?_eq_some_iff_zeros, List.singleton_append]
  unfold readLength?
  split
  · next ds =>
    have unsigned : ¬natOfDigits? ('+' :: ds) = some n := fun read =>
      absurd ((natOfDigits?_eq_some_iff.mp read).2.1 '+' List.mem_cons_self) (by decide)
    simp [unsigned, natOfDigits?_eq_some_iff_zeros]
  · next unsigned =>
    have plain : ¬∃ k, cs = '+' :: (List.replicate k '0' ++ Nat.toDigits 10 n) := by
      rintro ⟨k, rfl⟩
      exact unsigned _ rfl
    simp [plain]

/-- A length is read from its digits. -/
theorem readLength?_toDigits (n : Nat) : readLength? (Nat.toDigits 10 n) = some n :=
  readLength?_eq_some_iff.mpr ⟨[], by simp, 0, rfl⟩

/-- There is no slash in an address. -/
theorem slash_not_mem {a : List Char} {x : Address} (h : parse? a = some x) : '/' ∉ a :=
  fun slash => (visible_of_isAddressChar (isAddressChar_of_parse? h '/' slash)).1 rfl

/-- An address is a word. -/
theorem isWord_address {a : List Char} {x : Address} (h : parse? a = some x) : IsWord a where
  nonempty := by
    rintro rfl
    have unread : parse? [] = none := by decide
    rw [unread] at h
    cases h
  visible c hc := (visible_of_isAddressChar (isAddressChar_of_parse? h c hc)).2

/-- A range is made of its network and its length. -/
theorem make?_eq_some_iff {x : Address} {n : Nat} {r : Range} :
    make? x n = some r ↔ x = r.network ∧ n = r.length := by
  rw [make?]
  split
  · next fits =>
    rw [Option.some.injEq]
    exact ⟨fun same => same ▸ ⟨rfl, rfl⟩, fun same => ext same.1 same.2⟩
  · next large =>
    refine ⟨nofun, ?_⟩
    rintro ⟨rfl, rfl⟩
    exact absurd r.length_le large

/-- A text without a slash is read as an address. -/
theorem parse_of_bare {s : String} (bare : '/' ∉ strip s.toList) :
    parse s =
      match parse? (strip s.toList) with
      | none => .error (.invalidAddress (.ofList (strip s.toList)))
      | some x => .ok (single x) := by
  have uncut := cut?_eq_none_iff.mpr bare
  cases address : parse? (strip s.toList) <;> simp only [parse, uncut, address]

/-- A text with a slash is read as an address and a length. -/
theorem parse_of_cut {s : String} {a ds : List Char} (split : strip s.toList = a ++ '/' :: ds)
    (apart : '/' ∉ a) :
    parse s =
      match parse? a with
      | none => .error (.invalidAddress (.ofList (a ++ '/' :: ds)))
      | some x =>
        match (readLength? ds).bind (make? x) with
        | some r => .ok r
        | none => .error (.invalidRange (.ofList (a ++ '/' :: ds))) := by
  have cut : cut? '/' (a ++ '/' :: ds) = some (a, ds) := cut?_eq_some_iff.mpr ⟨apart, rfl⟩
  cases address : parse? a with
  | none => simp only [parse, split, cut, address]
  | some x =>
    cases made : (readLength? ds).bind (make? x) <;>
      simp only [parse, split, cut, address, made]

/-- An address with a length behind it is read when the length fits. -/
theorem parse_of_length {s : String} {a ds : List Char} {x : Address} {n : Nat}
    (split : strip s.toList = a ++ '/' :: ds) (address : parse? a = some x)
    (length : readLength? ds = some n) :
    parse s = if fits : n ≤ x.family.width then .ok ⟨x, n, fits⟩
      else .error (.invalidRange (.ofList (a ++ '/' :: ds))) := by
  rw [parse_of_cut split (slash_not_mem address), address, length]
  by_cases fits : n ≤ x.family.width
  · simp [make?, fits]
  · simp [make?, fits]

/-- A range is read from an address alone, or from one with a slash and a length behind it. -/
theorem parse_eq_ok_iff {s : String} {r : Range} :
    parse s = .ok r ↔ ∃ a, parse? a = some r.network ∧
      (strip s.toList = a ∧ r.length = r.network.family.width ∨
        ∃ ds, strip s.toList = a ++ '/' :: ds ∧ readLength? ds = some r.length) := by
  constructor
  · intro read
    by_cases bare : '/' ∉ strip s.toList
    · rw [parse_of_bare bare] at read
      split at read
      · cases read
      · next address =>
        cases read
        exact ⟨_, address, .inl ⟨rfl, rfl⟩⟩
    · obtain ⟨⟨a, ds⟩, cut⟩ := Option.ne_none_iff_exists'.mp (mt cut?_eq_none_iff.mp bare)
      obtain ⟨apart, split⟩ := cut?_eq_some_iff.mp cut
      rw [parse_of_cut split apart] at read
      split at read
      · cases read
      · next address =>
        split at read
        · next made =>
          cases read
          obtain ⟨n, length, made⟩ := Option.bind_eq_some_iff.mp made
          obtain ⟨rfl, rfl⟩ := make?_eq_some_iff.mp made
          exact ⟨a, address, .inr ⟨ds, split, length⟩⟩
        · cases read
  · rintro ⟨a, address, ⟨rfl, whole⟩ | ⟨ds, split, length⟩⟩
    · rw [parse_of_bare (slash_not_mem address), address]
      exact congrArg Except.ok (ext rfl whole.symm)
    · rw [parse_of_length split address length, dif_pos r.length_le]

/-- Only what is left of a text when it is trimmed matters. -/
theorem parse_congr {s t : String} (same : strip s.toList = strip t.toList) :
    parse s = parse t := by
  simp only [parse, same]

/-- Blanks at the ends of a text do not matter. -/
theorem parse_ofList {before after cs : List Char} (hb : AllBlank before) (ha : AllBlank after) :
    parse (.ofList (before ++ cs ++ after)) = parse (.ofList cs) := by
  apply parse_congr
  rw [String.toList_ofList, String.toList_ofList, strip_append hb ha]

/-- An address alone is read as the range of the address. -/
theorem parse_address {a : List Char} {x : Address} (h : parse? a = some x) :
    parse (.ofList a) = .ok (single x) := by
  rw [parse_eq_ok_iff, String.toList_ofList, (isWord_address h).strip_eq_self]
  exact ⟨a, h, .inl ⟨rfl, rfl⟩⟩

/-- An address with the digits of a length behind it has no blanks to trim. -/
theorem strip_append_length {a : List Char} {x : Address} (h : parse? a = some x) (n : Nat) :
    strip (a ++ '/' :: Nat.toDigits 10 n) = a ++ '/' :: Nat.toDigits 10 n := by
  have word : IsWord (a ++ '/' :: Nat.toDigits 10 n) := by
    refine ⟨by simp, fun c hc => ?_⟩
    rw [List.mem_append, List.mem_cons] at hc
    rcases hc with address | rfl | digit
    · exact (isWord_address h).visible c address
    · rfl
    · exact (visible_of_isAddressChar (isAddressChar_of_isDigit (isDigit_toDigits n c digit))).2
  exact word.strip_eq_self

/-- An address is read with any length that fits its family. -/
theorem parse_append_length {a : List Char} {x : Address} (h : parse? a = some x) (n : Nat) :
    parse (.ofList (a ++ '/' :: Nat.toDigits 10 n)) =
      if fits : n ≤ x.family.width then .ok ⟨x, n, fits⟩
      else .error (.invalidRange (.ofList (a ++ '/' :: Nat.toDigits 10 n))) := by
  refine parse_of_length ?_ h (readLength?_toDigits n)
  rw [String.toList_ofList, strip_append_length h]

/-- The text of a range is read back. -/
theorem parse_text (r : Range) : parse r.text = .ok r := by
  rw [text, render, parse_append_length (parse?_render r.network), dif_pos r.length_le]

/-- A range is read from an address, or from an address with a length that fits its family behind a
slash, and from nothing else; the length may have zeros and a plus sign in front. The text of a
range is read back as the range, so ranges with the same text are the same. An address is read as
itself with and without its whole length, and blanks around a text do not matter. -/
theorem text_is_read_back :
    (∀ (s : String) (r : Range), parse s = .ok r ↔ ∃ a, parse? a = some r.network ∧
      (strip s.toList = a ∧ r.length = r.network.family.width ∨
        ∃ sign ∈ [[], ['+']], ∃ k, strip s.toList =
          a ++ '/' :: (sign ++ (List.replicate k '0' ++ Nat.toDigits 10 r.length)))) ∧
    (∀ (s : String) (r : Range), parse s = .ok r →
      r.length ≤ match r.network.family with | .v4 => 32 | .v6 => 128) ∧
    (∀ r : Range, parse r.text = .ok r) ∧
    (∀ r s : Range, r.text = s.text ↔ r = s) ∧
    (∀ (a : List Char) (x : Address), parse? a = some x →
      parse (.ofList a) = .ok (single x) ∧
      parse (.ofList (a ++ '/' :: Nat.toDigits 10 x.family.width)) = .ok (single x) ∧
      ∀ n, parse (.ofList (a ++ '/' :: Nat.toDigits 10 n)) =
        if fits : n ≤ x.family.width then .ok ⟨x, n, fits⟩
        else .error (.invalidRange (.ofList (a ++ '/' :: Nat.toDigits 10 n)))) ∧
    ∀ before cs after : List Char, AllBlank before → AllBlank after →
      parse (.ofList (before ++ cs ++ after)) = parse (.ofList cs) := by
  refine ⟨fun s r => ?_, fun s r _ => ?_, parse_text, fun r s => ?_, fun a x address => ?_,
    fun before cs after hb ha => parse_ofList hb ha⟩
  · have behind (a : List Char) :
        (∃ ds, strip s.toList = a ++ '/' :: ds ∧ readLength? ds = some r.length) ↔
          ∃ sign ∈ [[], ['+']], ∃ k, strip s.toList =
            a ++ '/' :: (sign ++ (List.replicate k '0' ++ Nat.toDigits 10 r.length)) := by
      simp only [readLength?_eq_some_iff]
      constructor
      · rintro ⟨_, split, sign, allowed, k, rfl⟩
        exact ⟨sign, allowed, k, split⟩
      · rintro ⟨sign, allowed, k, split⟩
        exact ⟨_, split, sign, allowed, k, rfl⟩
    simp only [parse_eq_ok_iff, behind]
  · have bound := r.length_le
    cases family : r.network.family <;> rw [family] at bound <;> exact bound
  · refine ⟨fun same => ?_, congrArg text⟩
    have read := parse_text r
    rw [same, parse_text s] at read
    exact (Except.ok.inj read).symm
  · have whole := parse_append_length address x.family.width
    rw [dif_pos (Nat.le_refl _)] at whole
    exact ⟨parse_address address, whole, parse_append_length address⟩

/-- The first of two runs of zeros is left out, and capitals, signs and zeros are not kept. -/
example : (parse " 2001:DB8:0:0:1:0:0:01/+064 ").map text = .ok "2001:db8::1:0:0:1/64" := by
  decide +kernel

end RegistryConsent.Range
