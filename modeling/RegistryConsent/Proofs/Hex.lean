import RegistryConsent.Bytes.Hex
import RegistryConsent.Proofs.FoldedCase
import RegistryConsent.Proofs.Results
import RegistryConsent.Proofs.Utf8

/-!
# Hexadecimal text is read back

The digits of some bytes are plain characters of one byte each. Reading a text gives some bytes
exactly when the text is made of their digits, in either case; it is so made for some bytes when it
has two digits for each of them.
-/

namespace RegistryConsent

namespace Hex

/-- A digit is written as itself, its value being below sixteen, but for its case. -/
private theorem digit_table : ∀ n < 128, ∀ v ∈ Text.hexValue? (Char.ofNat n),
    v < 16 ∧ (Char.ofNat n).toLower = Nat.digitChar v := by decide +kernel

/-- A digit has the value that it was written for, in either case. -/
private theorem value_table : ∀ n < 128, ∀ v < 16,
    (Char.ofNat n).toLower = Nat.digitChar v → Text.hexValue? (Char.ofNat n) = some v := by
  decide +kernel

/-- A digit is an ASCII character. -/
theorem toNat_digitChar_lt : ∀ n < 16, (Nat.digitChar n).toNat < 128 := by decide

/-- Only ASCII characters are digits. -/
theorem toNat_lt_of_hexValue? {c : Char} {v : Nat} (h : Text.hexValue? c = some v) :
    c.toNat < 128 := by
  have bound {top : Char} (small : top.toNat < 128) (le : c ≤ top) : c.toNat < 128 :=
    Nat.lt_of_le_of_lt le small
  unfold Text.hexValue? at h
  split at h
  · next digit =>
    rw [Char.isDigit, Bool.and_eq_true, decide_eq_true_eq, decide_eq_true_eq] at digit
    exact bound (by decide) digit.2
  · split at h
    · next letter => exact bound (by decide) letter.2
    · split at h
      · next letter => exact bound (by decide) letter.2
      · cases h

/-- A character has the value of a digit when it is this digit in either case. -/
theorem hexValue?_eq_some_iff {c : Char} {v : Nat} :
    Text.hexValue? c = some v ↔ v < 16 ∧ c.toLower = Nat.digitChar v := by
  constructor
  · intro h
    exact Text.of_ascii (P := fun c => ∀ v ∈ Text.hexValue? c, v < 16 ∧ c.toLower = Nat.digitChar v)
      digit_table (toNat_lt_of_hexValue? h) v h
  · rintro ⟨hv, h⟩
    have ascii : c.toNat < 128 := by
      rw [← Text.toNat_toLower_lt_iff, h]
      exact toNat_digitChar_lt v hv
    exact Text.of_ascii
      (P := fun c => ∀ v < 16, c.toLower = Nat.digitChar v → Text.hexValue? c = some v)
      value_table ascii v hv h

/-- A digit is read at any position. -/
theorem digitAt_eq_ok_iff {position : Nat} {c : Char} {v : Nat} :
    digitAt position c = .ok v ↔ v < 16 ∧ c.toLower = Nat.digitChar v := by
  rw [digitAt, ← hexValue?_eq_some_iff]
  cases Text.hexValue? c with
  | none => exact ⟨nofun, nofun⟩
  | some w => rw [Except.ok.injEq, Option.some.injEq]

/-- The digits of a byte are digits of numbers below sixteen. -/
theorem mem_encodeChars {bytes : List UInt8} {c : Char} (h : c ∈ encodeChars bytes) :
    ∃ n < 16, c = Nat.digitChar n := by
  obtain ⟨b, -, hc⟩ := List.mem_flatMap.mp h
  have bound : b.toNat < 256 := b.toNat_lt
  simp only [encodeByte, List.mem_cons, List.not_mem_nil, or_false] at hc
  rcases hc with rfl | rfl
  · exact ⟨b.toNat / 16, by omega, rfl⟩
  · exact ⟨b.toNat % 16, by omega, rfl⟩

/-- The digits of some bytes are small letters. -/
theorem map_toLower_encodeChars (bytes : List UInt8) :
    (encodeChars bytes).map Char.toLower = encodeChars bytes := by
  have small : ∀ n < 16, (Nat.digitChar n).toLower = Nat.digitChar n := by decide
  refine (List.map_congr_left fun c hc => ?_).trans (List.map_id _)
  obtain ⟨n, hn, rfl⟩ := mem_encodeChars hc
  exact small n hn

/-- A byte has two digits. -/
theorem length_encodeChars (bytes : List UInt8) :
    (encodeChars bytes).length = 2 * bytes.length := by
  induction bytes with
  | nil => rfl
  | cons b bytes ih =>
    rw [encodeChars, List.flatMap_cons, List.length_append, ← encodeChars, ih]
    simp only [encodeByte, List.length_cons, List.length_nil]
    omega

/-- The bytes of an ASCII text stand for its characters. -/
theorem byteChars_of_ascii {s : String} (h : ∀ c ∈ s.toList, c.toNat < 128) :
    byteChars s = s.toList := by
  rw [byteChars, ← String.ofList_toList (s := s), Bytes.ofText_ofList_of_ascii h, List.map_map,
    String.toList_ofList]
  refine (List.map_congr_left fun c hc => ?_).trans (List.map_id _)
  have small : c.toNat < 256 := Nat.lt_trans (h c hc) (by decide)
  simp only [Function.comp_apply, UInt8.toNat_ofNat', Nat.mod_eq_of_lt small, Char.ofNat_toNat, id]

/-- Only texts of ASCII characters have bytes that all stand for ASCII characters. -/
theorem ascii_of_byteChars {s : String} (h : ∀ c ∈ byteChars s, c.toNat < 128) :
    ∀ c ∈ s.toList, c.toNat < 128 := by
  apply Bytes.ascii_of_ofText
  intro b hb
  rw [String.ofList_toList] at hb
  have value : ∀ n < 256, (Char.ofNat n).toNat = n := by decide +kernel
  have small := h _ (List.mem_map_of_mem hb)
  rwa [value _ b.toNat_lt] at small

/-- A text that is made of digits up to case is made of ASCII characters. -/
theorem ascii_of_map_toLower {cs : List Char} {bytes : List UInt8}
    (h : cs.map Char.toLower = encodeChars bytes) : ∀ c ∈ cs, c.toNat < 128 := by
  intro c hc
  obtain ⟨n, hn, digit⟩ := mem_encodeChars (h ▸ List.mem_map_of_mem hc)
  rw [← Text.toNat_toLower_lt_iff, digit]
  exact toNat_digitChar_lt n hn

/-- The bytes of a text stand for digits exactly when its characters are these digits. -/
theorem map_toLower_byteChars_iff {s : String} {bytes : List UInt8} :
    (byteChars s).map Char.toLower = encodeChars bytes ↔ foldCase s = encodeChars bytes := by
  constructor
  · intro h
    rw [foldCase, ← byteChars_of_ascii (ascii_of_byteChars (ascii_of_map_toLower h)), h]
  · intro h
    rw [byteChars_of_ascii (ascii_of_map_toLower h)]
    exact h

/-- A pair of digits in front is read as the byte that has these digits. -/
theorem decodePairs_pair_eq_ok_iff {position : Nat} {a b : Char} {rest : List Char}
    {bytes : List UInt8} :
    decodePairs position (a :: b :: rest) = .ok bytes ↔
      ∃ byte tail, a.toLower = Nat.digitChar (byte.toNat / 16) ∧
        b.toLower = Nat.digitChar (byte.toNat % 16) ∧
        decodePairs (position + 2) rest = .ok tail ∧ byte :: tail = bytes := by
  rw [decodePairs]
  constructor
  · intro h
    obtain ⟨high, hhigh, h⟩ := bind_eq_ok_iff.mp h
    obtain ⟨low, hlow, h⟩ := bind_eq_ok_iff.mp h
    obtain ⟨tail, htail, h⟩ := bind_eq_ok_iff.mp h
    obtain ⟨highBound, high⟩ := digitAt_eq_ok_iff.mp hhigh
    obtain ⟨lowBound, low⟩ := digitAt_eq_ok_iff.mp hlow
    refine ⟨_, tail, ?_, ?_, htail, Except.ok.inj h⟩
    · rw [high, UInt8.toNat_ofNat']
      congr 1
      omega
    · rw [low, UInt8.toNat_ofNat']
      congr 1
      omega
  · rintro ⟨byte, tail, high, low, htail, rfl⟩
    have bound : byte.toNat < 256 := byte.toNat_lt
    have readHigh : digitAt position a = .ok (byte.toNat / 16) :=
      digitAt_eq_ok_iff.mpr ⟨by omega, high⟩
    have readLow : digitAt (position + 1) b = .ok (byte.toNat % 16) :=
      digitAt_eq_ok_iff.mpr ⟨by omega, low⟩
    have joined : byte.toNat / 16 * 16 + byte.toNat % 16 = byte.toNat := by omega
    rw [readHigh, readLow, htail]
    change Except.ok (UInt8.ofNat (byte.toNat / 16 * 16 + byte.toNat % 16) :: tail) = _
    rw [joined, UInt8.ofNat_toNat]

/-- Pairs of digits are read as the bytes that have these digits, in either case. -/
theorem decodePairs_eq_ok_iff {position : Nat} {cs : List Char} {bytes : List UInt8} :
    decodePairs position cs = .ok bytes ↔ cs.map Char.toLower = encodeChars bytes := by
  induction bytes generalizing position cs with
  | nil =>
    rw [encodeChars, List.flatMap_nil, List.map_eq_nil_iff]
    match cs with
    | [] => exact iff_of_true rfl rfl
    | [_] => exact iff_of_false nofun nofun
    | a :: b :: rest =>
      refine iff_of_false (fun h => ?_) nofun
      obtain ⟨byte, tail, -, -, -, h⟩ := decodePairs_pair_eq_ok_iff.mp h
      cases h
  | cons byte bytes ih =>
    change _ ↔ _ = Nat.digitChar (byte.toNat / 16) :: Nat.digitChar (byte.toNat % 16) ::
      encodeChars bytes
    match cs with
    | [] => exact iff_of_false nofun nofun
    | [_] => exact iff_of_false nofun (by simp)
    | a :: b :: rest =>
      rw [decodePairs_pair_eq_ok_iff, List.map_cons, List.map_cons, List.cons.injEq,
        List.cons.injEq, ← @ih (position + 2)]
      constructor
      · rintro ⟨_, _, high, low, htail, same⟩
        obtain ⟨rfl, rfl⟩ := List.cons.inj same
        exact ⟨high, low, htail⟩
      · rintro ⟨high, low, htail⟩
        exact ⟨byte, bytes, high, low, htail, rfl⟩

/-- A text is read as some bytes when it is made of their digits, in either case. -/
theorem decode_eq_ok_iff {s : String} {bytes : List UInt8} :
    decode s = .ok bytes ↔ foldCase s = encodeChars bytes := by
  rw [decode, ← map_toLower_byteChars_iff]
  split
  · next odd =>
    refine ⟨nofun, fun h => ?_⟩
    have even := congrArg List.length h
    rw [List.length_map, length_encodeChars] at even
    omega
  · exact decodePairs_eq_ok_iff

/-- A text is read as a fixed number of bytes when it is made of their digits, in either case. -/
theorem decodeVector_eq_ok_iff {n : Nat} {s : String} {bytes : Vector UInt8 n} :
    decodeVector n s = .ok bytes ↔ foldCase s = encodeChars bytes.toList := by
  rw [decodeVector, bind_eq_ok_iff, ← decode_eq_ok_iff]
  constructor
  · rintro ⟨read, hread, h⟩
    split at h
    · cases h
      exact hread
    · cases h
  · intro h
    have size : bytes.toList.toArray.size = n := by simp
    exact ⟨bytes.toList, h, dif_pos size⟩

/-- A hexadecimal digit in either case. -/
def IsDigit (c : Char) : Prop :=
  ('0' ≤ c ∧ c ≤ '9') ∨ ('a' ≤ c ∧ c ≤ 'f') ∨ ('A' ≤ c ∧ c ≤ 'F')

/-- Whether a character is a digit is found by comparisons. -/
instance : DecidablePred IsDigit := fun _ => inferInstanceAs (Decidable (_ ∨ _ ∨ _))

/-- The digits are the characters that have a value. -/
theorem isDigit_iff {c : Char} : IsDigit c ↔ ∃ v < 16, c.toLower = Nat.digitChar v := by
  have decimal : c.isDigit = true ↔ '0' ≤ c ∧ c ≤ '9' := by
    rw [Char.isDigit, Bool.and_eq_true, decide_eq_true_eq, decide_eq_true_eq]
    exact Iff.rfl
  have valued : IsDigit c ↔ ∃ v, Text.hexValue? c = some v := by
    simp only [IsDigit, Text.hexValue?, decimal]
    by_cases digit : '0' ≤ c ∧ c ≤ '9'
    · simp [digit]
    · by_cases small : 'a' ≤ c ∧ c ≤ 'f'
      · simp [digit, small]
      · by_cases capital : 'A' ≤ c ∧ c ≤ 'F'
        · simp [digit, small, capital]
        · simp only [digit, small, capital, or_self, if_false, reduceCtorEq, exists_false]
  simp only [valued, hexValue?_eq_some_iff]

/-- A text stands for a number of bytes when it has two digits for each. -/
theorem exists_encodeChars_iff {n : Nat} {cs : List Char} :
    (∃ bytes : Vector UInt8 n, cs.map Char.toLower = encodeChars bytes.toList) ↔
      cs.length = 2 * n ∧ ∀ c ∈ cs, IsDigit c := by
  constructor
  · rintro ⟨bytes, digits⟩
    have length := congrArg List.length digits
    rw [List.length_map, length_encodeChars, Vector.length_toList] at length
    refine ⟨length, fun c hc => isDigit_iff.mpr ?_⟩
    obtain ⟨v, hv, digit⟩ := mem_encodeChars (digits ▸ List.mem_map_of_mem hc)
    exact ⟨v, hv, digit⟩
  · rintro ⟨length, digits⟩
    suffices found : ∃ bytes : List UInt8, bytes.length = n ∧
        cs.map Char.toLower = encodeChars bytes by
      obtain ⟨bytes, size, same⟩ := found
      exact ⟨⟨bytes.toArray, by simpa using size⟩, same⟩
    induction n generalizing cs with
    | zero => exact ⟨[], rfl, by rw [List.eq_nil_of_length_eq_zero length]; rfl⟩
    | succ n ih =>
      obtain ⟨a, b, rest, rfl⟩ : ∃ a b rest, cs = a :: b :: rest := by
        match cs, length with
        | a :: b :: rest, _ => exact ⟨a, b, rest, rfl⟩
      simp only [List.forall_mem_cons] at digits
      obtain ⟨ha, hb, hrest⟩ := digits
      obtain ⟨high, highBound, ha⟩ := isDigit_iff.mp ha
      obtain ⟨low, lowBound, hb⟩ := isDigit_iff.mp hb
      obtain ⟨bytes, size, same⟩ := ih (by simp only [List.length_cons] at length; omega) hrest
      refine ⟨.ofNat (high * 16 + low) :: bytes, congrArg (· + 1) size, ?_⟩
      have value : (UInt8.ofNat (high * 16 + low)).toNat = high * 16 + low := by
        rw [UInt8.toNat_ofNat', Nat.mod_eq_of_lt (by omega)]
      have front : (high * 16 + low) / 16 = high := by omega
      have back : (high * 16 + low) % 16 = low := by omega
      rw [List.map_cons, List.map_cons, ha, hb, same, encodeChars, encodeChars, List.flatMap_cons,
        encodeByte, value, front, back]
      rfl

end Hex

end RegistryConsent
