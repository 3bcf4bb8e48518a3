import RegistryConsent.Bytes.Utf8

/-!
# The bytes of a text, character by character

The UTF-8 form of a text is made of the forms of its characters. A byte below 128 is the form of one
character and part of no other, so that bytes are cut at such a byte exactly where the text is cut
at its character. Texts are in the same order as their bytes.
-/

namespace RegistryConsent.Bytes

/-- A text is written character by character. -/
theorem ofText_ofList (cs : List Char) :
    ofText (.ofList cs) = cs.flatMap String.utf8EncodeChar := by
  simp [ofText, String.toUTF8_eq_toByteArray, List.utf8Encode]

/-- Only the empty text has no bytes. -/
theorem ofText_eq_nil_iff {s : String} : ofText s = [] ↔ s = "" :=
  ofText_inj (t := "")

/-- Every character is written. -/
theorem utf8EncodeChar_ne_nil (c : Char) : String.utf8EncodeChar c ≠ [] := by
  apply List.ne_nil_of_length_pos
  rw [String.length_utf8EncodeChar]
  exact c.utf8Size_pos

/-- An ASCII character is written as one byte. -/
theorem utf8EncodeChar_of_ascii {c : Char} (h : c.toNat < 128) :
    String.utf8EncodeChar c = [UInt8.ofNat c.toNat] := by
  have small : c.val.toNat ≤ 127 := Nat.le_of_lt_succ h
  simp only [String.utf8EncodeChar, small, ↓reduceIte]
  rfl

/-- The bytes of a character behind the ASCII ones carry marks that take them to 128 and above. -/
theorem le_of_mem_utf8EncodeChar {c : Char} (h : 128 ≤ c.toNat) {b : UInt8}
    (hb : b ∈ String.utf8EncodeChar c) : 128 ≤ b.toNat := by
  have large : ¬c.val.toNat ≤ 127 := Nat.not_le_of_lt h
  simp only [String.utf8EncodeChar, large, ↓reduceIte] at hb
  split at hb
  · simp only [List.mem_cons, List.not_mem_nil, or_false] at hb
    rcases hb with rfl | rfl <;> rw [UInt8.toNat_ofNat'] <;> omega
  · split at hb
    · simp only [List.mem_cons, List.not_mem_nil, or_false] at hb
      rcases hb with rfl | rfl | rfl <;> rw [UInt8.toNat_ofNat'] <;> omega
    · simp only [List.mem_cons, List.not_mem_nil, or_false] at hb
      rcases hb with rfl | rfl | rfl | rfl <;> rw [UInt8.toNat_ofNat'] <;> omega

/-- A byte below 128 is the whole form of an ASCII character. -/
theorem toNat_eq_of_mem_utf8EncodeChar {c : Char} {b : UInt8} (h : b ∈ String.utf8EncodeChar c)
    (small : b.toNat < 128) : c.toNat = b.toNat := by
  have ascii : c.toNat < 128 := by
    apply Nat.lt_of_not_le
    intro large
    exact absurd small (Nat.not_lt_of_le (le_of_mem_utf8EncodeChar large h))
  rw [utf8EncodeChar_of_ascii ascii] at h
  rw [List.mem_singleton.mp h, UInt8.toNat_ofNat']
  omega

/-- The byte of an ASCII character stands in the form of no other. -/
theorem eq_of_mem_utf8EncodeChar {mark c : Char} (ascii : mark.toNat < 128)
    (h : UInt8.ofNat mark.toNat ∈ String.utf8EncodeChar c) : c = mark := by
  have value : (UInt8.ofNat mark.toNat).toNat = mark.toNat := by
    rw [UInt8.toNat_ofNat']
    omega
  have same : c.toNat = (UInt8.ofNat mark.toNat).toNat := by
    apply toNat_eq_of_mem_utf8EncodeChar h
    rw [value]
    exact ascii
  exact Char.toNat_inj.mp (same.trans value)

/-- A text of ASCII characters has one byte for each of them. -/
theorem ofText_ofList_of_ascii {cs : List Char} (h : ∀ c ∈ cs, c.toNat < 128) :
    ofText (.ofList cs) = cs.map fun c => UInt8.ofNat c.toNat := by
  have single : ∀ c ∈ cs, String.utf8EncodeChar c = [UInt8.ofNat c.toNat] :=
    fun c hc => utf8EncodeChar_of_ascii (h c hc)
  rw [ofText_ofList, List.map_eq_flatMap, List.flatMap_def, List.flatMap_def,
    List.map_congr_left single]

/-- A text whose bytes are all below 128 is made of ASCII characters. -/
theorem ascii_of_ofText {cs : List Char} (h : ∀ b ∈ ofText (.ofList cs), b.toNat < 128) :
    ∀ c ∈ cs, c.toNat < 128 := by
  intro c hc
  obtain ⟨b, hb⟩ := List.exists_mem_of_ne_nil _ (utf8EncodeChar_ne_nil c)
  have small : b.toNat < 128 := h b (ofText_ofList cs ▸ List.mem_flatMap_of_mem hc hb)
  rw [toNat_eq_of_mem_utf8EncodeChar hb small]
  exact small

/-- Bytes are cut in front of those of an ASCII character, or at the end, exactly where the text is
cut in front of this character or at the end. -/
theorem cut_iff {mark : Char} (ascii : mark.toNat < 128) {cs : List Char}
    {front back : List UInt8} :
    (ofText (.ofList cs) = front ++ back ∧ ∀ b ∈ back.head?, b = UInt8.ofNat mark.toNat) ↔
      ∃ p q, cs = p ++ q ∧ (∀ c ∈ q.head?, c = mark) ∧ front = ofText (.ofList p) ∧
        back = ofText (.ofList q) := by
  simp only [ofText_ofList]
  constructor
  · rintro ⟨bytes, ends⟩
    induction cs generalizing front with
    | nil =>
      obtain ⟨rfl, rfl⟩ := List.append_eq_nil_iff.mp bytes.symm
      exact ⟨[], [], rfl, nofun, rfl, rfl⟩
    | cons c cs ih =>
      rw [List.flatMap_cons] at bytes
      rcases List.append_eq_append_iff.mp bytes with ⟨front', rfl, rest⟩ | ⟨part, whole, rfl⟩
      · obtain ⟨p, q, rfl, hq, rfl, rfl⟩ := ih rest
        exact ⟨c :: p, q, rfl, hq, rfl, rfl⟩
      · cases part with
        | nil =>
          obtain ⟨p, q, rfl, hq, hp, hback⟩ := @ih [] rfl
          refine ⟨c :: p, q, rfl, hq, ?_, hback⟩
          rw [List.flatMap_cons, ← hp, whole, List.append_nil, List.append_nil]
        | cons b part =>
          obtain rfl : b = UInt8.ofNat mark.toNat := ends b rfl
          obtain rfl : c = mark := eq_of_mem_utf8EncodeChar ascii (by simp [whole])
          rw [utf8EncodeChar_of_ascii ascii, List.singleton_eq_append_iff] at whole
          obtain ⟨rfl, rest⟩ : front = [] ∧ part = [] := by simpa using whole
          refine ⟨[], c :: cs, rfl, fun _ h => (Option.some.inj h).symm, rfl, ?_⟩
          rw [List.flatMap_cons, utf8EncodeChar_of_ascii ascii, rest]
  · rintro ⟨p, q, rfl, hq, rfl, rfl⟩
    refine ⟨List.flatMap_append, ?_⟩
    cases q with
    | nil => exact nofun
    | cons c q =>
      obtain rfl : c = mark := hq c rfl
      rw [List.flatMap_cons, utf8EncodeChar_of_ascii ascii]
      rintro _ ⟨⟩
      rfl

/-! ### The order of bytes -/

/-- The order of bytes is that of their numbers. -/
theorem compare_toNat (a b : UInt8) : compare a b = compare a.toNat b.toNat := by
  change compareOfLessAndEq a b = compareOfLessAndEq a.toNat b.toNat
  simp only [compareOfLessAndEq, UInt8.lt_iff_toNat_lt, UInt8.toNat_inj]

/-- The order of lists of bytes is that of the lists of their numbers. -/
theorem compare_map_toNat (xs ys : List UInt8) :
    compare xs ys = compare (xs.map UInt8.toNat) (ys.map UInt8.toNat) := by
  induction xs generalizing ys with
  | nil => cases ys <;> rfl
  | cons x xs ih =>
    cases ys with
    | nil => rfl
    | cons y ys =>
      rw [List.map_cons, List.map_cons, List.compare_cons_cons, List.compare_cons_cons,
        compare_toNat, ih]

/-- The order of characters is that of their code points. -/
theorem compare_codePoint (c d : Char) : compare c d = compare c.toNat d.toNat := by
  have lt : c < d ↔ c.toNat < d.toNat := Iff.rfl
  change compareOfLessAndEq c d = compareOfLessAndEq c.toNat d.toNat
  simp only [compareOfLessAndEq, lt, Char.toNat_inj]

/-- What lists have in common at their beginning does not matter to their order. -/
theorem compare_append_left (front xs ys : List UInt8) :
    compare (front ++ xs) (front ++ ys) = compare xs ys := by
  induction front with
  | nil => rfl
  | cons b front ih =>
    rw [List.cons_append, List.cons_append, List.compare_cons_cons, Std.ReflOrd.compare_self,
      Ordering.eq_then, ih]

/-- The numbers of the bytes of a code point: its digits to the base 64, each behind a mark, where
the first mark grows with the number of digits. -/
def marked (n : Nat) : List Nat :=
  if n ≤ 0x7f then [n]
  else if n ≤ 0x7ff then [n / 64 + 0xc0, n % 64 + 0x80]
  else if n ≤ 0xffff then [n / 64 / 64 + 0xe0, n / 64 % 64 + 0x80, n % 64 + 0x80]
  else [n / 64 / 64 / 64 + 0xf0, n / 64 / 64 % 64 + 0x80, n / 64 % 64 + 0x80, n % 64 + 0x80]

/-- A code point is below the bound of Unicode. -/
theorem codePoint_lt (c : Char) : c.toNat < 0x110000 := by
  rcases c.valid with h | h
  · exact Nat.lt_trans h (by decide)
  · exact h.2

/-- The bytes of a character are the marked groups of its number. -/
theorem map_toNat_utf8EncodeChar (c : Char) :
    (String.utf8EncodeChar c).map UInt8.toNat = marked c.toNat := by
  have bound : c.val.toNat < 0x110000 := codePoint_lt c
  change _ = marked c.val.toNat
  rw [String.utf8EncodeChar, marked]
  generalize c.val.toNat = n at bound
  simp only [apply_ite (List.map UInt8.toNat), List.map_cons, List.map_nil, UInt8.toNat_ofNat',
    Nat.div_div_eq_div_mul, Nat.reduceMul, Nat.reducePow]
  split
  · simp only [List.cons.injEq, and_true]
    omega
  · split
    · simp only [List.cons.injEq, and_true]
      omega
    · split
      · simp only [List.cons.injEq, and_true]
        omega
      · simp only [List.cons.injEq, and_true]
        omega

/-- The greatest bytes stand in no text. -/
theorem toNat_lt_of_mem_ofText {cs : List Char} {b : UInt8} (h : b ∈ ofText (.ofList cs)) :
    b.toNat < 0xf8 := by
  rw [ofText_ofList] at h
  obtain ⟨c, -, hb⟩ := List.mem_flatMap.mp h
  have number : b.toNat ∈ marked c.toNat := by
    rw [← map_toNat_utf8EncodeChar]
    exact List.mem_map_of_mem hb
  have bound := codePoint_lt c
  rw [marked] at number
  split at number
  · simp only [List.mem_singleton] at number
    omega
  · split at number
    · simp only [List.mem_cons, List.not_mem_nil, or_false] at number
      omega
    · split at number
      · simp only [List.mem_cons, List.not_mem_nil, or_false] at number
        omega
      · simp only [List.mem_cons, List.not_mem_nil, or_false] at number
        omega

/-- Greater code points have greater bytes, whatever follows these. -/
theorem compare_marked_of_lt {v w : Nat} (h : v < w) (xs ys : List Nat) :
    compare (marked v ++ xs) (marked w ++ ys) = .lt := by
  -- A longer form has a greater first byte, and among forms of one length the digits decide.
  simp only [marked]
  repeat' split
  all_goals
    simp only [List.cons_append, List.compare_cons_cons, Ordering.then_eq_lt, Nat.compare_eq_lt,
      Nat.compare_eq_eq]
    omega

/-- Greater characters have greater bytes, whatever follows these. -/
theorem compare_utf8EncodeChar_of_lt {c d : Char} (h : c < d) (xs ys : List UInt8) :
    compare (String.utf8EncodeChar c ++ xs) (String.utf8EncodeChar d ++ ys) = .lt := by
  rw [compare_map_toNat, List.map_append, List.map_append, map_toNat_utf8EncodeChar,
    map_toNat_utf8EncodeChar]
  exact compare_marked_of_lt h _ _

/-- Texts are in the order of their bytes. -/
theorem compare_ofText (cs ds : List Char) :
    compare (ofText (.ofList cs)) (ofText (.ofList ds)) = compare cs ds := by
  simp only [ofText_ofList]
  induction cs generalizing ds with
  | nil =>
    cases ds with
    | nil => rfl
    | cons d ds =>
      obtain ⟨b, bs, bytes⟩ := List.exists_cons_of_ne_nil (utf8EncodeChar_ne_nil d)
      rw [List.flatMap_cons, bytes]
      rfl
  | cons c cs ih =>
    cases ds with
    | nil =>
      obtain ⟨b, bs, bytes⟩ := List.exists_cons_of_ne_nil (utf8EncodeChar_ne_nil c)
      rw [List.flatMap_cons, bytes]
      rfl
    | cons d ds =>
      rw [List.flatMap_cons, List.flatMap_cons, List.compare_cons_cons]
      rcases Nat.lt_trichotomy c.toNat d.toNat with below | same | above
      · rw [compare_utf8EncodeChar_of_lt below, compare_codePoint, Nat.compare_eq_lt.mpr below]
        rfl
      · obtain rfl := Char.toNat_inj.mp same
        rw [compare_append_left, ih, Std.ReflOrd.compare_self, Ordering.eq_then]
      · rw [Std.OrientedOrd.eq_swap, compare_utf8EncodeChar_of_lt above, compare_codePoint,
          Nat.compare_eq_gt.mpr above]
        rfl

end RegistryConsent.Bytes
