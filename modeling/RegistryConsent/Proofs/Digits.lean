import Mathlib.Data.List.Basic
import Mathlib.Data.List.Induction
import RegistryConsent.Text.Digits

/-!
# Numbers and their digits

The digits of a number are read back as the number, decimal ones and hexadecimal ones. Decimal
digits stand for a number exactly when they are the digits of the number behind any zeros.
-/

namespace RegistryConsent.Text

/-! ### Decimal digits -/

/-- Digits are read as the number that they continue. -/
theorem readDigits_eq_some_iff {n m : Nat} {cs : List Char} :
    readDigits n cs = some m ↔ (∀ c ∈ cs, c.isDigit = true) ∧ m = Nat.ofDigitChars 10 cs n := by
  induction cs generalizing n with
  | nil =>
    rw [readDigits, Option.some.injEq, Nat.ofDigitChars_nil, eq_comm]
    simp
  | cons c cs ih =>
    rw [readDigits, List.forall_mem_cons, Nat.ofDigitChars_cons]
    split
    · next digit => rw [ih]; simp [digit]
    · next other => simp [other]

/-- A number is read from digits, of which there must be one. -/
theorem natOfDigits?_eq_some_iff {m : Nat} {cs : List Char} :
    natOfDigits? cs = some m ↔
      cs ≠ [] ∧ (∀ c ∈ cs, c.isDigit = true) ∧ m = Nat.ofDigitChars 10 cs 0 := by
  rw [natOfDigits?, ← readDigits_eq_some_iff]
  cases cs <;> simp

/-- A number is written with digits. -/
theorem isDigit_toDigits (n : Nat) : ∀ c ∈ Nat.toDigits 10 n, c.isDigit = true :=
  fun _ hc => Nat.isDigit_of_mem_toDigits (by decide) (by decide) hc

/-- A number is read from its digits. -/
@[simp] theorem natOfDigits?_toDigits (n : Nat) : natOfDigits? (Nat.toDigits 10 n) = some n :=
  natOfDigits?_eq_some_iff.mpr
    ⟨Nat.toDigits_ne_nil, isDigit_toDigits n, Nat.ofDigitChars_ten_toDigits.symm⟩

/-- Only zero is written with a zero in front. -/
theorem eq_zero_of_head?_toDigits {n : Nat} (h : (Nat.toDigits 10 n).head? = some '0') : n = 0 := by
  induction n using Nat.strongRecOn with
  | ind n ih =>
    rw [Nat.toDigits_eq_if (by decide)] at h
    split at h
    · next small =>
      have table : ∀ v < 10, Nat.digitChar v = '0' → v = 0 := by decide
      exact table n small (Option.some.inj h)
    · next large =>
      rw [List.head?_append_of_ne_nil _ Nat.toDigits_ne_nil] at h
      have zero := ih (n / 10) (by omega) h
      omega

/-- A digit is that of a number below ten. -/
theorem exists_digitChar {c : Char} (digit : c.isDigit = true) :
    ∃ v < 10, c = Nat.digitChar v := by
  obtain ⟨least, most⟩ := Char.isDigit_iff_toNat.mp digit
  have range : 48 ≤ c.toNat ∧ c.toNat ≤ 57 := ⟨least, most⟩
  refine ⟨c.toNat - 48, by omega, Char.toNat_inj.mp ?_⟩
  rw [Nat.toNat_digitChar_of_lt_ten (by omega)]
  omega

/-- Digits are those of the number that they stand for, behind some zeros. -/
theorem exists_zeros {cs : List Char} (some : cs ≠ []) (digits : ∀ c ∈ cs, c.isDigit = true) :
    ∃ k, cs = List.replicate k '0' ++ Nat.toDigits 10 (Nat.ofDigitChars 10 cs 0) := by
  -- From the end, where the digits of a number go on.
  induction cs using List.reverseRecOn with
  | nil => exact absurd rfl some
  | append_singleton cs c ih =>
    obtain ⟨v, hv, rfl⟩ := exists_digitChar (digits c (by simp))
    rw [Nat.ofDigitChars_append, Nat.ofDigitChars_cons_digitChar_of_lt_ten hv, Nat.ofDigitChars_nil]
    by_cases first : cs = []
    · rw [first]
      refine ⟨0, ?_⟩
      rw [Nat.ofDigitChars_nil, Nat.mul_zero, Nat.zero_add, Nat.toDigits_of_lt_base hv]
      rfl
    · obtain ⟨k, former⟩ := ih first fun d hd => digits d (List.mem_append_left _ hd)
      generalize Nat.ofDigitChars 10 cs 0 = m at former ⊢
      rw [former]
      rcases Nat.eq_zero_or_pos m with rfl | pos
      · refine ⟨k + 1, ?_⟩
        rw [Nat.toDigits_zero, Nat.mul_zero, Nat.zero_add, Nat.toDigits_of_lt_base hv,
          List.replicate_succ']
      · refine ⟨k, ?_⟩
        rw [← Nat.toDigits_append_toDigits (by decide) pos hv, Nat.toDigits_of_lt_base hv,
          List.append_assoc]

/-- A number is read from its digits with any zeros in front, and from nothing else. -/
theorem natOfDigits?_eq_some_iff_zeros {m : Nat} {cs : List Char} :
    natOfDigits? cs = some m ↔ ∃ k, cs = List.replicate k '0' ++ Nat.toDigits 10 m := by
  rw [natOfDigits?_eq_some_iff]
  constructor
  · rintro ⟨some, digits, rfl⟩
    exact exists_zeros some digits
  · rintro ⟨k, rfl⟩
    refine ⟨by simp, fun c hc => ?_, ?_⟩
    · rcases List.mem_append.mp hc with zero | digit
      · rw [List.eq_of_mem_replicate zero]
        rfl
      · exact isDigit_toDigits m c digit
    · rw [Nat.ofDigitChars_append, Nat.ofDigitChars_replicate_zero, Nat.mul_zero,
        Nat.ofDigitChars_ten_toDigits]

/-! ### Hexadecimal digits -/

private theorem hexValue?_digitChar : ∀ v < 16, hexValue? (Nat.digitChar v) = some v := by decide

private theorem readHex_append (n : Nat) (cs : List Char) (c : Char) :
    readHex n (cs ++ [c]) = (readHex n cs).bind fun m => (hexValue? c).map (16 * m + ·) := by
  induction cs generalizing n with
  | nil => cases hc : hexValue? c <;> simp [readHex, hc]
  | cons d cs ih =>
    rw [List.cons_append, readHex, readHex]
    cases hexValue? d with
    | none => rfl
    | some v => exact ih (16 * n + v)

private theorem readHex_toDigits (n : Nat) : readHex 0 (Nat.toDigits 16 n) = some n := by
  induction n using Nat.strongRecOn with
  | ind n ih =>
    rw [Nat.toDigits_eq_if (by decide)]
    split
    · next small => simp [readHex, hexValue?_digitChar n small]
    · next large =>
      rw [readHex_append, ih (n / 16) (by omega),
        hexValue?_digitChar (n % 16) (Nat.mod_lt n (by decide))]
      exact congrArg some (Nat.div_add_mod n 16)

/-- A number is read from its hexadecimal digits. -/
@[simp] theorem natOfHex?_toDigits (n : Nat) : natOfHex? (Nat.toDigits 16 n) = some n := by
  rw [natOfHex?, if_neg (by simp), readHex_toDigits]

/-- Hexadecimal numbers are read from hexadecimal digits only. -/
theorem isSome_hexValue?_of_readHex {n m : Nat} {cs : List Char} (h : readHex n cs = some m) :
    ∀ c ∈ cs, (hexValue? c).isSome = true := by
  induction cs generalizing n with
  | nil => exact List.forall_mem_nil _
  | cons c cs ih =>
    obtain ⟨v, hv, rest⟩ := Option.bind_eq_some_iff.mp h
    exact List.forall_mem_cons.mpr ⟨by rw [hv]; rfl, ih rest⟩

/-- Every hexadecimal digit of a number has a value. -/
theorem isSome_hexValue?_toDigits (n : Nat) :
    ∀ c ∈ Nat.toDigits 16 n, (hexValue? c).isSome = true :=
  isSome_hexValue?_of_readHex (readHex_toDigits n)

end RegistryConsent.Text
