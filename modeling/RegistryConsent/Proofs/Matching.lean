import Mathlib.Data.List.Nodup
import RegistryConsent.Strategy.Maintainers

/-!
# What matches an `auth` line

A line is matched when it names the scheme of passwords and the hash of a submitted password, or the
scheme of keys and a key that signed the text of the submitted record.
-/

namespace RegistryConsent

/-- What is picked from a list is what one of its elements was made of. -/
theorem mem_filterMap_iff_of_pick {α β : Type} {pick : α → Option β} (make : β → α)
    (h : ∀ x y, pick x = some y ↔ x = make y) (xs : List α) (y : β) :
    y ∈ xs.filterMap pick ↔ make y ∈ xs := by
  simp only [List.mem_filterMap, h, exists_eq_right]

namespace CredentialSet

/-- The passwords are those among the credentials. -/
theorem mem_passwords_iff (s : CredentialSet) (p : String) :
    p ∈ s.passwords ↔ .password p ∈ s.toList := by
  refine mem_filterMap_iff_of_pick .password (fun c _ => ?_) s.toList p
  cases c <;> simp

/-- The override values are those among the credentials. -/
theorem mem_overrides_iff (s : CredentialSet) (v : OverrideValue) :
    v ∈ s.overrides ↔ .override v ∈ s.toList := by
  refine mem_filterMap_iff_of_pick .override (fun c _ => ?_) s.toList v
  cases c <;> simp

/-- The signed texts are those among the credentials. -/
theorem mem_signedTexts_iff (s : CredentialSet) (t : SignedText) :
    t ∈ s.signedTexts ↔ .signed t ∈ s.toList := by
  refine mem_filterMap_iff_of_pick .signed (fun c _ => ?_) s.toList t
  cases c <;> simp

/-- No password is there twice. -/
theorem nodup_passwords (s : CredentialSet) : s.passwords.Nodup := by
  refine List.Nodup.filterMap (fun c d p hc hd => ?_) s.nodup
  rw [Option.mem_def] at hc hd
  split at hc <;> cases hc
  split at hd <;> cases hd
  rfl

/-- Adding a credential brings this one in and keeps the others. -/
theorem mem_add_iff (s : CredentialSet) (c d : Credential) :
    d ∈ (s.add c).1.toList ↔ d ∈ s.toList ∨ d = c := by
  rw [add]
  split
  · next known =>
    refine ⟨.inl, ?_⟩
    rintro (there | rfl)
    · exact there
    · exact known
  · rw [List.mem_append, List.mem_singleton]

end CredentialSet

/-- The scheme of keys is not that of passwords. -/
theorem beq_passwordScheme_of_beq_keyScheme {scheme : Handle} (key : (scheme == keyScheme) = true) :
    (scheme == passwordScheme) = false := by
  rw [BEq.congr_left key]
  rfl

namespace Update

variable (u : Update)

/-- A hash matches when a submitted password has it. -/
theorem matchesPassword_eq_true_iff (value : String) :
    u.matchesPassword value = true ↔ ∃ hash, PasswordHash.parse value = .ok hash ∧
      ∃ p ∈ u.credentials.passwords, hash.verifies p = true := by
  rw [matchesPassword]
  cases PasswordHash.parse value with
  | error e => exact ⟨nofun, nofun⟩
  | ok hash => simp

/-- A key matches when it made a signed text that covers the record. -/
theorem matchesKey_eq_true_iff (value : String) :
    u.matchesKey value = true ↔ ∃ key, PublicKey.ofHex value = .ok key ∧
      ∃ s ∈ u.credentials.signedTexts, s.covers u.record.text = true ∧ s.isBy key = true := by
  rw [matchesKey]
  cases PublicKey.ofHex value with
  | error e => exact ⟨nofun, nofun⟩
  | ok key => simp

/-- A line matches when it is made of one of the two schemes and a value that matches. -/
theorem matchesLine_eq_true_iff (line : String) :
    u.matchesLine line = true ↔ ∃ scheme value, Text.words line.toList = [scheme, value] ∧
      (((⟨.ofList scheme⟩ : Handle) == passwordScheme) = true ∧
          u.matchesPassword (.ofList value) = true ∨
        ((⟨.ofList scheme⟩ : Handle) == keyScheme) = true ∧
          u.matchesKey (.ofList value) = true) := by
  rw [matchesLine]
  constructor
  · intro matched
    split at matched
    · next scheme value words =>
      refine ⟨scheme, value, words, ?_⟩
      by_cases password : ((⟨.ofList scheme⟩ : Handle) == passwordScheme) = true
      · rw [if_pos password] at matched
        exact .inl ⟨password, matched⟩
      · by_cases key : ((⟨.ofList scheme⟩ : Handle) == keyScheme) = true
        · rw [if_neg password, if_pos key] at matched
          exact .inr ⟨key, matched⟩
        · rw [if_neg password, if_neg key] at matched
          cases matched
    · cases matched
  · rintro ⟨scheme, value, words, ⟨password, matched⟩ | ⟨key, matched⟩⟩
    · simp only [words, password, if_true, matched]
    · simp only [words, beq_passwordScheme_of_beq_keyScheme key, key, Bool.false_eq_true, if_false,
        if_true, matched]

/-- A maintainer vouches when one of its `auth` lines matches. -/
theorem vouchesFor_eq_true_iff (maintainer : Record) :
    maintainer.vouchesFor u = true ↔
      ∃ line ∈ maintainer.values Record.auth, u.matchesLine line = true := by
  rw [Record.vouchesFor, List.any_eq_true]

/-- Without a signed text that covers the record no key matches. -/
theorem matchesKey_of_uncovered {u : Update}
    (h : ∀ s ∈ u.credentials.signedTexts, s.covers u.record.text = false) (value : String) :
    u.matchesKey value = false := by
  rw [Bool.eq_false_iff, ne_eq, matchesKey_eq_true_iff]
  rintro ⟨-, -, s, hs, covers, -⟩
  rw [h s hs] at covers
  cases covers

end Update

end RegistryConsent
