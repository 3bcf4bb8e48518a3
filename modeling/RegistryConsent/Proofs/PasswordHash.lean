import RegistryConsent.Proofs.Hex
import RegistryConsent.Proofs.Words
import RegistryConsent.Strategy.Maintainers

/-!
# Password hashes in text

A text is read as a hash exactly when it is the text of the hash up to case and blanks at its ends,
so that an `auth` line made from a password accepts exactly the passwords of the same digest, and
this password among them.
-/

namespace RegistryConsent

/-- A hexadecimal digit is neither blank nor the mark between the parts of a hash. -/
private theorem digit_visible : ∀ n < 16,
    Text.isBlank (Nat.digitChar n) = false ∧ Nat.digitChar n ≠ '$' := by decide

/-- The mark between the parts of a hash is no letter. -/
private theorem toLower_eq_mark_iff (c : Char) : c.toLower = '$' ↔ c = '$' :=
  Text.toLower_eq_iff (by decide) c

/-- There is no blank among the digits of some bytes. -/
theorem Hex.visible_encodeChars (bytes : List UInt8) :
    ∀ c ∈ encodeChars bytes, Text.isBlank c = false := by
  intro c hc
  obtain ⟨n, hn, rfl⟩ := mem_encodeChars hc
  exact (digit_visible n hn).1

namespace PasswordHash

/-- The characters of a hash. -/
theorem toList_text (h : PasswordHash) :
    h.text.toList =
      '$' :: Hex.encodeChars h.salt.toList ++ '$' :: Hex.encodeChars h.digest.toList := by
  simp [text, Hex.encode, String.toList_append]

/-- The text of a hash is a word. -/
theorem isWord_text (h : PasswordHash) : Text.IsWord h.text.toList := by
  rw [toList_text]
  refine ⟨List.cons_ne_nil _ _, fun c hc => ?_⟩
  rw [List.mem_append, List.mem_cons, List.mem_cons] at hc
  rcases hc with (rfl | hc) | (rfl | hc)
  · rfl
  · exact Hex.visible_encodeChars _ c hc
  · rfl
  · exact Hex.visible_encodeChars _ c hc

/-- The text of a hash is in lower case. -/
theorem foldCase_text (h : PasswordHash) : foldCase h.text = h.text.toList := by
  rw [foldCase, toList_text, List.map_append, List.map_cons, List.map_cons,
    Hex.map_toLower_encodeChars, Hex.map_toLower_encodeChars]
  rfl

/-- Up to case, the text of a hash is made of the digits of its two parts behind a mark each. -/
theorem map_toLower_eq_text_iff {cs : List Char} {h : PasswordHash} :
    cs.map Char.toLower = h.text.toList ↔ ∃ salt digest, cs = '$' :: salt ++ '$' :: digest ∧
      salt.map Char.toLower = Hex.encodeChars h.salt.toList ∧
      digest.map Char.toLower = Hex.encodeChars h.digest.toList := by
  rw [toList_text]
  constructor
  · intro folded
    obtain ⟨front, back, whole, hfront, hback⟩ := List.map_eq_append_iff.mp folded
    obtain ⟨mark, salt, rfl, hmark, hsalt⟩ := List.map_eq_cons_iff.mp hfront
    obtain ⟨mark', digest, rfl, hmark', hdigest⟩ := List.map_eq_cons_iff.mp hback
    obtain rfl := (toLower_eq_mark_iff mark).mp hmark
    obtain rfl := (toLower_eq_mark_iff mark').mp hmark'
    exact ⟨salt, digest, whole, hsalt, hdigest⟩
  · rintro ⟨salt, digest, rfl, hsalt, hdigest⟩
    rw [List.map_append, List.map_cons, List.map_cons, hsalt, hdigest]
    rfl

/-- A text is read as a hash when it is the text of the hash up to case and blanks at its ends. -/
theorem parse_eq_ok_iff {s : String} {h : PasswordHash} :
    parse s = .ok h ↔ (Text.strip s.toList).map Char.toLower = h.text.toList := by
  rw [parse, map_toLower_eq_text_iff]
  constructor
  · intro read
    split at read
    · next salt digest parts =>
      split at read
      · next salt' digest' hsalt hdigest =>
        cases read
        rw [Hex.decodeVector_eq_ok_iff, foldCase_ofList] at hsalt hdigest
        refine ⟨salt, digest, ?_, hsalt, hdigest⟩
        have joined : ['$'].intercalate ((Text.strip s.toList).splitOn '$') =
            Text.strip s.toList := List.intercalate_splitOn '$'
        rw [← joined, parts]
        simp [List.intercalate, List.intersperse]
      · cases read
    · cases read
  · rintro ⟨salt, digest, whole, hsalt, hdigest⟩
    have unmarked {part : List Char} {bytes : List UInt8}
        (digits : part.map Char.toLower = Hex.encodeChars bytes) : '$' ∉ part := by
      intro hmem
      obtain ⟨n, hn, same⟩ := Hex.mem_encodeChars (digits ▸ List.mem_map_of_mem hmem)
      exact (digit_visible n hn).2 same.symm
    have parts : (Text.strip s.toList).splitOn '$' = [[], salt, digest] := by
      rw [whole]
      change ([] ++ '$' :: (salt ++ '$' :: digest)).splitOn '$' = _
      rw [List.splitOn_append_cons_self_of_not_mem List.not_mem_nil,
        List.splitOn_append_cons_self_of_not_mem (unmarked hsalt),
        List.splitOn_eq_singleton (unmarked hdigest)]
    have readSalt : Hex.decodeVector 16 (.ofList salt) = .ok h.salt := by
      rw [Hex.decodeVector_eq_ok_iff, foldCase_ofList, hsalt]
    have readDigest : Hex.decodeVector 32 (.ofList digest) = .ok h.digest := by
      rw [Hex.decodeVector_eq_ok_iff, foldCase_ofList, hdigest]
    rw [parts]
    simp only [readSalt, readDigest]

/-- The text of a hash is read back as the hash. -/
theorem parse_text (h : PasswordHash) : parse h.text = .ok h := by
  rw [parse_eq_ok_iff, h.isWord_text.strip_eq_self]
  exact h.foldCase_text

end PasswordHash

/-- The name of the scheme of password hashes is a word. -/
theorem isWord_passwordScheme : Text.IsWord passwordScheme.spelling.toList :=
  Text.isWord_of_all (by decide) (by decide)

/-- The line of a password is the name of its scheme and the text of its hash. -/
theorem words_passwordLine (password : String) (salt : Vector UInt8 16) :
    Text.words (passwordLine password salt).toList =
      [passwordScheme.spelling.toList, (PasswordHash.ofPassword password salt).text.toList] := by
  rw [Text.words_eq_pair_iff]
  refine ⟨isWord_passwordScheme, PasswordHash.isWord_text _, [], [' '], [], ?_,
    List.cons_ne_nil _ _, List.forall_mem_nil _, List.forall_mem_singleton.mpr rfl,
    List.forall_mem_nil _⟩
  simp [passwordLine, String.toList_append]

/-- The line of a password accepts the updates that come with a password of the same digest. -/
theorem Update.matchesLine_passwordLine (u : Update) (password : String)
    (salt : Vector UInt8 16) :
    u.matchesLine (passwordLine password salt) = true ↔
      ∃ p ∈ u.credentials.passwords,
        PasswordHash.digestOf salt password = PasswordHash.digestOf salt p := by
  have scheme : ((⟨passwordScheme.spelling⟩ : Handle) == passwordScheme) = true :=
    BEq.refl passwordScheme
  rw [matchesLine, words_passwordLine]
  simp only [scheme, ↓reduceIte, String.ofList_toList, matchesPassword, PasswordHash.parse_text,
    List.any_eq_true, PasswordHash.verifies, PasswordHash.ofPassword, beq_iff_eq]

end RegistryConsent
