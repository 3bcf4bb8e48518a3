import Mathlib.Data.List.Count
import RegistryConsent.Proofs.AuthLines
import RegistryConsent.Proofs.Stores

/-!
# The text form of a hash

A text stands for a hash when, between blanks, it is made of two marks with the digits of the salt
behind the first and those of the digest behind the second. Every other text has one of a few
faults and is refused as a whole. What is read is written again in small letters, so that neither a
row of users nor an `auth` line changes which passwords a hash accepts.
-/

namespace RegistryConsent

namespace PasswordHash

/-- The form of a hash: the digits of sixteen bytes and those of thirty-two, each part behind a
mark. -/
def IsForm (cs : List Char) : Prop :=
  ∃ salt digest, cs = '$' :: salt ++ '$' :: digest ∧
    (salt.length = 2 * 16 ∧ ∀ c ∈ salt, Hex.IsDigit c) ∧
    digest.length = 2 * 32 ∧ ∀ c ∈ digest, Hex.IsDigit c

/-- The faults of a text that is not of this form. -/
inductive Malformed (cs : List Char) : Prop where
  | unmarked (front : cs.head? ≠ some '$')
  /-- There are more parts than two, or fewer. -/
  | parts (count : cs.count '$' ≠ 2)
  /-- A part is too short or too long; it may have an odd number of characters. -/
  | length {salt digest : List Char} (split : cs = '$' :: salt ++ '$' :: digest)
      (wrong : salt.length ≠ 2 * 16 ∨ digest.length ≠ 2 * 32)
  /-- A character of a part is no digit; it may be a letter outside ASCII. -/
  | character {salt digest : List Char} (split : cs = '$' :: salt ++ '$' :: digest)
      {c : Char} (hc : c ∈ salt ∨ c ∈ digest) (foreign : ¬Hex.IsDigit c)

/-- The mark between the parts is no digit. -/
theorem not_isDigit_mark : ¬Hex.IsDigit '$' := by decide

/-- Two marks show where the parts are. -/
theorem parts_unique {salt digest salt' digest' : List Char}
    (count : ('$' :: salt ++ '$' :: digest).count '$' = 2)
    (same : '$' :: salt ++ '$' :: digest = '$' :: salt' ++ '$' :: digest') :
    salt = salt' ∧ digest = digest' := by
  have unmarked {s d : List Char} (count : ('$' :: s ++ '$' :: d).count '$' = 2) : '$' ∉ s := by
    simp only [List.cons_append, List.count_cons_self, List.count_append] at count
    rw [← List.count_eq_zero]
    omega
  have tail : salt ++ '$' :: digest = salt' ++ '$' :: digest' := List.tail_eq_of_cons_eq same
  have cut : Text.cut? '$' (salt ++ '$' :: digest) = some (salt, digest) :=
    Text.cut?_eq_some_iff.mpr ⟨unmarked count, rfl⟩
  have cut' : Text.cut? '$' (salt ++ '$' :: digest) = some (salt', digest') :=
    Text.cut?_eq_some_iff.mpr ⟨unmarked (same ▸ count), tail⟩
  rw [cut, Option.some.injEq, Prod.mk.injEq] at cut'
  exact cut'

/-- There are two marks in a form. -/
theorem IsForm.count_mark {cs : List Char} (form : IsForm cs) : cs.count '$' = 2 := by
  obtain ⟨salt, digest, rfl, ⟨-, hsalt⟩, -, hdigest⟩ := form
  have none {part : List Char} (digits : ∀ c ∈ part, Hex.IsDigit c) : part.count '$' = 0 :=
    List.count_eq_zero.mpr fun hmem => not_isDigit_mark (digits _ hmem)
  simp [none hsalt, none hdigest]

/-- A text has one of the faults exactly when it is not of the form. -/
theorem malformed_iff {cs : List Char} : Malformed cs ↔ ¬IsForm cs := by
  constructor
  · intro fault form
    have count := form.count_mark
    obtain ⟨salt, digest, rfl, ⟨hsalt, saltDigits⟩, hdigest, digestDigits⟩ := form
    cases fault with
    | unmarked front => exact front rfl
    | parts other => exact other count
    | length split wrong =>
      obtain ⟨rfl, rfl⟩ := parts_unique count split
      exact wrong.elim (· hsalt) (· hdigest)
    | character split hc foreign =>
      obtain ⟨rfl, rfl⟩ := parts_unique count split
      exact foreign (hc.elim (saltDigits _) (digestDigits _))
  · intro form
    by_contra faultless
    apply form
    have front : cs.head? = some '$' := by_contra fun front => faultless (.unmarked front)
    have count : cs.count '$' = 2 := by_contra fun count => faultless (.parts count)
    obtain ⟨rest, rfl⟩ := List.head?_eq_some_iff.mp front
    have again : '$' ∈ rest := by
      rw [List.count_cons_self] at count
      apply List.count_pos_iff.mp
      omega
    obtain ⟨salt, digest, rfl⟩ := List.append_of_mem again
    have digits (c : Char) (hc : c ∈ salt ∨ c ∈ digest) : Hex.IsDigit c :=
      by_contra fun foreign => faultless (.character rfl hc foreign)
    refine ⟨salt, digest, rfl, ⟨?_, fun c hc => digits c (.inl hc)⟩, ?_,
      fun c hc => digits c (.inr hc)⟩
    · exact by_contra fun wrong => faultless (.length rfl (.inl wrong))
    · exact by_contra fun wrong => faultless (.length rfl (.inr wrong))

/-- A text is read as some hash when it is of the form between its blanks. -/
theorem exists_parse_iff {s : String} :
    (∃ h, parse s = .ok h) ↔ IsForm (Text.strip s.toList) := by
  simp only [parse_eq_ok_iff, map_toLower_eq_text_iff]
  constructor
  · rintro ⟨h, salt, digest, whole, hsalt, hdigest⟩
    exact ⟨salt, digest, whole, Hex.exists_encodeChars_iff.mp ⟨h.salt, hsalt⟩,
      Hex.exists_encodeChars_iff.mp ⟨h.digest, hdigest⟩⟩
  · rintro ⟨salt, digest, whole, hsalt, hdigest⟩
    obtain ⟨saltBytes, hsalt⟩ := Hex.exists_encodeChars_iff.mpr hsalt
    obtain ⟨digestBytes, hdigest⟩ := Hex.exists_encodeChars_iff.mpr hdigest
    exact ⟨⟨saltBytes, digestBytes⟩, salt, digest, whole, hsalt, hdigest⟩

/-- The only error is that the text, blanks included, is no hash. -/
theorem eq_of_parse_eq_error {s : String} {e : InputError} (h : parse s = .error e) :
    e = .invalidPasswordHash s := by
  rw [parse] at h
  split at h
  · split at h
    · cases h
    · exact (Except.error.inj h).symm
  · exact (Except.error.inj h).symm

/-- A text is refused when it has one of the faults between its blanks. -/
theorem parse_eq_error_iff {s : String} {e : InputError} :
    parse s = .error e ↔ e = .invalidPasswordHash s ∧ Malformed (Text.strip s.toList) := by
  rw [malformed_iff, ← exists_parse_iff]
  constructor
  · intro refused
    refine ⟨eq_of_parse_eq_error refused, ?_⟩
    rintro ⟨h, read⟩
    rw [refused] at read
    cases read
  · rintro ⟨rfl, unread⟩
    cases result : parse s with
    | ok h => exact absurd ⟨h, result⟩ unread
    | error e => rw [eq_of_parse_eq_error result]

/-- A line that spells the scheme of passwords and a hash is matched by the passwords that the hash
accepts. -/
theorem matchesLine_of_spells {h : PasswordHash} {line : String}
    (spelled : Spells line passwordScheme.spelling h.text) (u : Update) :
    u.matchesLine line = true ↔ ∃ p ∈ u.credentials.passwords, h.verifies p = true := by
  obtain ⟨scheme, value, words, named, value'⟩ :=
    (spells_iff isWord_passwordScheme h.isWord_text).mp spelled
  obtain ⟨-, word, -⟩ := Text.words_eq_pair_iff.mp words
  have read : parse (.ofList value) = .ok h := (parse_word_eq_ok_iff word).mpr value'
  have scheme : ((⟨.ofList scheme⟩ : Handle) == passwordScheme) = true :=
    Handle.ofList_beq_iff.mpr named
  rw [Update.matchesLine, words]
  simp only [scheme, if_true, Update.matchesPassword, read, List.any_eq_true]

end PasswordHash

namespace Database

/-- A user who was put into a table of users is found there. -/
theorem getUser_putUser {db : Database} (table : db.users ≠ none) (u : User) :
    ∃ db', db.putUser u = .ok db' ∧ db'.getUser u.username = .ok u := by
  obtain ⟨rows, users⟩ := Option.ne_none_iff_exists'.mp table
  refine ⟨{ db with users := some (putRow UserRow.primaryKey (userRow u) rows) }, ?_, ?_⟩
  · simp only [putUser, putUserRow?, users, Option.map_some]
  · have own : ((userRow u).primaryKey == u.username) = true := beq_self_eq_true u.username
    simp only [getUser, find?_putRow, own, if_true, userOfRow_userRow]

end Database

/-- The text of a hash is read as this hash. A text is read exactly when it is of the form of a hash
between its blanks, and what is read is written as this text in small letters. Every other text has
one of the faults and is refused as a whole, with the blanks at its ends. So the hash of a user who
was put into a database, and the hash that an `auth` line spells, accept the same passwords as
before. -/
theorem PasswordHash.text_is_codec :
    (∀ h : PasswordHash, parse h.text = .ok h) ∧
    (∀ s, (∃ h, parse s = .ok h) ↔ IsForm (Text.trim s).toList) ∧
    (∀ s h, parse s = .ok h → h.text.toList = foldCase (Text.trim s)) ∧
    (∀ s e, parse s = .error e ↔
      e = .invalidPasswordHash s ∧ Malformed (Text.trim s).toList) ∧
    (∀ db : Database, db.users ≠ none → ∀ u : User, ∃ db' found, db.putUser u = .ok db' ∧
      db'.getUser u.username = .ok found ∧
      ∀ p, found.password.verifies p = u.password.verifies p) ∧
    ∀ (h : PasswordHash) (line : String), Spells line passwordScheme.spelling h.text →
      ∀ u : Update, u.matchesLine line = true ↔
        ∃ p ∈ u.credentials.passwords, h.verifies p = true := by
  have trimmed (s : String) : (Text.trim s).toList = Text.strip s.toList := String.toList_ofList
  refine ⟨parse_text, fun s => ?_, fun s h read => ?_, fun s e => ?_, fun db table u => ?_,
    fun h line => matchesLine_of_spells⟩
  · rw [trimmed]
    exact exists_parse_iff
  · rw [foldCase, trimmed]
    exact (parse_eq_ok_iff.mp read).symm
  · rw [trimmed]
    exact parse_eq_error_iff
  · obtain ⟨db', put, found⟩ := Database.getUser_putUser table u
    exact ⟨db', u, put, found, fun _ => rfl⟩

/-- A hash that only has zeros and tens for digits. -/
private def plainHash : PasswordHash := ⟨.replicate 16 0, .replicate 32 0xaa⟩

/-- The text of this hash in capitals and between blanks. -/
private def capitals : List Char :=
  '\u00a0' :: '$' :: List.replicate 32 '0' ++ '$' :: List.replicate 64 'A' ++ ['\n']

/-- The hash of a password. -/
private def secretHash : PasswordHash := .ofPassword "secret" (.replicate 16 7)

/-- An update that comes with this password. -/
private def withSecret : Update :=
  (Update.start ⟨1⟩ .modify { objectType := .person, key := ⟨"JD1-TEST"⟩ }).withCredential
    (.password "secret")

/-- A hash in capitals is read and written in small letters. A letter outside ASCII makes a text no
hash, and so does a third part. The hash of a password accepts it in a row and in a line. -/
theorem PasswordHash.capitals_read :
    parse (.ofList capitals) = .ok plainHash ∧
    plainHash.text.toList = foldCase (Text.trim (.ofList capitals)) ∧
    parse " $00$é0" = .error (.invalidPasswordHash " $00$é0") ∧
    parse "$00$00$00" = .error (.invalidPasswordHash "$00$00$00") ∧
    (∃ db' found, (Database.mk (some [1]) (some []) (some [])).putUser
        ⟨"clerk", secretHash, .single .person⟩ = .ok db' ∧ db'.getUser "clerk" = .ok found ∧
      found.password.verifies "secret" = true) ∧
    Spells (passwordLine "secret" (.replicate 16 7)) passwordScheme.spelling secretHash.text ∧
    withSecret.matchesLine (passwordLine "secret" (.replicate 16 7)) = true := by
  obtain ⟨-, -, written, refused, stored, line⟩ := text_is_codec
  have read : parse (.ofList capitals) = .ok plainHash := by
    apply parse_eq_ok_iff.mpr
    rewrite [toList_text, String.toList_ofList]
    decide +kernel
  have accepted : secretHash.verifies "secret" = true := beq_self_eq_true _
  have spelled := spells_passwordLine "secret" (.replicate 16 7)
  obtain ⟨db', found, put, got, same⟩ :=
    stored ⟨some [1], some [], some []⟩ nofun ⟨"clerk", secretHash, .single .person⟩
  refine ⟨read, written _ _ read, (refused _ _).mpr ⟨rfl, ?_⟩, (refused _ _).mpr ⟨rfl, ?_⟩,
    ⟨db', found, put, got, (same "secret").trans accepted⟩, spelled, ?_⟩
  · exact @Malformed.character _ ['0', '0'] ['é', '0'] rfl 'é' (.inr (.head _)) (by decide)
  · exact .parts (by decide)
  · exact (line secretHash _ spelled withSecret).mpr ⟨"secret", .head _, accepted⟩

end RegistryConsent
