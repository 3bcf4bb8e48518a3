import RegistryConsent.Proofs.Matching
import RegistryConsent.Proofs.PasswordHash

/-!
# Which credentials match an `auth` line

A line stands for a hash when it spells the scheme of passwords and the text of the hash, and for a
key when it spells the scheme of keys and the digits of the key: in any case, and with any blanks
around the two words. A maintainer vouches for an update exactly when one of the credentials
matches one of the lines, so that an issued line accepts the proof that it was issued for, whatever
other lines and credentials there are.
-/

namespace RegistryConsent

/-- A line that holds two words and nothing else, which are a scheme and a value up to case. -/
def Spells (line scheme value : String) : Prop :=
  ∃ s v, Text.SpacedPair s v line.toList ∧ s.map Char.toLower = foldCase scheme ∧
    v.map Char.toLower = foldCase value

/-- What matches a line when the text of a record is to be vouched for. -/
inductive Credential.Matches (r : Record) (line : String) : Credential → Prop where
  /-- A password whose digest under the salt of the line is the digest of the line. -/
  | password (hash : PasswordHash) (p : String)
      (spelled : Spells line passwordScheme.spelling hash.text)
      (digest : PasswordHash.digestOf hash.salt p = hash.digest) : Matches r line (.password p)
  /-- A signature over exactly the text of the record that is valid under the key of the line. -/
  | signed (key : PublicKey) (s : SignedText) (spelled : Spells line keyScheme.spelling key.hex)
      (content : s.content = Bytes.ofText r.text)
      (accepted : key.accepts s.content s.signature = true) : Matches r line (.signed s)

/-- The name of the scheme of keys is a word. -/
theorem isWord_keyScheme : Text.IsWord keyScheme.spelling.toList :=
  Text.isWord_of_all (by decide) (by decide)

namespace PublicKey

/-- The digits of a key are a word. -/
theorem isWord_hex (key : PublicKey) : Text.IsWord key.hex.toList := by
  rw [hex, Hex.encode, String.toList_ofList]
  refine ⟨List.ne_nil_of_length_pos ?_, Hex.visible_encodeChars _⟩
  rw [Hex.length_encodeChars, Vector.length_toList]
  decide

/-- A text is read as a key when it is made of the digits of the key up to case. -/
theorem ofHex_eq_ok_iff {s : String} {key : PublicKey} :
    ofHex s = .ok key ↔ foldCase s = foldCase key.hex := by
  have digits : foldCase key.hex = Hex.encodeChars key.bytes.toList := by
    rw [hex, Hex.encode, foldCase_ofList, Hex.map_toLower_encodeChars]
  rw [digits, ← Hex.decodeVector_eq_ok_iff, ofHex, bind_eq_ok_iff]
  constructor
  · rintro ⟨bytes, read, same⟩
    cases same
    exact read
  · exact fun read => ⟨key.bytes, read, rfl⟩

end PublicKey

/-- A word is read as a hash when it is the text of the hash up to case. -/
theorem PasswordHash.parse_word_eq_ok_iff {w : List Char} (word : Text.IsWord w)
    {h : PasswordHash} : parse (.ofList w) = .ok h ↔ w.map Char.toLower = foldCase h.text := by
  rw [parse_eq_ok_iff, String.toList_ofList, word.strip_eq_self, foldCase_text]

/-- A line spells a scheme and a value when these are its words up to case. -/
theorem spells_iff {line scheme value : String} (hs : Text.IsWord scheme.toList)
    (hv : Text.IsWord value.toList) :
    Spells line scheme value ↔ ∃ s v, Text.words line.toList = [s, v] ∧
      s.map Char.toLower = foldCase scheme ∧ v.map Char.toLower = foldCase value := by
  have folded {w : List Char} {text : String} (word : Text.IsWord text.toList)
      (same : w.map Char.toLower = foldCase text) : Text.IsWord w := by
    rw [← Text.isWord_map_toLower_iff, same]
    exact Text.isWord_map_toLower_iff.mpr word
  constructor
  · rintro ⟨s, v, spaced, scheme, value⟩
    exact ⟨s, v, Text.words_eq_pair_iff.mpr ⟨folded hs scheme, folded hv value, spaced⟩, scheme,
      value⟩
  · rintro ⟨s, v, words, scheme, value⟩
    obtain ⟨-, -, spaced⟩ := Text.words_eq_pair_iff.mp words
    exact ⟨s, v, spaced, scheme, value⟩

/-- The line of a password spells its scheme and its hash. -/
theorem spells_passwordLine (password : String) (salt : Vector UInt8 16) :
    Spells (passwordLine password salt) passwordScheme.spelling
      (PasswordHash.ofPassword password salt).text :=
  (spells_iff isWord_passwordScheme (PasswordHash.isWord_text _)).mpr
    ⟨_, _, words_passwordLine password salt, rfl, rfl⟩

/-- The line of a key spells its scheme and its digits. -/
theorem spells_keyLine (key : PublicKey) :
    Spells (keyLine key) keyScheme.spelling key.hex := by
  refine ⟨keyScheme.spelling.toList, key.hex.toList, ⟨[], [' '], [], ?_, List.cons_ne_nil _ _,
    List.forall_mem_nil _, List.forall_mem_singleton.mpr rfl, List.forall_mem_nil _⟩, rfl, rfl⟩
  simp [keyLine, String.toList_append]

namespace Update

/-- A line is matched when one of the credentials matches it. -/
theorem matchesLine_iff_exists_matches (u : Update) (line : String) :
    u.matchesLine line = true ↔ ∃ c ∈ u.credentials.toList, c.Matches u.record line := by
  rw [matchesLine_eq_true_iff]
  constructor
  · rintro ⟨scheme, value, words, matched⟩
    obtain ⟨-, word, spaced⟩ := Text.words_eq_pair_iff.mp words
    rcases matched with ⟨named, matched⟩ | ⟨named, matched⟩
    · obtain ⟨hash, read, p, hp, verified⟩ := (u.matchesPassword_eq_true_iff _).mp matched
      rw [PasswordHash.parse_word_eq_ok_iff word] at read
      refine ⟨.password p, (u.credentials.mem_passwords_iff p).mp hp, ?_⟩
      have spelled : Spells line passwordScheme.spelling hash.text :=
        ⟨scheme, value, spaced, Handle.ofList_beq_iff.mp named, read⟩
      exact .password hash p spelled (beq_iff_eq.mp verified).symm
    · obtain ⟨key, read, s, hs, covers, isBy⟩ := (u.matchesKey_eq_true_iff _).mp matched
      rw [PublicKey.ofHex_eq_ok_iff, foldCase_ofList] at read
      refine ⟨.signed s, (u.credentials.mem_signedTexts_iff s).mp hs, ?_⟩
      have spelled : Spells line keyScheme.spelling key.hex :=
        ⟨scheme, value, spaced, Handle.ofList_beq_iff.mp named, read⟩
      exact .signed key s spelled (beq_iff_eq.mp covers) isBy
  · rintro ⟨c, hc, matching⟩
    cases matching with
    | password hash p spelled digest =>
      obtain ⟨s, v, words, named, value⟩ :=
        (spells_iff isWord_passwordScheme hash.isWord_text).mp spelled
      obtain ⟨-, word, -⟩ := Text.words_eq_pair_iff.mp words
      refine ⟨s, v, words, .inl ⟨Handle.ofList_beq_iff.mpr named, ?_⟩⟩
      rw [matchesPassword_eq_true_iff]
      exact ⟨hash, (PasswordHash.parse_word_eq_ok_iff word).mpr value, p,
        (u.credentials.mem_passwords_iff p).mpr hc, beq_iff_eq.mpr digest.symm⟩
    | signed key t spelled content accepted =>
      obtain ⟨s, v, words, named, value⟩ := (spells_iff isWord_keyScheme key.isWord_hex).mp spelled
      refine ⟨s, v, words, .inr ⟨Handle.ofList_beq_iff.mpr named, ?_⟩⟩
      rw [matchesKey_eq_true_iff]
      have read : PublicKey.ofHex (.ofList v) = .ok key :=
        PublicKey.ofHex_eq_ok_iff.mpr ((foldCase_ofList v).trans value)
      exact ⟨key, read, t, (u.credentials.mem_signedTexts_iff t).mpr hc, beq_iff_eq.mpr content,
        accepted⟩

end Update

/-- A maintainer vouches for an update when one of the credentials matches one of its lines. -/
theorem Record.vouchesFor_iff_exists_matches (maintainer : Record) (u : Update) :
    maintainer.vouchesFor u = true ↔ ∃ line ∈ maintainer.values Record.auth,
      ∃ c ∈ u.credentials.toList, c.Matches u.record line := by
  simp only [Update.vouchesFor_eq_true_iff, Update.matchesLine_iff_exists_matches]

/-- The lines that are issued for a password and for a key, in any case and with any blanks, make
each maintainer that has them vouch for the updates that come with the password, or with a signature
over exactly the text of their record where the signature is valid under its own key. A maintainer
vouches for an update in no other way than by one line and one credential, which are enough for any
maintainer with this line and any update of the record with this credential. -/
theorem issued_lines_vouch :
    ((∀ password salt, Spells (passwordLine password salt) passwordScheme.spelling
        (PasswordHash.ofPassword password salt).text) ∧
      ∀ key, Spells (keyLine key) keyScheme.spelling key.hex) ∧
    (∀ (maintainer : Record) (u : Update), ∀ line ∈ maintainer.values Record.auth,
      (∀ password salt, Spells line passwordScheme.spelling
          (PasswordHash.ofPassword password salt).text →
        .password password ∈ u.credentials.toList → maintainer.vouchesFor u = true) ∧
      ∀ seed, Spells line keyScheme.spelling (Ed25519.publicKey seed).hex →
        (Ed25519.publicKey seed).accepts (Bytes.ofText u.record.text)
          (Ed25519.sign seed (Bytes.ofText u.record.text)) = true →
        .signed (.ofSeed seed (Bytes.ofText u.record.text)) ∈ u.credentials.toList →
        maintainer.vouchesFor u = true) ∧
    ∀ (maintainer : Record) (u : Update), maintainer.vouchesFor u = true →
      ∃ line ∈ maintainer.values Record.auth, ∃ c ∈ u.credentials.toList,
        c.Matches u.record line ∧ ∀ (other : Record) (v : Update), line ∈ other.values Record.auth →
          v.record = u.record → c ∈ v.credentials.toList → other.vouchesFor v = true := by
  refine ⟨⟨spells_passwordLine, spells_keyLine⟩, fun maintainer u line hline => ⟨?_, ?_⟩, ?_⟩
  · intro password salt spelled hpassword
    rw [Record.vouchesFor_iff_exists_matches]
    exact ⟨line, hline, _, hpassword, .password _ password spelled rfl⟩
  · intro seed spelled accepted hsigned
    rw [Record.vouchesFor_iff_exists_matches]
    exact ⟨line, hline, _, hsigned, .signed _ _ spelled rfl accepted⟩
  · intro maintainer u vouches
    obtain ⟨line, hline, c, hc, matching⟩ :=
      (maintainer.vouchesFor_iff_exists_matches u).mp vouches
    refine ⟨line, hline, c, hc, matching, fun other v hline' same hc' => ?_⟩
    rw [Record.vouchesFor_iff_exists_matches, same]
    exact ⟨line, hline', c, hc', matching⟩

/-- The hash of the password `secret` in capitals. -/
private def respelledHash : String :=
  "$00000000000000000000000000000000$" ++
    "EA8B5FFF7A30254CCA765DB6FD15E8001AAAA8C7FA07819CBA69414526F4518D"

/-- The line of the password in other cases and with other blanks. -/
private def respelledLine : String := "\tblake3-pw\u00a0 " ++ respelledHash ++ "\u2003"

/-- A seed. -/
private def someSeed : Vector UInt8 32 := .replicate 32 7

/-- A maintainer with a line of no scheme, one of a password and one of a key. -/
private def issuer : Record :=
  { objectType := .mntner, key := ⟨"OWNER-MNT"⟩
    attributes := [⟨⟨"auth"⟩, "MD5-PW $1$abc$def"⟩, ⟨⟨"AUTH"⟩, respelledLine⟩,
      ⟨⟨"auth"⟩, keyLine (Ed25519.publicKey someSeed)⟩] }

/-- An update of a person without proof. -/
private def unproved : Update := .start ⟨1⟩ .modify { objectType := .person, key := ⟨"JD1-TEST"⟩ }

/-- The update with two passwords. -/
private def withPasswords : Update :=
  (unproved.withCredential (.password "wrong")).withCredential (.password "secret")

/-- The text of the person, signed. -/
private def signedPerson : SignedText := .ofSeed someSeed (Bytes.ofText unproved.record.text)

/-- Either proof makes the maintainer vouch, and the second of the two passwords alone does. -/
theorem vouches_by_either_line :
    issuer.vouchesFor withPasswords = true ∧
      issuer.vouchesFor (unproved.withCredential (.signed signedPerson)) = true ∧
      ∃ line ∈ issuer.values Record.auth, ∃ c ∈ withPasswords.credentials.toList,
        c.Matches unproved.record line := by
  have auth : issuer.values Record.auth =
      ["MD5-PW $1$abc$def", respelledLine, keyLine (Ed25519.publicKey someSeed)] := by rfl
  have spelled : Spells respelledLine passwordScheme.spelling
      (PasswordHash.ofPassword "secret" (.replicate 16 0)).text := by
    refine ⟨"blake3-pw".toList, respelledHash.toList, ⟨['\t'], ['\u00a0', ' '], ['\u2003'],
      by decide +kernel, List.cons_ne_nil _ _, List.all_eq_true.mp rfl, List.all_eq_true.mp rfl,
      List.all_eq_true.mp rfl⟩, by decide +kernel, by decide +kernel⟩
  have own : (Ed25519.publicKey someSeed).accepts (Bytes.ofText unproved.record.text)
      (Ed25519.sign someSeed (Bytes.ofText unproved.record.text)) = true := by decide +kernel
  obtain ⟨⟨-, issued⟩, vouch, sole⟩ := issued_lines_vouch
  have first : issuer.vouchesFor withPasswords = true := by
    refine (vouch issuer withPasswords respelledLine ?_).1 "secret" _ spelled (by decide)
    rw [auth]
    exact .tail _ (.head _)
  refine ⟨first, ?_, ?_⟩
  · refine (vouch issuer _ (keyLine (Ed25519.publicKey someSeed)) ?_).2 someSeed (issued _) own ?_
    · rw [auth]
      exact .tail _ (.tail _ (.head _))
    · exact .head _
  · obtain ⟨line, hline, c, hc, matching, -⟩ := sole issuer withPasswords first
    exact ⟨line, hline, c, hc, matching⟩

end RegistryConsent
