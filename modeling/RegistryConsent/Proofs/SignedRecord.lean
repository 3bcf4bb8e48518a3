import RegistryConsent.Proofs.Matching
import RegistryConsent.Proofs.RecordText

/-!
# What a signed text stands for

A key matches when it signed the text of the submitted record. Records that were read from texts are
told apart by their own texts, so that a text signed for one of them is of no use to an update of any
other, be it the same object in another spelling.
-/

namespace RegistryConsent

/-- The content is the text of a record that was read, but not of the given one. -/
def SignedText.Foreign (signed : SignedText) (r : Record) : Prop :=
  ∃ s other, Record.parse s = .ok other ∧ other ≠ r ∧ signed.content = Bytes.ofText other.text

/-- A line names the scheme of keys and a value. -/
def IsKeyLine (line : String) : Prop :=
  ∃ scheme value, Text.words line.toList = [scheme, value] ∧
    ((⟨.ofList scheme⟩ : Handle) == keyScheme) = true

/-- A text that was signed for another record does not cover a record that was read. -/
theorem SignedText.Foreign.covers_eq_false {signed : SignedText} {t : String} {r : Record}
    (h : signed.Foreign r) (read : Record.parse t = .ok r) : signed.covers r.text = false := by
  obtain ⟨s, other, read', apart, content⟩ := h
  have texts : other.text ≠ r.text :=
    mt (Record.text_inj (Record.legible_of_parse read') (Record.legible_of_parse read)).mp apart
  rw [SignedText.covers, content, beq_eq_false_iff_ne]
  exact mt Bytes.ofText_inj.mp texts

namespace Update

variable {u : Update} {signed : SignedText}

/-- A line of the scheme of keys is matched by a key or not at all. -/
theorem matchesLine_of_isKeyLine (u : Update) {line : String} (h : IsKeyLine line) :
    ∃ value, u.matchesLine line = u.matchesKey value := by
  obtain ⟨scheme, value, words, key⟩ := h
  refine ⟨.ofList value, ?_⟩
  rw [matchesLine, words]
  simp only [beq_passwordScheme_of_beq_keyScheme key, key, Bool.false_eq_true, if_false, if_true]

/-- A signed text is no password. -/
theorem matchesPassword_withCredential_signed (u : Update) (signed : SignedText) (value : String) :
    (u.withCredential (.signed signed)).matchesPassword value = u.matchesPassword value := by
  rw [Bool.eq_iff_iff, matchesPassword_eq_true_iff, matchesPassword_eq_true_iff]
  simp only [CredentialSet.mem_passwords_iff, withCredential, CredentialSet.mem_add_iff,
    reduceCtorEq, or_false]

/-- A signed text that does not cover the record makes no key match. -/
theorem matchesKey_withCredential_signed (h : signed.covers u.record.text = false)
    (value : String) :
    (u.withCredential (.signed signed)).matchesKey value = u.matchesKey value := by
  rw [Bool.eq_iff_iff, matchesKey_eq_true_iff, matchesKey_eq_true_iff]
  simp only [CredentialSet.mem_signedTexts_iff, withCredential, CredentialSet.mem_add_iff,
    Credential.signed.injEq]
  constructor
  · rintro ⟨key, read, s, hs | rfl, covers, isBy⟩
    · exact ⟨key, read, s, hs, covers, isBy⟩
    · rw [h] at covers
      cases covers
  · rintro ⟨key, read, s, hs, signed⟩
    exact ⟨key, read, s, .inl hs, signed⟩

/-- A signed text that does not cover the record makes no line match. -/
theorem matchesLine_withCredential_signed (h : signed.covers u.record.text = false)
    (line : String) :
    (u.withCredential (.signed signed)).matchesLine line = u.matchesLine line := by
  simp only [matchesLine, matchesPassword_withCredential_signed, matchesKey_withCredential_signed h]

end Update

/-- Records that were read from texts are told apart by their own texts. A text that was signed for
another record than that of an update therefore makes no line match and adds nothing to what
maintainers vouch for, and where all signed texts are of this kind no line of a key matches. -/
theorem text_binds_record :
    (∀ s t r r', Record.parse s = .ok r → Record.parse t = .ok r' → r.text = r'.text → r = r') ∧
    ∀ (u : Update) (t : String), Record.parse t = .ok u.record →
      (∀ signed : SignedText, signed.Foreign u.record →
        (∀ line, (u.withCredential (.signed signed)).matchesLine line = u.matchesLine line) ∧
        ∀ maintainer : Record,
          maintainer.vouchesFor (u.withCredential (.signed signed)) = maintainer.vouchesFor u) ∧
      ((∀ signed ∈ u.credentials.signedTexts, signed.Foreign u.record) →
        ∀ line, IsKeyLine line → u.matchesLine line = false) := by
  refine ⟨?_, fun u t read => ⟨?_, ?_⟩⟩
  · intro s t r r' read read' same
    exact (Record.text_inj (Record.legible_of_parse read) (Record.legible_of_parse read')).mp same
  · intro signed foreign
    have lines : (u.withCredential (.signed signed)).matchesLine = u.matchesLine :=
      funext (Update.matchesLine_withCredential_signed (foreign.covers_eq_false read))
    refine ⟨congrFun lines, fun maintainer => ?_⟩
    rw [Record.vouchesFor, Record.vouchesFor, lines]
  · intro foreign line key
    obtain ⟨value, matched⟩ := u.matchesLine_of_isKeyLine key
    rw [matched]
    exact Update.matchesKey_of_uncovered
      (fun signed hmem => (foreign signed hmem).covers_eq_false read) value

/-- A person. -/
private def shoutedPerson : Record := { objectType := .person, key := ⟨"JD1-TEST"⟩ }

/-- The signed text of the person. -/
private def shoutedText : SignedText :=
  .ofSeed (.replicate 32 7) (Bytes.ofText shoutedPerson.text)

/-- An update of the person under its key in lower case. -/
private def whisperedUpdate : Update :=
  .start ⟨1⟩ .modify { objectType := .person, key := ⟨"jd1-test"⟩ }

/-- The update with the text of the other spelling signed. -/
private def signedUpdate : Update := whisperedUpdate.withCredential (.signed shoutedText)

/-- A signature for one spelling of a key is of no use for the other, although both name the same
object. -/
theorem other_spelling_unsigned :
    shoutedPerson.sameIdentity whisperedUpdate.record = true ∧
      shoutedPerson.text ≠ whisperedUpdate.record.text ∧
      signedUpdate.credentials.signedTexts = [shoutedText] ∧
      shoutedText.covers shoutedPerson.text = true ∧
      (∀ maintainer : Record,
        maintainer.vouchesFor signedUpdate = maintainer.vouchesFor whisperedUpdate) ∧
      ∀ line, IsKeyLine line → signedUpdate.matchesLine line = false := by
  have shouted : Record.parse "person: JD1-TEST" = .ok shoutedPerson := rfl
  have whispered : Record.parse "person: jd1-test" = .ok whisperedUpdate.record := rfl
  have apart : shoutedPerson ≠ whisperedUpdate.record := by decide
  have foreign : shoutedText.Foreign whisperedUpdate.record := ⟨_, _, shouted, apart, rfl⟩
  obtain ⟨told, bound⟩ := text_binds_record
  refine ⟨rfl, fun same => apart (told _ _ _ _ shouted whispered same), rfl, beq_self_eq_true _,
    ((bound whisperedUpdate _ whispered).1 shoutedText foreign).2, ?_⟩
  refine (bound signedUpdate _ whispered).2 fun signed hmem => ?_
  obtain rfl : signed = shoutedText := List.mem_singleton.mp hmem
  exact foreign

end RegistryConsent
