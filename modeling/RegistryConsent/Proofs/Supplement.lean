import Mathlib.Data.List.Perm.Subperm
import RegistryConsent.Proofs.Alike
import RegistryConsent.Proofs.Consent
import RegistryConsent.Proofs.Matching

/-!
# More proof for the same update

An update supplements another one when it proposes the same and comes with all of its credentials.
Whatever maintainer vouches for the one then vouches for the other. A standard strategy therefore
passes the supplemented update with at least the same records; if it refuses it, then it has refused
the former update for the same reason.
-/

namespace RegistryConsent

/-- An update proposes the same as another one and comes with all of its credentials. -/
structure Update.Supplements (v u : Update) : Prop where
  action : v.action = u.action
  record : v.record = u.record
  credentials : u.credentials.toList ⊆ v.credentials.toList

namespace Update.Supplements

variable {u v : Update} (h : v.Supplements u)

include h

/-- The passwords of the former update are there. -/
theorem passwords_subset : u.credentials.passwords ⊆ v.credentials.passwords := by
  intro p hp
  rw [CredentialSet.mem_passwords_iff] at hp ⊢
  exact h.credentials hp

/-- The signed texts of the former update are there. -/
theorem signedTexts_subset : u.credentials.signedTexts ⊆ v.credentials.signedTexts := by
  intro t ht
  rw [CredentialSet.mem_signedTexts_iff] at ht ⊢
  exact h.credentials ht

/-- There are no fewer passwords. -/
theorem length_passwords_le : u.credentials.passwords.length ≤ v.credentials.passwords.length :=
  (List.subperm_of_subset u.credentials.nodup_passwords h.passwords_subset).length_le

/-- A hash that a password had is still matched. -/
theorem matchesPassword {value : String} (matched : u.matchesPassword value = true) :
    v.matchesPassword value = true := by
  rw [Update.matchesPassword_eq_true_iff] at matched ⊢
  obtain ⟨hash, parsed, p, hp, verified⟩ := matched
  exact ⟨hash, parsed, p, h.passwords_subset hp, verified⟩

/-- A key that signed the text of the record is still matched. -/
theorem matchesKey {value : String} (matched : u.matchesKey value = true) :
    v.matchesKey value = true := by
  rw [Update.matchesKey_eq_true_iff] at matched ⊢
  obtain ⟨key, parsed, t, ht, signed⟩ := matched
  rw [h.record]
  exact ⟨key, parsed, t, h.signedTexts_subset ht, signed⟩

/-- A line that was matched is still matched. -/
theorem matchesLine {line : String} (matched : u.matchesLine line = true) :
    v.matchesLine line = true := by
  rw [Update.matchesLine_eq_true_iff] at matched ⊢
  obtain ⟨scheme, value, words, ⟨password, matched⟩ | ⟨key, matched⟩⟩ := matched
  · exact ⟨scheme, value, words, .inl ⟨password, h.matchesPassword matched⟩⟩
  · exact ⟨scheme, value, words, .inr ⟨key, h.matchesKey matched⟩⟩

/-- A maintainer that vouched still vouches. -/
theorem vouchesFor {maintainer : Record} (vouched : maintainer.vouchesFor u = true) :
    maintainer.vouchesFor v = true := by
  rw [Update.vouchesFor_eq_true_iff] at vouched ⊢
  obtain ⟨line, hline, matched⟩ := vouched
  exact ⟨line, hline, h.matchesLine matched⟩

/-- An update that supplements one that supplements it is judged as that one. -/
theorem alike (h' : u.Supplements v) : u.Alike v where
  creates := by rw [h.action]
  objectType := by rw [Update.objectType, Update.objectType, h.record]
  key := by rw [Update.key, Update.key, h.record]
  record _ := h.record.symm
  vouches _ := Bool.eq_iff_iff.mpr ⟨h.vouchesFor, h'.vouchesFor⟩
  passwords := Nat.le_antisymm h.length_passwords_le h'.length_passwords_le

/-- The same maintainers are created. -/
theorem createsMaintainer (name : Handle) :
    v.createsMaintainer name = u.createsMaintainer name := by
  simp only [Update.createsMaintainer, Update.objectType, Update.key, h.action, h.record]

/-- A strategy that looks at the proposal alone supports the same. -/
theorem supports_standard {strategy : Strategy}
    (hs : strategy = .mntBy ∨ strategy = .routeOrigin) :
    strategy.supports v = strategy.supports u := by
  rcases hs with rfl | rfl
  · simp only [Strategy.mntBy, h.action, h.record]
  · simp only [Strategy.routeOrigin, Update.objectType, h.action, h.record]

end Update.Supplements

/-- One outcome is no worse than another: what had passed passes with at least the same records, and
what is refused had been refused for the same reason. -/
inductive Outcome.NoWorse : Outcome → Outcome → Prop where
  | refused (refusal : Refusal) : NoWorse (.error refusal) (.error refusal)
  | passed (refusal : Refusal) (records : List Record) : NoWorse (.error refusal) (.ok records)
  | kept {former records : List Record} (sub : former ⊆ records) :
      NoWorse (.ok former) (.ok records)

namespace Update.Supplements

variable {u v : Update} (h : v.Supplements u) (answers : Answers)

include h

/-- A name leads to the same maintainer. -/
theorem maintainer_eq (name : Handle) : answers.maintainer v name = answers.maintainer u name := by
  rw [Answers.maintainer, Answers.maintainer, h.createsMaintainer, h.record]

/-- The same version of the record decides. -/
theorem governing_eq : answers.governing v = answers.governing u := by
  simp only [Answers.governing, Update.objectType, Update.key, h.action, h.record]

/-- Those that vouched are among those that vouch. -/
theorem vouchers_subset (names : List Handle) :
    (vouchers u names).under answers ⊆ (vouchers v names).under answers := by
  intro r hr
  rw [mem_vouchers] at hr ⊢
  obtain ⟨name, named, found, vouched⟩ := hr
  exact ⟨name, named, (h.maintainer_eq answers name).trans found, h.vouchesFor vouched⟩

/-- The answer of maintainers gets no worse. -/
theorem noWorse_authenticateBy (target : Record) (attr : String) (names : List Handle) :
    Outcome.NoWorse ((authenticateBy u target attr names).under answers)
      ((authenticateBy v target attr names).under answers) := by
  have sub := h.vouchers_subset answers names
  rw [under_authenticateBy, under_authenticateBy]
  cases former : (vouchers u names).under answers with
  | nil =>
    cases (vouchers v names).under answers with
    | nil => exact .refused _
    | cons r rest => exact .passed _ _
  | cons r rest =>
    cases later : (vouchers v names).under answers with
    | nil =>
      rw [former, later] at sub
      cases sub List.mem_cons_self
    | cons r' rest' =>
      rw [former, later] at sub
      exact .kept sub

/-- The judgement by the maintainers of a governing version gets no worse. -/
theorem noWorse_judgeByMaintainers (found : Option Record) :
    Outcome.NoWorse ((judgeByMaintainers u found).under answers)
      ((judgeByMaintainers v found).under answers) := by
  cases found with
  | none =>
    simp only [judgeByMaintainers, Update.objectType, Update.key, h.record]
    exact .refused _
  | some record =>
    rw [judgeByMaintainers, judgeByMaintainers]
    split
    · exact .kept (List.Subset.refl [])
    · exact h.noWorse_authenticateBy answers _ _ _

/-- The judgement by the origin of a route gets no worse. -/
theorem noWorse_judgeByOrigin (origin : Option Handle) :
    Outcome.NoWorse ((judgeByOrigin u origin).under answers)
      ((judgeByOrigin v origin).under answers) := by
  cases origin with
  | none => exact .refused _
  | some origin =>
    rw [judgeByOrigin, judgeByOrigin, Consult.under_bind, Consult.under_bind, Consult.under_stored]
    cases answers.stored .autNum origin with
    | none => exact .refused _
    | some autNum => exact h.noWorse_authenticateBy answers _ _ _

/-- The answer of a standard strategy gets no worse. -/
theorem noWorse_standard {strategy : Strategy}
    (hs : strategy = .mntBy ∨ strategy = .routeOrigin) (c : Context) :
    Outcome.NoWorse ((strategy.authenticate u c).under answers)
      ((strategy.authenticate v c).under answers) := by
  rcases hs with rfl | rfl
  · change Outcome.NoWorse ((governingRecord u >>= judgeByMaintainers u).under answers)
      ((governingRecord v >>= judgeByMaintainers v).under answers)
    rw [Consult.under_bind, Consult.under_bind, under_governingRecord, under_governingRecord,
      h.governing_eq answers]
    exact h.noWorse_judgeByMaintainers answers _
  · change Outcome.NoWorse ((judgeByOrigin u u.record.originHandle).under answers)
      ((judgeByOrigin v v.record.originHandle).under answers)
    rw [h.record]
    exact h.noWorse_judgeByOrigin answers _

end Update.Supplements

end RegistryConsent
