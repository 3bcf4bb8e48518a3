import RegistryConsent.Credential
import RegistryConsent.Proofs.Blanks
import RegistryConsent.Proofs.Utf8

/-!
# The logins that an override value stands for

The passwords of an override value are the beginnings of what stands behind its first comma, up to
any further comma or to the end. So the password that was meant is among them, whatever commas it
holds and whatever remark follows, and cutting the bytes at their commas gives the same passwords.
-/

namespace RegistryConsent

/-- A beginning of a text behind which nothing or a comma stands. -/
def BeginsUpToComma (p cs : List Char) : Prop :=
  ∃ tail, cs = p ++ tail ∧ ∀ c ∈ tail.head?, c = ','

/-- The beginnings that are listed are those up to a comma or to the end. -/
theorem mem_commaBeginnings_iff {p cs : List Char} :
    p ∈ commaBeginnings cs ↔ BeginsUpToComma p cs := by
  induction cs generalizing p with
  | nil =>
    rw [commaBeginnings, List.mem_singleton]
    constructor
    · rintro rfl
      exact ⟨[], rfl, nofun⟩
    · rintro ⟨tail, none, -⟩
      exact (List.append_eq_nil_iff.mp none.symm).1
  | cons c cs ih =>
    rw [commaBeginnings, List.mem_append]
    cases p with
    | nil =>
      have behind : [] ∉ (commaBeginnings cs).map (c :: ·) := by simp
      rw [or_iff_left behind]
      constructor
      · intro h
        split at h
        · next comma => exact ⟨c :: cs, rfl, fun x hx => (Option.some.inj hx).symm.trans comma⟩
        · cases h
      · rintro ⟨tail, rfl, ends⟩
        rw [if_pos (ends c rfl)]
        exact List.mem_singleton_self _
    | cons x p =>
      have front : x :: p ∉ if c = ',' then [[]] else [] := by split <;> simp
      rw [or_iff_right front, List.mem_map]
      constructor
      · rintro ⟨q, hq, same⟩
        obtain ⟨rfl, rfl⟩ := List.cons.inj same
        obtain ⟨tail, rfl, ends⟩ := ih.mp hq
        exact ⟨tail, rfl, ends⟩
      · rintro ⟨tail, whole, ends⟩
        obtain ⟨rfl, rfl⟩ := List.cons.inj whole
        exact ⟨p, ih.mpr ⟨tail, rfl, ends⟩, rfl⟩

/-- Each beginning is a longer one than those before it, and these are its own beginnings. -/
theorem pairwise_commaBeginnings (cs : List Char) :
    (commaBeginnings cs).Pairwise fun p q => p <+: q ∧ p.length < q.length := by
  induction cs with
  | nil => exact List.pairwise_singleton _ _
  | cons c cs ih =>
    have longer : ((commaBeginnings cs).map (c :: ·)).Pairwise
        fun p q => p <+: q ∧ p.length < q.length := by
      rw [List.pairwise_map]
      refine ih.imp fun {p q} h => ⟨List.cons_prefix_cons.mpr ⟨rfl, h.1⟩, ?_⟩
      rw [List.length_cons, List.length_cons]
      exact Nat.succ_lt_succ h.2
    rw [commaBeginnings, List.pairwise_append]
    refine ⟨by split <;> simp, longer, fun p hp q hq => ?_⟩
    obtain ⟨q, -, rfl⟩ := List.mem_map.mp hq
    split at hp
    · rw [List.mem_singleton.mp hp]
      exact ⟨List.nil_prefix, Nat.succ_pos _⟩
    · cases hp

/-- There is at most one beginning more than there are characters. -/
theorem length_commaBeginnings_le (cs : List Char) :
    (commaBeginnings cs).length ≤ cs.length + 1 := by
  induction cs with
  | nil => exact Nat.le_refl 1
  | cons c cs ih =>
    have front : (if c = ',' then [([] : List Char)] else []).length ≤ 1 := by split <;> simp
    rw [commaBeginnings, List.length_append, List.length_map, List.length_cons]
    omega

/-- The last beginning is the whole text. -/
theorem getLast?_commaBeginnings (cs : List Char) : (commaBeginnings cs).getLast? = some cs := by
  induction cs with
  | nil => rfl
  | cons c cs ih => rw [commaBeginnings, List.getLast?_append, List.getLast?_map, ih]; rfl

namespace Text

/-- A trimmed text in front of a mark leaves only what stands behind the mark to be trimmed. -/
theorem strip_append_cons {u : List Char} (trimmed : strip u = u) {mark : Char}
    (visible : isBlank mark = false) (cs : List Char) :
    strip (u ++ mark :: cs) = u ++ mark :: dropBlanksEnd cs := by
  have front : dropBlanks u = u := by
    have kept : u <+: dropBlanks u := by
      have h : strip u <+: dropBlanks u := List.rdropWhile_prefix isBlank _
      rwa [trimmed] at h
    exact (List.dropWhile_suffix isBlank).eq_of_length_le kept.length_le
  rw [strip, dropBlanks_append_cons visible, front, dropBlanksEnd_append_cons visible]

end Text

namespace OverrideValue

open Text

/-- What the logins of a user are when `rest` stands behind the first comma. -/
structure Readings (user : String) (rest : List Char) (logins : List Login) : Prop where
  usernames : ∀ l ∈ logins, l.username = user
  /-- The passwords are the beginnings up to a comma or to the end, but for the empty one. -/
  passwords : ∀ p : String, (∃ l ∈ logins, l.password = p) ↔ p ≠ "" ∧ BeginsUpToComma p.toList rest
  /-- Each password is a beginning of all that follow and shorter than these. -/
  growing : logins.Pairwise fun l k =>
    l.password.toList <+: k.password.toList ∧ l.password.length < k.password.length
  last : rest ≠ [] → ∃ l ∈ logins.getLast?, l.password = .ofList rest
  /-- The bytes of the passwords are the beginnings of the bytes up to a comma or to the end. -/
  bytes : ∀ bs, (∃ l ∈ logins, Bytes.ofText l.password = bs) ↔
    bs ≠ [] ∧ ∃ tail, Bytes.ofText (.ofList rest) = bs ++ tail ∧ ∀ b ∈ tail.head?, b = 0x2c

/-- A value stands for no more logins than it has characters. -/
theorem length_candidates_le (v : OverrideValue) : v.candidates.length ≤ v.value.length := by
  unfold candidates
  split
  · exact Nat.zero_le _
  · next user rest cut =>
    have whole : v.value.length = user.length + (rest.length + 1) := by
      rw [← String.length_toList, (cut?_eq_some_iff.mp cut).2, List.length_append, List.length_cons]
    split
    · exact Nat.zero_le _
    · rw [List.length_map, whole]
      calc ((commaBeginnings rest).filter (!·.isEmpty)).length
          ≤ (commaBeginnings rest).length := List.length_filter_le _ _
        _ ≤ rest.length + 1 := length_commaBeginnings_le rest
        _ ≤ user.length + (rest.length + 1) := Nat.le_add_left _ _

/-- A value without a comma stands for no login. -/
theorem candidates_of_uncut {s : String} (h : ',' ∉ strip s.toList) :
    (ofText s).candidates = [] := by
  rw [candidates, ofText, trim, String.toList_ofList, cut?_eq_none_iff.mpr h]

/-- The logins of a value with a comma. -/
theorem candidates_of_cut {s : String} {user rest : List Char}
    (cut : strip s.toList = user ++ ',' :: rest) (uncut : ',' ∉ user) :
    (ofText s).candidates =
      if (strip user).isEmpty then []
      else ((commaBeginnings rest).filter (!·.isEmpty)).map fun p =>
        ⟨.ofList (strip user), .ofList p⟩ := by
  rw [candidates, ofText, trim, String.toList_ofList, cut?_eq_some_iff.mpr ⟨uncut, cut⟩]

/-- The logins of a user are made of the beginnings up to commas, but for the empty one. -/
theorem mem_logins_iff {user : String} {rest : List Char} {l : Login} :
    l ∈ ((commaBeginnings rest).filter (!·.isEmpty)).map (fun p => (⟨user, .ofList p⟩ : Login)) ↔
      ∃ p, BeginsUpToComma p rest ∧ p ≠ [] ∧ ⟨user, .ofList p⟩ = l := by
  simp only [List.mem_map, List.mem_filter, mem_commaBeginnings_iff, Bool.not_eq_true',
    List.isEmpty_eq_false_iff, and_assoc]

/-- The beginnings up to commas are the readings of a user. -/
theorem readings_commaBeginnings (user : String) (rest : List Char) :
    Readings user rest
      (((commaBeginnings rest).filter (!·.isEmpty)).map fun p => ⟨user, .ofList p⟩) where
  usernames := by
    intro l hl
    obtain ⟨p, -, -, rfl⟩ := mem_logins_iff.mp hl
    rfl
  passwords := by
    intro p
    have named : p ≠ "" ↔ p.toList ≠ [] := not_congr String.toList_eq_nil_iff.symm
    rw [named]
    constructor
    · rintro ⟨l, hl, rfl⟩
      obtain ⟨q, begins, nonempty, rfl⟩ := mem_logins_iff.mp hl
      rw [String.toList_ofList]
      exact ⟨nonempty, begins⟩
    · rintro ⟨nonempty, begins⟩
      exact ⟨_, mem_logins_iff.mpr ⟨p.toList, begins, nonempty, rfl⟩, String.ofList_toList⟩
  growing := by
    rw [List.pairwise_map]
    refine ((pairwise_commaBeginnings rest).filter _).imp fun {p q} h => ?_
    simpa only [String.toList_ofList, String.length_ofList] using h
  last := by
    intro nonempty
    obtain ⟨front, listed⟩ := List.getLast?_eq_some_iff.mp (getLast?_commaBeginnings rest)
    have kept : [rest].filter (!·.isEmpty) = [rest] := by simp [nonempty]
    refine ⟨⟨user, .ofList rest⟩, ?_, rfl⟩
    rw [listed, List.filter_append, kept, List.map_append, List.map_singleton,
      List.getLast?_concat]
    rfl
  bytes := by
    intro bs
    have comma : (0x2c : UInt8) = UInt8.ofNat ','.toNat := rfl
    have ascii : ','.toNat < 128 := by decide
    simp only [comma, Bytes.cut_iff ascii]
    constructor
    · rintro ⟨l, hl, rfl⟩
      obtain ⟨p, ⟨tail, rfl, ends⟩, nonempty, rfl⟩ := mem_logins_iff.mp hl
      refine ⟨fun none => nonempty ?_, _, p, tail, rfl, ends, rfl, rfl⟩
      exact String.ofList_eq_empty_iff.mp (Bytes.ofText_eq_nil_iff.mp none)
    · rintro ⟨nonempty, -, p, tail, rfl, ends, rfl, -⟩
      refine ⟨_, mem_logins_iff.mpr ⟨p, ⟨tail, rfl, ends⟩, ?_, rfl⟩, rfl⟩
      rintro rfl
      exact nonempty rfl

/-- A password that is a beginning makes a login of the user. -/
theorem Readings.mem {user : String} {rest : List Char} {logins : List Login}
    (h : Readings user rest logins) {p : String} (nonempty : p ≠ "")
    (begins : BeginsUpToComma p.toList rest) : ⟨user, p⟩ ∈ logins := by
  obtain ⟨l, hl, rfl⟩ := (h.passwords p).mpr ⟨nonempty, begins⟩
  obtain rfl := h.usernames l hl
  exact hl

/-- The logins of a value with a user are its readings. -/
theorem readings_candidates {s : String} {user rest : List Char}
    (cut : strip s.toList = user ++ ',' :: rest) (uncut : ',' ∉ user) (named : ¬AllBlank user) :
    Readings (.ofList (strip user)) rest (ofText s).candidates := by
  have kept : ¬(strip user).isEmpty = true := mt List.isEmpty_iff.mp (mt strip_eq_nil_iff.mp named)
  rw [candidates_of_cut cut uncut, if_neg kept]
  exact readings_commaBeginnings _ rest

/-- The logins of a value that starts with a trimmed name and a comma are the readings of this
name. -/
theorem readings_of_trimmed {u : String} (nonempty : u ≠ "") (trimmed : trim u = u)
    (uncut : ',' ∉ u.toList) (cs : List Char) {s : String}
    (whole : s.toList = u.toList ++ ',' :: cs) :
    Readings u (dropBlanksEnd cs) (ofText s).candidates := by
  have kept : strip u.toList = u.toList := by
    rw [← String.toList_inj, trim, String.toList_ofList] at trimmed
    exact trimmed
  have named : ¬AllBlank u.toList := by
    rw [← strip_eq_nil_iff, kept]
    exact mt String.toList_eq_nil_iff.mp nonempty
  have cut : strip s.toList = u.toList ++ ',' :: dropBlanksEnd cs := by
    rw [whole, strip_append_cons kept rfl]
  have readings := readings_candidates cut uncut named
  rwa [kept, String.ofList_toList] at readings

/-- An override value without a comma, or with blanks only in front of the first one, stands for no
login. Any other one stands for the readings of the name in front of the first comma. The login that
was meant is always among them: by a trimmed name without commas and any password, with any remark
behind it, or without one where the password does not end in a blank. -/
theorem candidates_are_readings :
    (∀ s : String, (',' ∉ strip s.toList ∨ ∃ user rest, strip s.toList = user ++ ',' :: rest ∧
      ',' ∉ user ∧ AllBlank user) → (ofText s).candidates = []) ∧
    (∀ (s : String) (user rest : List Char), strip s.toList = user ++ ',' :: rest → ',' ∉ user →
      ¬AllBlank user → Readings (.ofList (strip user)) rest (ofText s).candidates) ∧
    ∀ u p : String, u ≠ "" → trim u = u → ',' ∉ u.toList → p ≠ "" →
      (∀ remark : String, ⟨u, p⟩ ∈ (ofText (u ++ "," ++ p ++ "," ++ remark)).candidates) ∧
      ((∀ c ∈ p.toList.getLast?, isBlank c = false) →
        ⟨u, p⟩ ∈ (ofText (u ++ "," ++ p)).candidates) := by
  refine ⟨?_, fun s user rest => readings_candidates, ?_⟩
  · rintro s (uncut | ⟨user, rest, cut, uncut, blank⟩)
    · exact candidates_of_uncut uncut
    · rw [candidates_of_cut cut uncut, if_pos (List.isEmpty_iff.mpr (strip_eq_nil_iff.mpr blank))]
  · intro u p nonempty trimmed uncut password
    refine ⟨fun remark => ?_, fun ends => ?_⟩
    · have whole : (u ++ "," ++ p ++ "," ++ remark).toList =
          u.toList ++ ',' :: (p.toList ++ ',' :: remark.toList) := by simp
      refine (readings_of_trimmed nonempty trimmed uncut _ whole).mem password ?_
      rw [dropBlanksEnd_append_cons rfl]
      exact ⟨_, rfl, fun c hc => (Option.some.inj hc).symm⟩
    · have whole : (u ++ "," ++ p).toList = u.toList ++ ',' :: p.toList := by simp
      refine (readings_of_trimmed nonempty trimmed uncut _ whole).mem password ?_
      have kept : dropBlanksEnd p.toList = p.toList := by
        rw [← List.head?_reverse] at ends
        rw [dropBlanksEnd, dropBlanks_eq_self ends, List.reverse_reverse]
      rw [kept]
      exact ⟨[], (List.append_nil _).symm, fun c hc => by cases hc⟩

/-- A password with a comma in front and one inside is read with and without a remark behind it. -/
theorem password_with_commas_read :
    (ofText "admin").candidates = [] ∧
      Readings "admin" ",pa,ss,ticket 42".toList (ofText " admin ,,pa,ss,ticket 42 ").candidates ∧
      ⟨"admin", ",pa,ss"⟩ ∈ (ofText "admin,,pa,ss,ticket 42").candidates ∧
      ⟨"admin", ",pa,ss"⟩ ∈ (ofText "admin,,pa,ss").candidates := by
  obtain ⟨without, readings, meant⟩ := candidates_are_readings
  have named : ¬AllBlank "admin ".toList := fun blank =>
    absurd (List.all_eq_true.mpr blank) (by decide)
  have user : String.ofList (strip "admin ".toList) = "admin" := by decide +kernel
  obtain ⟨remarked, plain⟩ := meant "admin" ",pa,ss" (by decide) (by decide +kernel) (by decide)
    (by decide)
  have ends : ∀ c ∈ ",pa,ss".toList.getLast?, isBlank c = false := by
    intro c last
    obtain rfl : 's' = c := Option.some.inj last
    rfl
  refine ⟨without "admin" (.inl (by decide +kernel)), ?_, remarked "ticket 42", plain ends⟩
  rw [← user]
  exact readings _ "admin ".toList _ (by decide +kernel) (by decide) named

end OverrideValue

end RegistryConsent
