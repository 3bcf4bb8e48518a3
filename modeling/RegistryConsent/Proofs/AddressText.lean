import Mathlib.Algebra.Group.Nat.Defs
import RegistryConsent.Network.AddressText
import RegistryConsent.Proofs.Digits
import RegistryConsent.Proofs.Hex
import RegistryConsent.Proofs.Results

/-!
# Addresses are read from their texts

The text of an address is read back as the address, whichever run of zeros is left out of it. Every
text that is read as an address is made of digits, colons and points.
-/

namespace RegistryConsent.Address

open Text

/-! ### Characters -/

/-- Of a text that was split, all but the separators are in its pieces. -/
theorem exists_mem_splitOn {sep c : Char} {cs : List Char} (hc : c ∈ cs) (other : c ≠ sep) :
    ∃ piece ∈ cs.splitOn sep, c ∈ piece := by
  have whole : [sep].intercalate (cs.splitOn sep) = cs := List.intercalate_splitOn sep
  rw [← whole] at hc
  generalize cs.splitOn sep = pieces at hc ⊢
  induction pieces with
  | nil => exact absurd hc List.not_mem_nil
  | cons piece pieces ih =>
    have first : c ∈ piece → ∃ piece' ∈ piece :: pieces, c ∈ piece' :=
      fun there => ⟨piece, List.mem_cons_self, there⟩
    cases pieces with
    | nil => exact first (by simpa using hc)
    | cons next pieces =>
      have split : c ∈ piece ∨ c ∈ [sep].intercalate (next :: pieces) := by simpa [other] using hc
      rcases split with there | behind
      · exact first there
      · obtain ⟨piece', hpiece, there⟩ := ih behind
        exact ⟨piece', List.mem_cons_of_mem piece hpiece, there⟩

/-- Four octets are written with digits and points. -/
theorem isDigit_of_readDotted? {cs : List Char} {n : Nat} (h : readDotted? cs = some n) :
    ∀ c ∈ cs, c.isDigit = true ∨ c = '.' := by
  intro c hc
  by_cases point : c = '.'
  · exact .inr point
  · obtain ⟨piece, hpiece, there⟩ := exists_mem_splitOn hc point
    rw [readDotted?] at h
    split at h
    · next octets =>
      obtain ⟨o, read⟩ := exists_of_mapM_eq_some octets hpiece
      rw [readOctet?] at read
      split at read
      · cases read
      · obtain ⟨digits, -⟩ := Option.filter_eq_some_iff.mp read
        exact .inl ((natOfDigits?_eq_some_iff.mp digits).2.1 c there)
    · cases h

/-- The characters that addresses are written with. -/
def isAddressChar (c : Char) : Bool := (hexValue? c).isSome || c == ':' || c == '.'

/-- Addresses may be written with decimal digits. -/
theorem isAddressChar_of_isDigit {c : Char} (digit : c.isDigit = true) :
    isAddressChar c = true := by
  rw [isAddressChar, hexValue?, if_pos digit]
  rfl

private theorem isAddressChar_of_readDotted? {cs : List Char} {n : Nat}
    (h : readDotted? cs = some n) :
    ∀ c ∈ cs, isAddressChar c = true := by
  intro c hc
  rcases isDigit_of_readDotted? h c hc with digit | rfl
  · exact isAddressChar_of_isDigit digit
  · rfl

private theorem isSome_hexValue?_of_readGroup? {cs : List Char} {g : Nat}
    (h : readGroup? cs = some g) :
    ∀ c ∈ cs, (hexValue? c).isSome = true := by
  rw [readGroup?] at h
  split at h
  · cases h
  · rw [natOfHex?] at h
    split at h
    · cases h
    · exact isSome_hexValue?_of_readHex h

private theorem isAddressChar_of_readGroup? {cs : List Char} {g : Nat}
    (h : readGroup? cs = some g) :
    ∀ c ∈ cs, isAddressChar c = true := by
  intro c hc
  rw [isAddressChar, isSome_hexValue?_of_readGroup? h c hc]
  rfl

private theorem isAddressChar_of_readPieces? {dottedEnd : Bool} {pieces : List (List Char)}
    {gs : List Nat} (h : readPieces? dottedEnd pieces = some gs) :
    ∀ piece ∈ pieces, ∀ c ∈ piece, isAddressChar c = true := by
  fun_induction readPieces? dottedEnd pieces generalizing gs with
  | case1 => exact List.forall_mem_nil _
  | case2 piece g group => exact List.forall_mem_singleton.mpr (isAddressChar_of_readGroup? group)
  | case3 piece other allowed =>
    obtain ⟨n, dotted, -⟩ := Option.map_eq_some_iff.mp h
    exact List.forall_mem_singleton.mpr (isAddressChar_of_readDotted? dotted)
  | case4 => cases h
  | case5 piece rest nonempty ih =>
    obtain ⟨g, group, others⟩ := Option.bind_eq_some_iff.mp h
    obtain ⟨gs', read, -⟩ := Option.bind_eq_some_iff.mp others
    exact List.forall_mem_cons.mpr ⟨isAddressChar_of_readGroup? group, ih read⟩

private theorem isAddressChar_of_readGroups? {dottedEnd : Bool} {cs : List Char} {gs : List Nat}
    (h : readGroups? dottedEnd cs = some gs) : ∀ c ∈ cs, isAddressChar c = true := by
  intro c hc
  by_cases colon : c = ':'
  · rw [colon]
    rfl
  · obtain ⟨piece, hpiece, there⟩ := exists_mem_splitOn hc colon
    rw [readGroups?, if_neg (by simpa using List.ne_nil_of_mem hc)] at h
    exact isAddressChar_of_readPieces? h piece hpiece c there

/-- A text that is cut at two colons is made of the parts on either side of them. -/
theorem cutDoubleColon?_eq_some {cs a b : List Char} (h : cutDoubleColon? cs = some (a, b)) :
    cs = a ++ ':' :: ':' :: b := by
  fun_induction cutDoubleColon? cs generalizing a b with
  | case1 cs =>
    cases h
    rfl
  | case2 c cs other ih =>
    obtain ⟨⟨a', b'⟩, cut, same⟩ := Option.map_eq_some_iff.mp h
    cases same
    rw [ih cut, List.cons_append]
  | case3 => cases h

private theorem isAddressChar_of_readEight? {cs : List Char} {gs : List Nat}
    (h : readEight? cs = some gs) :
    ∀ c ∈ cs, isAddressChar c = true := by
  rw [readEight?] at h
  split at h
  · obtain ⟨read, -⟩ := Option.filter_eq_some_iff.mp h
    exact isAddressChar_of_readGroups? read
  · next front back cut =>
    obtain ⟨fs, hf, rest⟩ := Option.bind_eq_some_iff.mp h
    obtain ⟨bs, hb, -⟩ := Option.bind_eq_some_iff.mp rest
    intro c hc
    rw [cutDoubleColon?_eq_some cut, List.mem_append, List.mem_cons, List.mem_cons] at hc
    rcases hc with front | rfl | rfl | back
    · exact isAddressChar_of_readGroups? hf c front
    · rfl
    · rfl
    · exact isAddressChar_of_readGroups? hb c back

/-- An address is written with digits, colons and points. -/
theorem isAddressChar_of_parse? {cs : List Char} {x : Address} (h : parse? cs = some x) :
    ∀ c ∈ cs, isAddressChar c = true := by
  rw [parse?] at h
  split at h
  · next read => exact isAddressChar_of_readDotted? read
  · obtain ⟨gs, read, -⟩ := Option.map_eq_some_iff.mp h
    exact isAddressChar_of_readEight? read

/-- There is no slash and no blank among them. -/
theorem visible_of_isAddressChar {c : Char} (h : isAddressChar c = true) :
    c ≠ '/' ∧ isBlank c = false := by
  have ascii : c.toNat < 128 := by
    rw [isAddressChar, Bool.or_eq_true, Bool.or_eq_true, beq_iff_eq, beq_iff_eq] at h
    rcases h with (digit | rfl) | rfl
    · obtain ⟨v, value⟩ := Option.isSome_iff_exists.mp digit
      exact Hex.toNat_lt_of_hexValue? value
    · decide
    · decide
  exact of_ascii (P := fun c => isAddressChar c = true → c ≠ '/' ∧ isBlank c = false)
    (by decide) ascii h

/-! ### Four octets -/

/-- An octet is read from its digits, which are three at most and have no zero in front. -/
theorem readOctet?_toDigits : ∀ n < 256, readOctet? (Nat.toDigits 10 n) = some n := by
  decide +kernel

private theorem point_not_mem_toDigits (n : Nat) : '.' ∉ Nat.toDigits 10 n :=
  fun point => absurd (isDigit_toDigits n '.' point) (by decide)

/-- The octets of a number make it up. -/
theorem octets_eq {n : Nat} (h : n < 2 ^ 32) :
    (((n >>> 24) * 256 + n >>> 16 % 256) * 256 + n >>> 8 % 256) * 256 + n % 256 = n := by
  simp only [Nat.shiftRight_eq_div_pow]
  omega

/-- Four octets are read from their text. -/
theorem readDotted?_renderDotted {n : Nat} (h : n < 2 ^ 32) :
    readDotted? (renderDotted n) = some n := by
  have octets : ∀ o ∈ [n >>> 24, n >>> 16 % 256, n >>> 8 % 256, n % 256], o < 256 := by
    have top : n >>> 24 < 256 := by
      rw [Nat.shiftRight_eq_div_pow]
      omega
    simp only [List.forall_mem_cons]
    exact ⟨top, Nat.mod_lt _ (by decide), Nat.mod_lt _ (by decide), Nat.mod_lt _ (by decide),
      List.forall_mem_nil _⟩
  have apart : ∀ piece ∈ [n >>> 24, n >>> 16 % 256, n >>> 8 % 256, n % 256].map (Nat.toDigits 10),
      '.' ∉ piece := by
    intro piece hpiece
    obtain ⟨o, -, rfl⟩ := List.mem_map.mp hpiece
    exact point_not_mem_toDigits o
  have read : ([n >>> 24, n >>> 16 % 256, n >>> 8 % 256, n % 256].map (Nat.toDigits 10)).mapM
      readOctet? = some [n >>> 24, n >>> 16 % 256, n >>> 8 % 256, n % 256] := by
    rw [mapM_eq_some_iff, List.map_map]
    exact List.map_congr_left fun o ho => readOctet?_toDigits o (octets o ho)
  rw [readDotted?, renderDotted, List.splitOn_intercalate '.' apart (List.cons_ne_nil _ _), read]
  exact congrArg some (octets_eq h)

/-! ### Groups -/

/-- A group is read from its digits. -/
theorem readGroup?_toDigits {g : Nat} (h : g < 65536) :
    readGroup? (Nat.toDigits 16 g) = some g := by
  have short : (Nat.toDigits 16 g).length ≤ 4 :=
    (Nat.length_toDigits_le_iff (by decide) (by decide)).mpr h
  rw [readGroup?, if_neg (Nat.not_lt_of_le short), natOfHex?_toDigits]

private theorem colon_not_mem_toDigits (n : Nat) : ':' ∉ Nat.toDigits 16 n :=
  fun colon => absurd (isSome_hexValue?_toDigits n ':' colon) (by decide)

/-- Groups are read from the digits of each. -/
theorem readPieces?_map_toDigits (dottedEnd : Bool) {gs : List Nat} (h : ∀ g ∈ gs, g < 65536) :
    readPieces? dottedEnd (gs.map (Nat.toDigits 16)) = some gs := by
  induction gs with
  | nil => rfl
  | cons g gs ih =>
    rw [List.forall_mem_cons] at h
    have first := readGroup?_toDigits h.1
    have others := ih h.2
    cases gs with
    | nil => simp [readPieces?, first]
    | cons g' gs =>
      rw [List.map_cons, List.map_cons, readPieces?, ← List.map_cons, first, others]
      · rfl
      · exact List.cons_ne_nil _ _

private theorem renderGroups_cons (g : Nat) (gs : List Nat) :
    renderGroups (g :: gs) =
      Nat.toDigits 16 g ++ if gs = [] then [] else ':' :: renderGroups gs := by
  cases gs <;> simp [renderGroups]

/-- Groups are read from their text. -/
theorem readGroups?_renderGroups (dottedEnd : Bool) {gs : List Nat} (h : ∀ g ∈ gs, g < 65536) :
    readGroups? dottedEnd (renderGroups gs) = some gs := by
  have apart : ∀ piece ∈ gs.map (Nat.toDigits 16), ':' ∉ piece := by
    intro piece hpiece
    obtain ⟨g, -, rfl⟩ := List.mem_map.mp hpiece
    exact colon_not_mem_toDigits g
  cases gs with
  | nil => rfl
  | cons g gs =>
    have some : renderGroups (g :: gs) ≠ [] := by simp [renderGroups_cons]
    rw [readGroups?, if_neg (by simpa using some), renderGroups,
      List.splitOn_intercalate ':' apart (List.cons_ne_nil _ _),
      readPieces?_map_toDigits dottedEnd h]

/-! ### Cutting at two colons -/

private theorem cutDoubleColon?_cons {c : Char} (h : c ≠ ':') (cs : List Char) :
    cutDoubleColon? (c :: cs) = (cutDoubleColon? cs).map fun (a, b) => (c :: a, b) := by
  rw [cutDoubleColon?]
  rintro _ rfl
  exact absurd rfl h

private theorem cutDoubleColon?_colon {c : Char} (h : c ≠ ':') (cs : List Char) :
    cutDoubleColon? (':' :: c :: cs) =
      (cutDoubleColon? (c :: cs)).map fun (a, b) => (':' :: a, b) := by
  rw [cutDoubleColon?]
  rintro _ - same
  exact h (List.cons.inj same).1

private theorem cutDoubleColon?_append {digits : List Char} (h : ':' ∉ digits) (cs : List Char) :
    cutDoubleColon? (digits ++ cs) = (cutDoubleColon? cs).map fun (a, b) => (digits ++ a, b) := by
  induction digits with
  | nil => simp
  | cons c digits ih =>
    rw [List.mem_cons, not_or] at h
    rw [List.cons_append, cutDoubleColon?_cons (Ne.symm h.1), ih h.2, Option.map_map]
    rfl

/-- Groups start with a digit. -/
theorem exists_renderGroups_cons (g : Nat) (gs : List Nat) :
    ∃ c cs, renderGroups (g :: gs) = c :: cs ∧ c ≠ ':' := by
  obtain ⟨c, cs, digits⟩ := List.exists_cons_of_ne_nil (Nat.toDigits_ne_nil (n := g) (b := 16))
  refine ⟨c, _, by rw [renderGroups_cons, digits, List.cons_append], ?_⟩
  rintro rfl
  exact colon_not_mem_toDigits g (digits ▸ List.mem_cons_self)

/-- Two colons are not found among groups, but behind them. -/
theorem cutDoubleColon?_renderGroups (gs : List Nat) (cs : List Char) :
    cutDoubleColon? (renderGroups gs ++ cs) =
      (cutDoubleColon? cs).map fun (a, b) => (renderGroups gs ++ a, b) := by
  induction gs with
  | nil => simp [renderGroups]
  | cons g gs ih =>
    rw [renderGroups_cons, List.append_assoc, cutDoubleColon?_append (colon_not_mem_toDigits g)]
    cases gs with
    | nil => simp
    | cons g' gs =>
      obtain ⟨c, rest, start, other⟩ := exists_renderGroups_cons g' gs
      rw [if_neg (List.cons_ne_nil _ _), List.cons_append]
      rw [start] at ih ⊢
      rw [List.cons_append, cutDoubleColon?_colon other, ← List.cons_append, ih, Option.map_map,
        Option.map_map]
      congr 1
      funext x
      simp

/-! ### The run of zeros -/

private theorem zerosAhead_cons (g : Nat) (gs : List Nat) :
    zerosAhead (g :: gs) = if g = 0 then zerosAhead gs + 1 else 0 := by
  rw [zerosAhead, List.takeWhile_cons]
  by_cases zero : g = 0 <;> simp [zero, zerosAhead]

/-- What is counted in front are zeros. -/
theorem zerosAhead_split (gs : List Nat) :
    List.replicate (zerosAhead gs) 0 ++ gs.drop (zerosAhead gs) = gs := by
  induction gs with
  | nil => rfl
  | cons g gs ih =>
    rw [zerosAhead_cons]
    split
    · next zero => rw [List.replicate_succ, List.drop_succ_cons, List.cons_append, ih, zero]
    · rfl

private theorem longestRun_cons (g : Nat) (gs : List Nat) :
    longestRun (g :: gs) =
      if (longestRun gs).2 ≤ zerosAhead (g :: gs) then (0, zerosAhead (g :: gs))
      else ((longestRun gs).1 + 1, (longestRun gs).2) := rfl

/-- The longest run of zeros is one of zeros. -/
theorem longestRun_split (gs : List Nat) :
    gs.take (longestRun gs).1 ++ (List.replicate (longestRun gs).2 0 ++
      gs.drop ((longestRun gs).1 + (longestRun gs).2)) = gs := by
  induction gs with
  | nil => rfl
  | cons g gs ih =>
    rw [longestRun_cons]
    split
    · rw [Nat.zero_add]
      exact zerosAhead_split (g :: gs)
    · rw [Nat.add_right_comm, List.take_succ_cons, List.drop_succ_cons, List.cons_append, ih]

/-! ### Sixteen bytes -/

/-- Groups in front of two colons and behind them stand for those with zeros in between. -/
theorem readEight?_run {front back : List Nat} {length : Nat} (zeros : 1 < length)
    (eight : front.length + length + back.length = 8) (hf : ∀ g ∈ front, g < 65536)
    (hb : ∀ g ∈ back, g < 65536) :
    readEight? (renderGroups front ++ ':' :: ':' :: renderGroups back) =
      some (front ++ (List.replicate length 0 ++ back)) := by
  have cut : cutDoubleColon? (renderGroups front ++ ':' :: ':' :: renderGroups back) =
      some (renderGroups front, renderGroups back) := by
    rw [cutDoubleColon?_renderGroups, cutDoubleColon?]
    simp
  have few : front.length + back.length ≤ 7 := by omega
  have missing : 8 - front.length - back.length = length := by omega
  rw [readEight?, cut]
  simp [readGroups?_renderGroups false hf, readGroups?_renderGroups true hb, few, missing]

/-- Eight groups are read from their text, whether zeros are left out of it or not. -/
theorem readEight?_renderEight {gs : List Nat} (eight : gs.length = 8) (h : ∀ g ∈ gs, g < 65536) :
    readEight? (renderEight gs) = some gs := by
  have split := longestRun_split gs
  rw [renderEight]
  split
  next start length run =>
  rw [run] at split
  dsimp only at split
  split
  · next zeros =>
    have total := congrArg List.length split
    rw [List.length_append, List.length_append, List.length_replicate, eight] at total
    rw [readEight?_run zeros (by omega) (fun g hg => h g (List.mem_of_mem_take hg))
      (fun g hg => h g (List.mem_of_mem_drop hg)), split]
  · have uncut := cutDoubleColon?_renderGroups gs []
    rw [List.append_nil, cutDoubleColon?, Option.map_none] at uncut
    rw [readEight?, uncut, readGroups?_renderGroups true h]
    exact Option.filter_some_pos (by simpa using eight)

/-- The next group of a number continues its former ones. -/
theorem shiftRight_group (n k : Nat) : 65536 * (n >>> (k + 16)) + n >>> k % 65536 = n >>> k := by
  rw [Nat.shiftRight_add, Nat.shiftRight_eq_div_pow (n >>> k)]
  exact Nat.div_add_mod (n >>> k) 65536

/-- The groups of a number make it up. -/
theorem foldl_groups (n : Nat) : (groups n).foldl (fun n g => 65536 * n + g) 0 = n := by
  simp only [groups, List.foldl_cons, List.foldl_nil]
  rw [Nat.mul_zero, Nat.zero_add, shiftRight_group n 96, shiftRight_group n 80,
    shiftRight_group n 64, shiftRight_group n 48, shiftRight_group n 32, shiftRight_group n 16]
  exact shiftRight_group n 0

/-- Each group of a number has sixteen bits. -/
theorem lt_of_mem_groups {n g : Nat} (h : n < 2 ^ 128) (hg : g ∈ groups n) : g < 65536 := by
  have top : n >>> 112 < 65536 := by
    rw [Nat.shiftRight_eq_div_pow]
    omega
  simp only [groups, List.mem_cons, List.not_mem_nil, or_false] at hg
  rcases hg with rfl | rfl | rfl | rfl | rfl | rfl | rfl | rfl
  · exact top
  all_goals exact Nat.mod_lt _ (by decide)

/-! ### Addresses -/

private theorem readDotted?_of_colon {cs : List Char} (colon : ':' ∈ cs) :
    readDotted? cs = none := by
  by_contra read
  obtain ⟨n, read⟩ := Option.ne_none_iff_exists'.mp read
  exact absurd (isDigit_of_readDotted? read ':' colon) (by decide)

/-- An address of four bytes is read from its text. -/
theorem parse?_render_v4 (bits : BitVec 32) : parse? (render ⟨.v4, bits⟩) = some ⟨.v4, bits⟩ := by
  have read : readDotted? (renderDotted bits.toNat) = some bits.toNat :=
    readDotted?_renderDotted bits.isLt
  have same : BitVec.ofNat 32 bits.toNat = bits := by simp
  show parse? (renderDotted bits.toNat) = _
  rw [parse?, read]
  exact congrArg (fun bits => some (⟨.v4, bits⟩ : Address)) same

/-- An address that stands for one of four bytes is read from its dotted form. -/
theorem readEight?_mapped {n : Nat} (h : n < 2 ^ 32) :
    readEight? ("::ffff:".toList ++ renderDotted n) =
      some (List.replicate 5 0 ++ [0xffff, n / 65536, n % 65536]) := by
  have uncut : ':' ∉ renderDotted n := fun colon =>
    absurd (isDigit_of_readDotted? (readDotted?_renderDotted h) ':' colon) (by decide)
  have pieces : ("ffff".toList ++ ':' :: renderDotted n).splitOn ':' =
      ["ffff".toList, renderDotted n] := by
    rw [List.splitOn_append_cons_self_of_not_mem (by decide), List.splitOn_eq_singleton uncut]
  have noGroup : readGroup? (renderDotted n) = none := by
    by_contra read
    obtain ⟨g, read⟩ := Option.ne_none_iff_exists'.mp read
    have point : '.' ∈ renderDotted n := by simp [renderDotted]
    exact absurd (isSome_hexValue?_of_readGroup? read '.' point) (by decide)
  have read : readPieces? true ["ffff".toList, renderDotted n] =
      some [0xffff, n / 65536, n % 65536] := by
    have first : readGroup? "ffff".toList = some 0xffff := by decide
    simp only [readPieces?, first, noGroup, readDotted?_renderDotted h]
    rfl
  have back : readGroups? true ("ffff".toList ++ ':' :: renderDotted n) =
      some [0xffff, n / 65536, n % 65536] := by
    rw [readGroups?, pieces, read]
    rfl
  have front : readGroups? false [] = some [] := rfl
  have cut : cutDoubleColon? ("::ffff:".toList ++ renderDotted n) =
      some ([], "ffff".toList ++ ':' :: renderDotted n) := rfl
  rw [readEight?, cut]
  simp only [front, back]
  rfl

private theorem colon_mem_renderEight {gs : List Nat} (eight : gs.length = 8) :
    ':' ∈ renderEight gs := by
  rw [renderEight]
  split
  split
  · simp
  · match gs, eight with
    | g :: g' :: gs, _ => simp [renderGroups_cons]

private theorem render_v6 (bits : BitVec 128) :
    render ⟨.v6, bits⟩ =
      if bits.toNat >>> 32 = 0xffff then "::ffff:".toList ++ renderDotted (bits.toNat % 2 ^ 32)
      else renderEight (groups bits.toNat) := rfl

/-- An address of sixteen bytes is read from its text, which may be a dotted one. -/
theorem parse?_render_v6 (bits : BitVec 128) : parse? (render ⟨.v6, bits⟩) = some ⟨.v6, bits⟩ := by
  have same : BitVec.ofNat 128 bits.toNat = bits := by simp
  have bound : bits.toNat < 2 ^ 128 := bits.isLt
  have read : ':' ∈ render ⟨.v6, bits⟩ ∧ ∃ gs, readEight? (render ⟨.v6, bits⟩) = some gs ∧
      gs.foldl (fun n g => 65536 * n + g) 0 = bits.toNat := by
    rw [render_v6]
    generalize bits.toNat = n at bound
    split
    · next mapped =>
      rw [Nat.shiftRight_eq_div_pow] at mapped
      refine ⟨by simp, _, readEight?_mapped (Nat.mod_lt n (by decide)), ?_⟩
      simp
      omega
    · exact ⟨colon_mem_renderEight rfl, groups n,
        readEight?_renderEight rfl (fun g => lt_of_mem_groups bound), foldl_groups n⟩
  obtain ⟨colon, gs, read, number⟩ := read
  rw [parse?, readDotted?_of_colon colon, read, Option.map_some, number, same]

/-- The text of an address is read back. -/
theorem parse?_render (x : Address) : parse? x.render = some x := by
  obtain ⟨family, bits⟩ := x
  cases family with
  | v4 => exact parse?_render_v4 bits
  | v6 => exact parse?_render_v6 bits

end RegistryConsent.Address
