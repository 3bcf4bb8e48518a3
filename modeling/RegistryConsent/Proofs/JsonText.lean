import Mathlib.Data.List.TakeDrop
import RegistryConsent.Json.Text
import RegistryConsent.Proofs.Digits

/-!
# JSON values are read from their texts

The text of a value is made of the tokens of the value, and the value is read from these. It is
therefore read back, unless numbers other than natural ones occur in it, whose literals are kept as
they were written.
-/

namespace RegistryConsent.Json

/-! ### Tokens are read as their value -/

mutual

/-- The tokens of a value. -/
def tokens : Json → List Token
  | .null => [.null]
  | .bool b => [.bool b]
  | .natural n => [.natural n]
  | .number literal => [.number literal]
  | .string s => [.string s]
  | .array items => .openArray :: itemTokens items
  | .object members => .openObject :: memberTokens members

/-- The tokens of the items of an array, with the closing one. -/
def itemTokens : List Json → List Token
  | [] => [.closeArray]
  | [x] => tokens x ++ [.closeArray]
  | x :: xs => tokens x ++ .comma :: itemTokens xs

/-- The tokens of the members of an object, with the closing one. -/
def memberTokens : List (Option String × Json) → List Token
  | [] => [.closeObject]
  | [(name, x)] => .string name :: .colon :: tokens x ++ [.closeObject]
  | (name, x) :: ms => .string name :: .colon :: tokens x ++ .comma :: memberTokens ms

end

/-- No value starts with a closing bracket. -/
theorem readValue_closeArray (steps : Nat) (ts : List Token) :
    readValue steps (.closeArray :: ts) = none := by
  cases steps <;> rfl

private theorem readItems_closeArray (steps : Nat) (ts : List Token) :
    readItems steps (.closeArray :: ts) = none := by
  cases steps with
  | zero => rfl
  | succ steps => rw [readItems, readValue_closeArray]

private theorem readMembers_closeObject (steps : Nat) (ts : List Token) :
    readMembers steps (.closeObject :: ts) = none := by
  cases steps <;> rfl

/-- An array is read when its items are. -/
theorem readValue_openArray {steps : Nat} {ts rest : List Token} {xs : List Json}
    (h : readItems steps ts = some (xs, rest)) :
    readValue (steps + 1) (.openArray :: ts) = some (.array xs, rest) := by
  have items : ∀ ts', ts ≠ .closeArray :: ts' := by
    rintro ts' rfl
    rw [readItems_closeArray] at h
    cases h
  rw [readValue, h]
  · rfl
  · exact items

/-- An object is read when its members are. -/
theorem readValue_openObject {steps : Nat} {ts rest : List Token} {ms : List (Option String × Json)}
    (h : readMembers steps ts = some (ms, rest)) :
    readValue (steps + 1) (.openObject :: ts) = some (.object ms, rest) := by
  have members : ∀ ts', ts ≠ .closeObject :: ts' := by
    rintro ts' rfl
    rw [readMembers_closeObject] at h
    cases h
  rw [readValue, h]
  · rfl
  · exact members

/-- The items of an array are read one after the other. -/
theorem readItems_comma {steps : Nat} {ts ts' rest : List Token} {x : Json} {xs : List Json}
    (first : readValue steps ts = some (x, .comma :: ts'))
    (others : readItems steps ts' = some (xs, rest)) :
    readItems (steps + 1) ts = some (x :: xs, rest) := by
  rw [readItems, first]
  dsimp only
  rw [others]
  rfl

/-- The last item of an array stands in front of the closing bracket. -/
theorem readItems_last {steps : Nat} {ts rest : List Token} {x : Json}
    (only : readValue steps ts = some (x, .closeArray :: rest)) :
    readItems (steps + 1) ts = some ([x], rest) := by
  rw [readItems, only]

/-- The members of an object are read one after the other. -/
theorem readMembers_comma {steps : Nat} {ts ts' rest : List Token} {x : Json}
    {ms : List (Option String × Json)} (name : Option String)
    (first : readValue steps ts = some (x, .comma :: ts'))
    (others : readMembers steps ts' = some (ms, rest)) :
    readMembers (steps + 1) (.string name :: .colon :: ts) = some ((name, x) :: ms, rest) := by
  rw [readMembers, first]
  dsimp only
  rw [others]
  rfl

/-- The last member of an object stands in front of the closing brace. -/
theorem readMembers_last {steps : Nat} {ts rest : List Token} {x : Json} (name : Option String)
    (only : readValue steps ts = some (x, .closeObject :: rest)) :
    readMembers (steps + 1) (.string name :: .colon :: ts) = some ([(name, x)], rest) := by
  rw [readMembers, only]

mutual

/-- A value is read from its tokens, each of which takes two steps at most. -/
theorem readValue_tokens (j : Json) (rest : List Token) {steps : Nat}
    (h : 2 * (tokens j).length ≤ steps) : readValue steps (tokens j ++ rest) = some (j, rest) := by
  cases steps with
  | zero => cases j <;> simp [tokens] at h
  | succ steps =>
    cases j with
    | null => rfl
    | bool b => rfl
    | natural n => rfl
    | number literal => rfl
    | string s => rfl
    | array items =>
      rw [tokens, List.length_cons] at h
      cases empty : items.isEmpty with
      | true =>
        rw [List.isEmpty_iff.mp empty]
        rfl
      | false => exact readValue_openArray (readItems_tokens items empty rest (by omega))
    | object members =>
      rw [tokens, List.length_cons] at h
      cases empty : members.isEmpty with
      | true =>
        rw [List.isEmpty_iff.mp empty]
        rfl
      | false => exact readValue_openObject (readMembers_tokens members empty rest (by omega))

/-- The items of an array are read from their tokens. -/
theorem readItems_tokens (xs : List Json) (some : xs.isEmpty = false) (rest : List Token)
    {steps : Nat} (h : 2 * (itemTokens xs).length ≤ steps) :
    readItems steps (itemTokens xs ++ rest) = .some (xs, rest) := by
  match xs with
  | [] => cases some
  | [x] =>
    rw [itemTokens, List.length_append, List.length_singleton] at h
    rw [itemTokens, List.append_assoc]
    obtain ⟨steps, rfl⟩ := Nat.exists_eq_add_of_le' (Nat.le_trans (by omega : 1 ≤ _) h)
    exact readItems_last (readValue_tokens x (.closeArray :: rest) (by omega))
  | x :: y :: xs =>
    rw [itemTokens, List.length_append, List.length_cons] at h
    · rw [itemTokens, List.append_assoc, List.cons_append]
      · obtain ⟨steps, rfl⟩ := Nat.exists_eq_add_of_le' (Nat.le_trans (by omega : 1 ≤ _) h)
        exact readItems_comma (readValue_tokens x _ (by omega))
          (readItems_tokens (y :: xs) rfl rest (by omega))
      · exact List.cons_ne_nil y xs
    · exact List.cons_ne_nil y xs

/-- The members of an object are read from their tokens. -/
theorem readMembers_tokens (ms : List (Option String × Json)) (some : ms.isEmpty = false)
    (rest : List Token) {steps : Nat} (h : 2 * (memberTokens ms).length ≤ steps) :
    readMembers steps (memberTokens ms ++ rest) = .some (ms, rest) := by
  match ms with
  | [] => cases some
  | [(name, x)] =>
    rw [memberTokens, List.length_append, List.length_cons, List.length_cons,
      List.length_singleton] at h
    rw [memberTokens, List.append_assoc]
    obtain ⟨steps, rfl⟩ := Nat.exists_eq_add_of_le' (Nat.le_trans (by omega : 1 ≤ _) h)
    exact readMembers_last name (readValue_tokens x (.closeObject :: rest) (by omega))
  | (name, x) :: m :: ms =>
    rw [memberTokens, List.length_append, List.length_cons, List.length_cons,
      List.length_cons] at h
    · rw [memberTokens, List.append_assoc, List.cons_append]
      · obtain ⟨steps, rfl⟩ := Nat.exists_eq_add_of_le' (Nat.le_trans (by omega : 1 ≤ _) h)
        exact readMembers_comma name (readValue_tokens x _ (by omega))
          (readMembers_tokens (m :: ms) rfl rest (by omega))
      · exact List.cons_ne_nil m ms
    · exact List.cons_ne_nil m ms

end

/-- The tokens of a value are read as the value. -/
theorem ofTokens?_tokens (j : Json) : ofTokens? (tokens j) = some j := by
  have read := readValue_tokens j [] (Nat.le_refl _)
  rw [List.append_nil] at read
  rw [ofTokens?, read]

/-! ### String literals -/

/-- The escape of a control character is read as the character. -/
private theorem control_table : ∀ n < 32,
    (Text.natOfHex? (hexFour n)).map pieceOfUnit = some (.char (Char.ofNat n)) := by decide

/-- A character is read from what is written for it. -/
theorem readPieces_renderChar (c : Char) (cs : List Char) :
    readPieces (renderChar c ++ cs) =
      (readPieces cs).map fun (ps, rest) => (.char c :: ps, rest) := by
  -- The escapes that name a character are read alike.
  have named {e : Char} (short : e ≠ 'u') (read : escaped? e = some c) :
      readPieces ('\\' :: e :: cs) =
        (readPieces cs).map fun (ps, rest) => (.char c :: ps, rest) := by
    rw [readPieces, read]
    · cases readPieces cs <;> rfl
    · rintro _ _ _ _ _ rfl
      exact absurd rfl short
  rw [renderChar]
  split
  · next mark => rcases mark with rfl | rfl <;> exact named (by decide) rfl
  split
  · next back => exact named (by decide) (back ▸ rfl)
  split
  · next feed => exact named (by decide) (feed ▸ rfl)
  split
  · next line => exact named (by decide) (line ▸ rfl)
  split
  · next turn => exact named (by decide) (turn ▸ rfl)
  split
  · next tab => exact named (by decide) (tab ▸ rfl)
  next notMark _ _ _ _ _ =>
  rw [not_or] at notMark
  split
  · next control =>
    obtain ⟨n, digits, piece⟩ := Option.map_eq_some_iff.mp (control_table c.toNat control)
    rw [Char.ofNat_toNat] at piece
    simp only [hexFour, List.map_cons, List.map_nil] at digits ⊢
    rw [List.cons_append, List.cons_append, List.cons_append, List.cons_append, List.cons_append,
      List.cons_append, List.nil_append, readPieces, digits]
    cases readPieces cs with
    | none => rfl
    | some read => exact congrArg (fun p => some (p :: read.1, read.2)) piece
  · next plain =>
    rw [List.singleton_append, readPieces]
    · cases readPieces cs <;> simp [plain, notMark.2]
    · exact notMark.1
    · exact fun _ _ _ _ _ back _ => notMark.2 back
    · exact fun _ _ back _ => notMark.2 back

/-- A literal is read up to its closing quote. -/
theorem readPieces_flatMap (cs rest : List Char) :
    readPieces (cs.flatMap renderChar ++ '\x22' :: rest) = some (cs.map .char, rest) := by
  induction cs with
  | nil => rfl
  | cons c cs ih =>
    rw [List.flatMap_cons, List.append_assoc, readPieces_renderChar, ih]
    rfl

/-- Characters make up a text. -/
theorem textOfPieces?_map_char (cs : List Char) : textOfPieces? (cs.map .char) = some cs := by
  induction cs with
  | nil => rfl
  | cons c cs ih =>
    rw [List.map_cons, textOfPieces?, ih]
    rfl

/-- A string is read from its literal. -/
theorem readToken_renderString (s : Option String) (rest : List Char) :
    readToken (renderString s ++ rest) = some (.string s, rest) := by
  cases s with
  | none => rfl
  | some s =>
    have literal : renderString (some s) ++ rest =
        '\x22' :: (s.toList.flatMap renderChar ++ '\x22' :: rest) := by
      simp [renderString]
    rw [literal, readToken, readPieces_flatMap]
    dsimp only [Option.map_some]
    rw [textOfPieces?_map_char, Option.map_some, String.ofList_toList]

/-! ### Numbers -/

/-- What follows a number must not go on with it. -/
def EndsNumber (rest : List Char) : Prop :=
  ∀ c ∈ rest.head?, c.isDigit = false ∧ c ≠ '.' ∧ c ≠ 'e' ∧ c ≠ 'E'

private theorem span_digits {ds rest : List Char} (digits : ∀ c ∈ ds, c.isDigit = true)
    (ends : EndsNumber rest) : (ds ++ rest).span Char.isDigit = (ds, rest) := by
  have none : rest.takeWhile Char.isDigit = [] ∧ rest.dropWhile Char.isDigit = rest := by
    cases rest with
    | nil => exact ⟨rfl, rfl⟩
    | cons c rest =>
      have other := (ends c rfl).1
      exact ⟨List.takeWhile_cons_of_neg (by simp [other]),
        List.dropWhile_cons_of_neg (by simp [other])⟩
  rw [List.span_eq_takeWhile_dropWhile, List.takeWhile_append_of_pos digits,
    List.dropWhile_append_of_pos digits, none.1, none.2, List.append_nil]

/-- The digits of a number are read up to what does not go on with it. -/
theorem readWhole_toDigits (n : Nat) {rest : List Char} (ends : EndsNumber rest) :
    readWhole (Nat.toDigits 10 n ++ rest) = some (Nat.toDigits 10 n, rest) := by
  have alone :
      ((Nat.toDigits 10 n).head? == some '0' && (Nat.toDigits 10 n).length != 1) = false := by
    by_contra zero
    rw [Bool.not_eq_false, Bool.and_eq_true, beq_iff_eq] at zero
    rw [Text.eq_zero_of_head?_toDigits zero.1] at zero
    exact absurd zero.2 (by decide)
  have some : (Nat.toDigits 10 n).isEmpty = false := by simp
  rw [readWhole, span_digits (Text.isDigit_toDigits n) ends]
  dsimp only
  rw [alone, some]
  rfl

private theorem readFraction_of_endsNumber {rest : List Char} (ends : EndsNumber rest) :
    readFraction rest = some ([], rest) := by
  rw [readFraction]
  rintro cs rfl
  exact absurd rfl (ends '.' rfl).2.1

private theorem readExponent_of_endsNumber {rest : List Char} (ends : EndsNumber rest) :
    readExponent rest = some ([], rest) := by
  cases rest with
  | nil => rfl
  | cons c rest =>
    obtain ⟨-, -, small, capital⟩ := ends c rfl
    unfold readExponent
    exact if_neg (by simp [small, capital])

/-- A token that starts with a digit is a number. -/
theorem readToken_digit {c : Char} (digit : c.isDigit = true) (cs : List Char) :
    readToken (c :: cs) = readUnsigned (c :: cs) := by
  unfold readToken
  split
  all_goals first
    | rfl
    | next same => cases same; cases digit

/-- A natural number is read from its digits, up to what does not go on with it. -/
theorem readToken_toDigits (n : Nat) {rest : List Char} (ends : EndsNumber rest) :
    readToken (Nat.toDigits 10 n ++ rest) = some (.natural n, rest) := by
  have read : readUnsigned (Nat.toDigits 10 n ++ rest) = some (.natural n, rest) := by
    rw [readUnsigned, readWhole_toDigits n ends]
    simp [readFraction_of_endsNumber ends, readExponent_of_endsNumber ends]
  obtain ⟨c, cs, digits⟩ := List.exists_cons_of_ne_nil (Nat.toDigits_ne_nil (n := n) (b := 10))
  have digit : c.isDigit = true := Text.isDigit_toDigits n c (digits ▸ List.mem_cons_self)
  rw [← read, digits, List.cons_append, readToken_digit digit]

/-! ### A text is scanned as its tokens -/

/-- Some characters, and none that go on with a number behind them, are scanned as some tokens.
There are enough characters for one each. -/
structure Lexes (cs : List Char) (ts : List Token) : Prop where
  length_le : ts.length ≤ cs.length
  scan {rest : List Char} (ends : EndsNumber rest) (limit : Nat) :
    scanUpTo (limit + ts.length) (cs ++ rest) = (scanUpTo limit rest).map (ts ++ ·)

/-- One token is scanned in each step. -/
theorem scanUpTo_token {c : Char} {cs rest : List Char} {t : Token} (visible : isGap c = false)
    (read : readToken (c :: cs) = some (t, rest)) (limit : Nat) :
    scanUpTo (limit + 1) (c :: cs) = (scanUpTo limit rest).map (t :: ·) := by
  have start : (c :: cs).dropWhile isGap = c :: cs :=
    List.dropWhile_cons_of_neg (by simp [visible])
  rw [scanUpTo, start]
  dsimp only
  rw [read, Option.bind_eq_bind, Option.bind_some]
  cases scanUpTo limit rest <;> rfl

/-- Whole characters are the tokens that they are scanned as. -/
theorem Lexes.scan_eq {cs : List Char} {ts : List Token} (h : Lexes cs ts) :
    Json.scan cs = some ts := by
  have ends : EndsNumber [] := nofun
  have none (limit : Nat) : scanUpTo limit [] = some [] := by cases limit <;> rfl
  have whole := h.scan ends (cs.length - ts.length)
  rw [Nat.sub_add_cancel h.length_le, List.append_nil, none] at whole
  rw [Json.scan, whole]
  exact congrArg some (List.append_nil ts)

/-- Characters that are read as one token are scanned as this token. -/
theorem Lexes.token {c : Char} {cs : List Char} {t : Token} (visible : isGap c = false)
    (read : ∀ rest, EndsNumber rest → readToken (c :: cs ++ rest) = some (t, rest)) :
    Lexes (c :: cs) [t] where
  length_le := Nat.succ_le_succ (Nat.zero_le _)
  scan ends limit := scanUpTo_token visible (read _ ends) limit

/-- A character that is a token by itself, and does not go on with a number. -/
structure IsMark (m : Char) (t : Token) : Prop where
  read (rest : List Char) : readToken (m :: rest) = some (t, rest)
  visible : isGap m = false
  ends : m.isDigit = false ∧ m ≠ '.' ∧ m ≠ 'e' ∧ m ≠ 'E'

/-- No characters are scanned as no tokens. -/
theorem Lexes.nil : Lexes [] [] where
  length_le := Nat.le_refl _
  scan {rest} _ limit := (Option.map_id' (x := scanUpTo limit rest)).symm

/-- A mark in front of a text is a token in front of those of the text. -/
theorem Lexes.cons {m : Char} {t : Token} (mark : IsMark m t) {cs : List Char} {ts : List Token}
    (h : Lexes cs ts) : Lexes (m :: cs) (t :: ts) where
  length_le := Nat.succ_le_succ h.length_le
  scan {rest} ends limit := by
    rw [List.length_cons, ← Nat.add_assoc, List.cons_append,
      scanUpTo_token mark.visible (mark.read _), h.scan ends, Option.map_map]
    rfl

/-- Two texts with a mark in between are scanned one after the other. -/
theorem Lexes.append_cons {cs ds : List Char} {ts us : List Token} {m : Char} {t : Token}
    (h : Lexes cs ts) (mark : IsMark m t) (h' : Lexes ds us) :
    Lexes (cs ++ m :: ds) (ts ++ t :: us) where
  length_le := by
    have behind := (h'.cons mark).length_le
    have front := h.length_le
    rw [List.length_append, List.length_append]
    omega
  scan {rest} ends limit := by
    have next : EndsNumber (m :: ds ++ rest) := by
      rintro _ ⟨⟩
      exact mark.ends
    rw [List.length_append, Nat.add_comm ts.length, ← Nat.add_assoc, List.append_assoc,
      h.scan next, (h'.cons mark).scan ends, Option.map_map]
    congr 1
    funext us'
    simp

private theorem isMark_openArray : IsMark '[' .openArray := ⟨fun _ => rfl, rfl, by decide⟩

private theorem isMark_closeArray : IsMark ']' .closeArray := ⟨fun _ => rfl, rfl, by decide⟩

private theorem isMark_openObject : IsMark '\x7b' .openObject := ⟨fun _ => rfl, rfl, by decide⟩

private theorem isMark_closeObject : IsMark '\x7d' .closeObject := ⟨fun _ => rfl, rfl, by decide⟩

private theorem isMark_comma : IsMark ',' .comma := ⟨fun _ => rfl, rfl, by decide⟩

private theorem isMark_colon : IsMark ':' .colon := ⟨fun _ => rfl, rfl, by decide⟩

/-- The numbers of a value are natural ones. -/
inductive Plain : Json → Prop
  | null : Plain .null
  | bool (b : Bool) : Plain (.bool b)
  | natural (n : Nat) : Plain (.natural n)
  | string (s : Option String) : Plain (.string s)
  | array {items : List Json} (h : ∀ x ∈ items, Plain x) : Plain (.array items)
  | object {members : List (Option String × Json)} (h : ∀ m ∈ members, Plain m.2) :
      Plain (.object members)

/-- The literal of a string is scanned as the string. -/
theorem lexes_renderString (s : Option String) : Lexes (renderString s) [.string s] := by
  obtain ⟨cs, literal⟩ : ∃ cs, renderString s = '\x22' :: cs := by
    cases s <;> exact ⟨_, rfl⟩
  rw [literal]
  refine .token rfl fun rest _ => ?_
  rw [← literal]
  exact readToken_renderString s rest

/-- The digits of a number are scanned as the number. -/
theorem lexes_toDigits (n : Nat) : Lexes (Nat.toDigits 10 n) [.natural n] := by
  obtain ⟨c, cs, digits⟩ := List.exists_cons_of_ne_nil (Nat.toDigits_ne_nil (n := n) (b := 10))
  have digit : c.isDigit = true := Text.isDigit_toDigits n c (digits ▸ List.mem_cons_self)
  have visible : isGap c = false := by
    by_contra gap
    rw [Bool.not_eq_false, isGap] at gap
    simp only [Bool.or_eq_true, beq_iff_eq] at gap
    rcases gap with ((rfl | rfl) | rfl) | rfl <;> cases digit
  rw [digits]
  refine .token visible fun rest ends => ?_
  rw [← digits]
  exact readToken_toDigits n ends

mutual

/-- The text of a value is scanned as the tokens of the value. -/
theorem lexes_render (j : Json) (plain : Plain j) : Lexes (render j) (tokens j) := by
  cases j with
  | null => exact .token rfl fun _ _ => rfl
  | bool b => cases b <;> exact .token rfl fun _ _ => rfl
  | natural n => exact lexes_toDigits n
  | number literal => cases plain
  | string s => exact lexes_renderString s
  | array items =>
    have items_plain : ∀ x ∈ items, Plain x := by
      cases plain with
      | array h => exact h
    exact .cons isMark_openArray (lexes_renderItems items items_plain)
  | object members =>
    have members_plain : ∀ m ∈ members, Plain m.2 := by
      cases plain with
      | object h => exact h
    exact .cons isMark_openObject (lexes_renderMembers members members_plain)

/-- The text of the items of an array is scanned as their tokens. -/
theorem lexes_renderItems (xs : List Json) (plain : ∀ x ∈ xs, Plain x) :
    Lexes (renderItems xs) (itemTokens xs) := by
  match xs with
  | [] => exact .cons isMark_closeArray .nil
  | [x] =>
    have only := lexes_render x (plain x List.mem_cons_self)
    exact only.append_cons isMark_closeArray .nil
  | x :: y :: xs =>
    have first := lexes_render x (plain x List.mem_cons_self)
    have others := lexes_renderItems (y :: xs) fun z hz => plain z (List.mem_cons_of_mem x hz)
    exact first.append_cons isMark_comma others

/-- The text of the members of an object is scanned as their tokens. -/
theorem lexes_renderMembers (ms : List (Option String × Json)) (plain : ∀ m ∈ ms, Plain m.2) :
    Lexes (renderMembers ms) (memberTokens ms) := by
  match ms with
  | [] => exact .cons isMark_closeObject .nil
  | [(name, x)] =>
    have only := lexes_render x (plain (name, x) List.mem_cons_self)
    have member := (lexes_renderString name).append_cons isMark_colon only
    exact member.append_cons isMark_closeObject .nil
  | (name, x) :: m :: ms =>
    have first := lexes_render x (plain (name, x) List.mem_cons_self)
    have member := (lexes_renderString name).append_cons isMark_colon first
    have others := lexes_renderMembers (m :: ms) fun n hn => plain n (List.mem_cons_of_mem _ hn)
    exact member.append_cons isMark_comma others

end

/-- A value is read back from its text. -/
theorem parse?_toText {j : Json} (plain : Plain j) : parse? j.toText = some j := by
  rw [parse?, toText, String.toList_ofList, (lexes_render j plain).scan_eq, Option.bind_some,
    ofTokens?_tokens]

end RegistryConsent.Json
