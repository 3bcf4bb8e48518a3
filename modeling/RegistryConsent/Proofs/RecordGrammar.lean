import Mathlib.Data.List.Forall2
import Mathlib.Logic.Relation
import RegistryConsent.Proofs.RecordText
import RegistryConsent.Proofs.Words

/-!
# The grammar of records

A text stands for a record when its first significant line gives the type and the key and each other
one gives an attribute. A text that stands for none is refused for the first fault in the order of
its lines. What is not significant, namely comments, blank lines, blanks at the ends of lines and
the way in which lines are closed, makes no difference to the outcome.
-/

namespace RegistryConsent

namespace ObjectType

/-- The names of types are in lower case. -/
theorem foldCase_name (t : ObjectType) : foldCase t.name = t.name.toList := by
  cases t <;> decide

/-- A text stands for a type when it is the name of the type, up to blanks at its ends and case. -/
theorem ofName_eq_ok_iff {s : String} {t : ObjectType} :
    ofName s = .ok t ↔ foldCase t.name = foldCase (Text.trim s) := by
  refine ⟨foldCase_name_of_ofName, fun same => ?_⟩
  rw [ofName]
  cases found : all.find? fun t : ObjectType => foldCase t.name == foldCase (Text.trim s) with
  | none => exact absurd (beq_iff_eq.mpr same) (List.find?_eq_none.mp found t t.mem_all)
  | some u =>
    have same' := List.find?_some found
    rw [beq_iff_eq, ← same, foldCase_name, foldCase_name, String.toList_inj, name_inj] at same'
    rw [same']

/-- A text that is the name of no type is refused as it is. -/
theorem ofName_eq_error_iff {s : String} {e : InputError} :
    ofName s = .error e ↔
      (∀ t : ObjectType, foldCase t.name ≠ foldCase (Text.trim s)) ∧ e = .unknownObjectType s := by
  have known (t : ObjectType) : foldCase t.name ≠ foldCase (Text.trim s) ↔ ofName s ≠ .ok t :=
    not_congr ofName_eq_ok_iff.symm
  simp only [known]
  rw [ofName]
  cases all.find? fun t : ObjectType => foldCase t.name == foldCase (Text.trim s) with
  | none => simp [eq_comm]
  | some t => simp

end ObjectType

namespace Record

open Text

/-! ### Lines -/

/-- A line gives a name and a value: what stands in front of its first colon and behind it, without
the blanks at the ends. The name is not empty. -/
def Gives (line name value : List Char) : Prop :=
  ∃ a b, line = a ++ ':' :: b ∧ ':' ∉ a ∧ strip a = name ∧ strip b = value ∧ name ≠ []

/-- A line gives the name of a type in any case, and a key. -/
def Heads (line : List Char) (t : ObjectType) (key : List Char) : Prop :=
  ∃ name, Gives line name key ∧ name.map Char.toLower = foldCase t.name ∧ key ≠ []

/-- What is wrong with a line that gives no name. -/
inductive LineFault : List Char → RecordFault → Prop where
  /-- There is no colon. -/
  | notAttribute {line} (uncut : ':' ∉ line) : LineFault line (.notAttribute (.ofList line))
  /-- There are only blanks in front of the first colon. -/
  | emptyName {a b} (uncut : ':' ∉ a) (blank : AllBlank a) :
      LineFault (a ++ ':' :: b) (.emptyName (.ofList (a ++ ':' :: b)))

/-- Lines stand for a record: the first gives its type and key, and each other one an attribute. -/
def StandFor (lines : List (List Char)) (r : Record) : Prop :=
  ∃ first rest, lines = first :: rest ∧ Heads first r.objectType r.key.spelling.toList ∧
    List.Forall₂ (fun line a => Gives line a.name.spelling.toList a.value.toList) rest r.attributes

/-- The first fault in the order of the lines, that of the type and that of the key belonging to the
first line. -/
inductive FirstFault : List (List Char) → InputError → Prop where
  | empty : FirstFault [] (.malformedRecord .empty)
  | firstLine {first rest fault} (bad : LineFault first fault) :
      FirstFault (first :: rest) (.malformedRecord fault)
  | unknownType {first rest name value} (gives : Gives first name value)
      (unknown : ∀ t : ObjectType, name.map Char.toLower ≠ foldCase t.name) :
      FirstFault (first :: rest) (.unknownObjectType (.ofList name))
  | missingKey {first rest name} {t : ObjectType} (gives : Gives first name [])
      (known : name.map Char.toLower = foldCase t.name) :
      FirstFault (first :: rest) (.malformedRecord .missingKey)
  | laterLine {first before line after t key fault} (heads : Heads first t key)
      (passed : ∀ l ∈ before, ∃ name value, Gives l name value) (bad : LineFault line fault) :
      FirstFault (first :: (before ++ line :: after)) (.malformedRecord fault)

/-- A line is read as the name and the value that it gives. -/
theorem readLine_eq_ok_iff_gives {line name value : List Char} :
    readLine line = .ok (name, value) ↔ Gives line name value := by
  rw [readLine_eq_ok_iff]
  constructor
  · rintro ⟨a, b, rfl, uncut, named, same⟩
    obtain ⟨rfl, rfl⟩ := Prod.mk.inj same
    exact ⟨a, b, rfl, uncut, rfl, rfl, named⟩
  · rintro ⟨a, b, rfl, uncut, rfl, rfl, named⟩
    exact ⟨a, b, rfl, uncut, named, rfl⟩

/-- A line is refused for what is wrong with it. -/
theorem readLine_eq_error_iff {line : List Char} {e : InputError} :
    readLine line = .error e ↔ ∃ fault, LineFault line fault ∧ e = .malformedRecord fault := by
  rw [readLine]
  constructor
  · intro h
    split at h
    · next uncut =>
      exact ⟨_, .notAttribute (cut?_eq_none_iff.mp uncut), (Except.error.inj h).symm⟩
    · next a b cut =>
      obtain ⟨uncut, rfl⟩ := cut?_eq_some_iff.mp cut
      split at h
      · next blank =>
        have blank : AllBlank a := strip_eq_nil_iff.mp (List.isEmpty_iff.mp blank)
        exact ⟨_, .emptyName uncut blank, (Except.error.inj h).symm⟩
      · cases h
  · rintro ⟨fault, bad, rfl⟩
    cases bad with
    | notAttribute uncut => rw [cut?_eq_none_iff.mpr uncut]
    | emptyName uncut blank =>
      rw [cut?_eq_some_iff.mpr ⟨uncut, rfl⟩]
      exact if_pos (List.isEmpty_iff.mpr (strip_eq_nil_iff.mpr blank))

/-- A line is read as the attribute whose name and value it gives. -/
theorem readAttribute_eq_ok_iff_gives {line : List Char} {a : Attribute} :
    readAttribute line = .ok a ↔ Gives line a.name.spelling.toList a.value.toList := by
  rw [readAttribute_eq_ok_iff]
  exact readLine_eq_ok_iff_gives

/-- A line is refused as an attribute as it is as a line. -/
theorem readAttribute_eq_error_iff {line : List Char} {e : InputError} :
    readAttribute line = .error e ↔ readLine line = .error e := by
  rw [readAttribute, bind_eq_error_iff]
  refine or_iff_left ?_
  rintro ⟨field, -, h⟩
  cases h

/-- A line gives an attribute when it gives a name and a value. -/
theorem exists_readAttribute_iff {line : List Char} :
    (∃ a, readAttribute line = .ok a) ↔ ∃ name value, Gives line name value := by
  simp only [readAttribute_eq_ok_iff_gives]
  constructor
  · rintro ⟨a, gives⟩
    exact ⟨_, _, gives⟩
  · rintro ⟨name, value, gives⟩
    exact ⟨⟨⟨.ofList name⟩, .ofList value⟩, by simpa only [String.toList_ofList] using gives⟩

/-- The name that a line gives stands for a type when it is the name of the type up to case. -/
theorem ofName_eq_ok_iff_of_gives {line name value : List Char} (gives : Gives line name value)
    (t : ObjectType) :
    ObjectType.ofName (.ofList name) = .ok t ↔ name.map Char.toLower = foldCase t.name := by
  obtain ⟨a, b, -, -, rfl, -, -⟩ := gives
  rw [ObjectType.ofName_eq_ok_iff, trim, String.toList_ofList, strip_strip, foldCase_ofList,
    eq_comm]

/-- The name that a line gives is unknown when it is the name of no type up to case. -/
theorem ofName_eq_error_iff_of_gives {line name value : List Char} (gives : Gives line name value)
    {e : InputError} :
    ObjectType.ofName (.ofList name) = .error e ↔
      (∀ t : ObjectType, name.map Char.toLower ≠ foldCase t.name) ∧
        e = .unknownObjectType (.ofList name) := by
  simp only [ObjectType.ofName_eq_error_iff, ← ofName_eq_ok_iff_of_gives gives,
    ObjectType.ofName_eq_ok_iff, ne_eq]

/-! ### Records -/

/-- Lines are read as the attributes whose names and values they give. -/
theorem mapM_readAttribute_eq_ok_iff {lines : List (List Char)} {attributes : List Attribute} :
    lines.mapM readAttribute = .ok attributes ↔
      List.Forall₂ (fun line a => Gives line a.name.spelling.toList a.value.toList) lines
        attributes := by
  rw [mapM_eq_ok_iff, ← List.forall₂_eq_eq_eq, List.forall₂_map_left_iff,
    List.forall₂_map_right_iff]
  simp only [readAttribute_eq_ok_iff_gives]

/-- A record is read from the lines that stand for it. -/
theorem ofLines_eq_ok_iff_standFor {lines : List (List Char)} {r : Record} :
    ofLines lines = .ok r ↔ StandFor lines r := by
  rw [ofLines_eq_ok_iff]
  constructor
  · rintro ⟨keyed, first, rest, name, rfl, read, type, others⟩
    have gives := readLine_eq_ok_iff_gives.mp read
    refine ⟨first, rest, rfl, ⟨name, gives, ?_, ?_⟩, ?_⟩
    · exact (ofName_eq_ok_iff_of_gives gives _).mp type
    · exact mt String.toList_eq_nil_iff.mp keyed
    · exact mapM_readAttribute_eq_ok_iff.mp (mapM_eq_ok_iff.mpr others)
  · rintro ⟨first, rest, rfl, ⟨name, gives, type, keyed⟩, others⟩
    refine ⟨mt String.toList_eq_nil_iff.mpr keyed, first, rest, name, rfl, ?_, ?_, ?_⟩
    · exact readLine_eq_ok_iff_gives.mpr gives
    · exact (ofName_eq_ok_iff_of_gives gives _).mpr type
    · exact mapM_eq_ok_iff.mp (mapM_readAttribute_eq_ok_iff.mpr others)

/-- Lines stand for some record when the first gives a type and a key and each other one a name and
a value. -/
theorem exists_standFor_iff {lines : List (List Char)} :
    (∃ r, StandFor lines r) ↔ ∃ first rest, lines = first :: rest ∧ (∃ t key, Heads first t key) ∧
      ∀ line ∈ rest, ∃ name value, Gives line name value := by
  simp only [← exists_readAttribute_iff, ← exists_mapM_eq_ok_iff, mapM_readAttribute_eq_ok_iff]
  constructor
  · rintro ⟨r, first, rest, rfl, heads, others⟩
    exact ⟨first, rest, rfl, ⟨_, _, heads⟩, _, others⟩
  · rintro ⟨first, rest, rfl, ⟨t, key, heads⟩, attributes, others⟩
    refine ⟨⟨t, ⟨.ofList key⟩, attributes⟩, first, rest, rfl, ?_, others⟩
    simpa only [String.toList_ofList] using heads

/-- The checks of the first line come one after the other, and those of the other lines behind
them. -/
theorem ofLines_cons_eq_error_iff {first : List Char} {rest : List (List Char)} {e : InputError} :
    ofLines (first :: rest) = .error e ↔ readLine first = .error e ∨
      ∃ name key, Gives first name key ∧ (ObjectType.ofName (.ofList name) = .error e ∨
        ∃ t, ObjectType.ofName (.ofList name) = .ok t ∧
          (key = [] ∧ e = .malformedRecord .missingKey ∨
            key ≠ [] ∧ rest.mapM readAttribute = .error e)) := by
  rw [ofLines, bind_eq_error_iff, Prod.exists]
  simp only [readLine_eq_ok_iff_gives, bind_eq_error_iff, List.isEmpty_iff]
  refine or_congr_right (exists_congr fun name => exists_congr fun key => ?_)
  refine and_congr_right' (or_congr_right (exists_congr fun t => and_congr_right' ?_))
  by_cases keyed : key = []
  · rw [if_pos keyed]
    constructor
    · intro h
      cases h
      exact .inl ⟨keyed, rfl⟩
    · rintro (⟨-, rfl⟩ | ⟨other, -⟩)
      · rfl
      · exact absurd keyed other
  · rw [if_neg keyed]
    constructor
    · intro h
      rcases bind_eq_error_iff.mp h with h | ⟨_, -, h⟩
      · exact .inr ⟨keyed, h⟩
      · cases h
    · rintro (⟨none, -⟩ | ⟨-, h⟩)
      · exact absurd none keyed
      · exact bind_eq_error_iff.mpr (.inl h)

/-- Lines are refused for their first fault. -/
theorem ofLines_eq_error_iff {lines : List (List Char)} {e : InputError} :
    ofLines lines = .error e ↔ FirstFault lines e := by
  cases lines with
  | nil =>
    constructor
    · rintro ⟨⟩
      exact .empty
    · rintro ⟨⟩
      rfl
  | cons first rest =>
    rw [ofLines_cons_eq_error_iff]
    constructor
    · rintro (h | ⟨name, key, gives, h | ⟨t, type, ⟨rfl, rfl⟩ | ⟨keyed, h⟩⟩⟩)
      · obtain ⟨fault, bad, rfl⟩ := readLine_eq_error_iff.mp h
        exact .firstLine bad
      · obtain ⟨unknown, rfl⟩ := (ofName_eq_error_iff_of_gives gives).mp h
        exact .unknownType gives unknown
      · exact .missingKey gives ((ofName_eq_ok_iff_of_gives gives t).mp type)
      · obtain ⟨before, line, after, rfl, passed, h⟩ := mapM_eq_error_iff.mp h
        obtain ⟨fault, bad, rfl⟩ := readLine_eq_error_iff.mp (readAttribute_eq_error_iff.mp h)
        have known := (ofName_eq_ok_iff_of_gives gives t).mp type
        refine .laterLine ⟨name, gives, known, keyed⟩ (fun l hl => ?_) bad
        exact exists_readAttribute_iff.mp (passed l hl)
    · intro h
      cases h with
      | firstLine bad => exact .inl (readLine_eq_error_iff.mpr ⟨_, bad, rfl⟩)
      | unknownType gives unknown =>
        exact .inr ⟨_, _, gives, .inl ((ofName_eq_error_iff_of_gives gives).mpr ⟨unknown, rfl⟩)⟩
      | missingKey gives known =>
        have type := (ofName_eq_ok_iff_of_gives gives _).mpr known
        exact .inr ⟨_, _, gives, .inr ⟨_, type, .inl ⟨rfl, rfl⟩⟩⟩
      | laterLine heads passed bad =>
        obtain ⟨name, gives, known, keyed⟩ := heads
        have type := (ofName_eq_ok_iff_of_gives gives _).mpr known
        refine .inr ⟨_, _, gives, .inr ⟨_, type, .inr ⟨keyed, mapM_eq_error_iff.mpr ?_⟩⟩⟩
        refine ⟨_, _, _, rfl, fun l hl => exists_readAttribute_iff.mpr (passed l hl), ?_⟩
        exact readAttribute_eq_error_iff.mpr (readLine_eq_error_iff.mpr ⟨_, bad, rfl⟩)

/-! ### What is not significant -/

/-- A text of the given lines. -/
def joinLines (lines : List (List Char)) : List Char := ['\n'].intercalate lines

/-- A comment or a blank line. -/
def Skipped (line : List Char) : Prop :=
  '\n' ∉ line ∧ (AllBlank line ∨ line.head? = some '#')

/-- Changes of a text that leave what is significant as it is. -/
inductive Reformatted : List Char → List Char → Prop where
  /-- A comment or a blank line comes in. -/
  | insert (above below : List (List Char)) {line : List Char} (skipped : Skipped line) :
      Reformatted (joinLines (above ++ below)) (joinLines (above ++ line :: below))
  /-- A line gets blanks at its end. -/
  | trail (above below : List (List Char)) {line blanks : List Char} (oneLine : '\n' ∉ line)
      (oneLine' : '\n' ∉ blanks) (blank : AllBlank blanks) :
      Reformatted (joinLines (above ++ line :: below))
        (joinLines (above ++ (line ++ blanks) :: below))
  /-- All lines are closed by carriage return and line feed. -/
  | crlf {lines : List (List Char)} (oneLine : ∀ line ∈ lines, '\n' ∉ line) :
      Reformatted (joinLines lines) (['\r', '\n'].intercalate lines)

/-- The significant lines are found on either side of a line feed. -/
theorem significantLines_append_cons (a b : List Char) :
    significantLines (a ++ '\n' :: b) = significantLines a ++ significantLines b := by
  rw [significantLines, significantLines, significantLines, List.splitOn_append_cons_self,
    List.map_append, List.filter_append]

/-- The significant lines of a text are those of its lines. -/
theorem significantLines_joinLines (lines : List (List Char)) :
    significantLines (joinLines lines) = lines.flatMap significantLines := by
  induction lines with
  | nil => rfl
  | cons line lines ih =>
    cases lines with
    | nil => simp [joinLines, List.intercalate]
    | cons next lines =>
      have first : joinLines (line :: next :: lines) =
          line ++ '\n' :: joinLines (next :: lines) := by
        simp [joinLines, List.intercalate, List.intersperse]
      rw [first, significantLines_append_cons, ih]
      rfl

/-- A single line is significant when it is not blank and no comment. -/
theorem significantLines_of_oneLine {line : List Char} (oneLine : '\n' ∉ line) :
    significantLines line =
      [dropBlanksEnd line].filter fun l => !l.isEmpty && l.head? != some '#' := by
  rw [significantLines, List.splitOn_eq_singleton oneLine]
  rfl

/-- A line is as significant with more blanks at its end. -/
theorem significantLines_append_of_allBlank {line blanks : List Char} (oneLine : '\n' ∉ line)
    (oneLine' : '\n' ∉ blanks) (blank : AllBlank blanks) :
    significantLines (line ++ blanks) = significantLines line := by
  have whole : '\n' ∉ line ++ blanks := by simp [oneLine, oneLine']
  rw [significantLines_of_oneLine whole, significantLines_of_oneLine oneLine,
    dropBlanksEnd_append blank]

/-- A comment or a blank line is not significant. -/
theorem Skipped.significantLines_eq {line : List Char} (h : Skipped line) :
    significantLines line = [] := by
  obtain ⟨oneLine, blank | comment⟩ := h
  · rw [significantLines_of_oneLine oneLine, dropBlanksEnd_eq_nil_iff.mpr blank]
    rfl
  · obtain ⟨rest, rfl⟩ := List.head?_eq_some_iff.mp comment
    have kept : dropBlanksEnd ('#' :: rest) = '#' :: dropBlanksEnd rest :=
      dropBlanksEnd_append_cons rfl [] rest
    rw [significantLines_of_oneLine oneLine, kept]
    rfl

/-- Lines that are closed in another way are as significant. -/
theorem significantLines_crlf {lines : List (List Char)} (oneLine : ∀ line ∈ lines, '\n' ∉ line) :
    significantLines (['\r', '\n'].intercalate lines) = lines.flatMap significantLines := by
  induction lines with
  | nil => rfl
  | cons line lines ih =>
    obtain ⟨here, rest⟩ := List.forall_mem_cons.mp oneLine
    cases lines with
    | nil => simp [List.intercalate]
    | cons next lines =>
      have first : ['\r', '\n'].intercalate (line :: next :: lines) =
          (line ++ ['\r']) ++ '\n' :: ['\r', '\n'].intercalate (next :: lines) := by
        simp [List.intercalate, List.intersperse]
      have trailing : AllBlank ['\r'] := List.all_eq_true.mp rfl
      rw [first, significantLines_append_cons, ih rest,
        significantLines_append_of_allBlank here (by decide) trailing]
      rfl

/-- What is changed in this way keeps its significant lines. -/
theorem Reformatted.significantLines_eq {s t : List Char} (h : Reformatted s t) :
    significantLines s = significantLines t := by
  cases h with
  | insert above below skipped =>
    simp only [significantLines_joinLines, List.flatMap_append, List.flatMap_cons,
      skipped.significantLines_eq, List.nil_append]
  | trail above below oneLine oneLine' blank =>
    simp only [significantLines_joinLines, List.flatMap_append, List.flatMap_cons,
      significantLines_append_of_allBlank oneLine oneLine' blank]
  | crlf oneLine => rw [significantLines_joinLines, significantLines_crlf oneLine]

/-- Any number of changes, made or undone, keep the significant lines. -/
theorem significantLines_of_reformatted {s t : List Char}
    (h : Relation.EqvGen Reformatted s t) : significantLines s = significantLines t := by
  induction h with
  | rel _ _ h => exact h.significantLines_eq
  | refl => rfl
  | symm _ _ _ ih => exact ih.symm
  | trans _ _ _ _ _ ih ih' => exact ih.trans ih'

/-- A record is read from a text exactly when the significant lines stand for it, which they do for
some record when there is a first one that gives a type and a key and each of the others gives a
name and a value. The error is the first fault in the order of the lines. The outcome is the same
when comments and blank lines come in or go, blanks at the ends of lines come in or go, or the lines
are closed in another way. -/
theorem parse_by_grammar :
    (∀ (s : String) (r : Record), parse s = .ok r ↔ StandFor (significantLines s.toList) r) ∧
    (∀ s : String, (∃ r, parse s = .ok r) ↔ ∃ first rest,
      significantLines s.toList = first :: rest ∧ (∃ t key, Heads first t key) ∧
        ∀ line ∈ rest, ∃ name value, Gives line name value) ∧
    (∀ (s : String) (e : InputError), parse s = .error e ↔
      FirstFault (significantLines s.toList) e) ∧
    ∀ s t : String, Relation.EqvGen Reformatted s.toList t.toList → parse s = parse t := by
  refine ⟨fun s r => ofLines_eq_ok_iff_standFor, fun s => ?_, fun s e => ofLines_eq_error_iff, ?_⟩
  · simp only [parse, ofLines_eq_ok_iff_standFor]
    exact exists_standFor_iff
  · intro s t h
    rw [parse, parse, significantLines_of_reformatted h]

/-- A person with one attribute. -/
private def maintained : Record :=
  { objectType := .person, key := ⟨"JD1-TEST"⟩, attributes := [⟨⟨"mnt-by"⟩, "A:B"⟩] }

/-- A comment, other line ends and blanks at the end of a line change nothing, and of two faults the
first is told. -/
theorem reformatted_person_read :
    parse "Person : JD1-TEST\nmnt-by: A:B" = .ok maintained ∧
      parse "# note\r\nPerson : JD1-TEST\r\nmnt-by: A:B \t" = .ok maintained ∧
      parse "Person : JD1-TEST\nno colon\n: no name" =
        .error (.malformedRecord (.notAttribute "no colon")) := by
  obtain ⟨-, -, refused, same⟩ := parse_by_grammar
  have plain : parse "Person : JD1-TEST\nmnt-by: A:B" = .ok maintained := rfl
  refine ⟨plain, (same _ _ ?_).symm.trans plain, ?_⟩
  · let head := "Person : JD1-TEST".toList
    let line := "mnt-by: A:B".toList
    let comment := "# note".toList
    have skipped : Skipped comment := ⟨by decide, .inr rfl⟩
    have blank : AllBlank [' ', '\t'] := List.all_eq_true.mp rfl
    have oneLine : ∀ l ∈ [comment, head, line ++ [' ', '\t']], '\n' ∉ l := by decide
    have before : "Person : JD1-TEST\nmnt-by: A:B".toList = joinLines ([] ++ [head, line]) := by
      decide +kernel
    have after : "# note\r\nPerson : JD1-TEST\r\nmnt-by: A:B \t".toList =
        ['\r', '\n'].intercalate [comment, head, line ++ [' ', '\t']] := by decide +kernel
    rw [before, after]
    refine .trans _ _ _ (.rel _ _ (.insert [] [head, line] skipped)) ?_
    refine .trans _ _ _ (.rel _ _ (.trail [comment, head] [] ?_ (by decide) blank)) ?_
    · exact (by decide : '\n' ∉ line)
    · exact .rel _ _ (.crlf oneLine)
  · have lines : significantLines "Person : JD1-TEST\nno colon\n: no name".toList =
        "Person : JD1-TEST".toList :: ([] ++ "no colon".toList :: [": no name".toList]) := by
      decide +kernel
    have heads : Heads "Person : JD1-TEST".toList .person "JD1-TEST".toList := by
      refine ⟨"Person".toList, ⟨"Person ".toList, " JD1-TEST".toList, ?_⟩, ?_, ?_⟩
      all_goals decide +kernel
    rw [refused, lines]
    exact .laterLine heads (List.forall_mem_nil _) (.notAttribute (by decide))

end Record

end RegistryConsent
