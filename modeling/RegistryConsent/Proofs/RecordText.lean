import RegistryConsent.Proofs.Blanks
import RegistryConsent.Proofs.Results
import RegistryConsent.Record.Text

/-!
# Records and their texts

A record is legible when its parts have no blanks at their ends and no line breaks, its key and its
names are not empty and no name holds a colon. Whatever is read from a text is legible. The text of a
legible record is read back without the attributes whose names start with `#`, since their lines are
taken for comments, and no other record is read back from its text.
-/

namespace RegistryConsent

namespace Text

/-- No piece of a text that was split holds the separator. -/
theorem not_mem_of_mem_splitOn {sep : Char} {cs piece : List Char} (h : piece ∈ cs.splitOn sep) :
    sep ∉ piece := by
  induction cs generalizing piece with
  | nil => simp_all
  | cons c cs ih =>
    rw [List.splitOn_cons_eq_if_modifyHead] at h
    split at h
    · rcases List.mem_cons.mp h with rfl | h
      · exact List.not_mem_nil
      · exact ih h
    · next other =>
      obtain ⟨first, rest, pieces⟩ := List.exists_cons_of_ne_nil (List.splitOn_ne_nil sep cs)
      rw [pieces] at ih h
      rcases List.mem_cons.mp h with rfl | h
      · have apart : sep ≠ c := fun same => other (beq_iff_eq.mpr same.symm)
        exact List.not_mem_cons_of_ne_of_not_mem apart (ih List.mem_cons_self)
      · exact ih (List.mem_cons_of_mem first h)

/-- Pieces that are closed by a separator each are found again, with nothing behind the last. -/
theorem splitOn_flatMap_concat {sep : Char} {pieces : List (List Char)}
    (h : ∀ piece ∈ pieces, sep ∉ piece) :
    (pieces.flatMap (· ++ [sep])).splitOn sep = pieces ++ [[]] := by
  induction pieces with
  | nil => exact List.splitOn_nil sep
  | cons piece pieces ih =>
    have rest := ih fun other hmem => h other (List.mem_cons_of_mem piece hmem)
    rw [List.flatMap_cons, List.append_assoc, List.singleton_append,
      List.splitOn_append_cons_self_of_not_mem (h piece List.mem_cons_self), rest,
      List.cons_append]

/-- A text keeps its place on a line behind a colon: there are no blanks at its ends and no line
breaks. -/
structure Inline (cs : List Char) : Prop where
  trimmed : strip cs = cs
  oneLine : '\n' ∉ cs

/-- A text keeps its place when trimming leaves it as it is and it is one line. -/
theorem inline_toList_iff {s : String} : Inline s.toList ↔ trim s = s ∧ '\n' ∉ s.toList := by
  have trimmed : trim s = s ↔ strip s.toList = s.toList := by
    rw [← String.toList_inj, trim, String.toList_ofList]
  rw [trimmed]
  exact ⟨fun h => ⟨h.trimmed, h.oneLine⟩, fun h => ⟨h.1, h.2⟩⟩

/-- What is trimmed on a line keeps its place. -/
theorem inline_strip {cs : List Char} (h : '\n' ∉ cs) : Inline (strip cs) :=
  ⟨strip_strip cs, fun hmem => h (strip_subset cs hmem)⟩

end Text

namespace ObjectType

/-- A text stands for a type when it is the name of the type, up to blanks at its ends and case. -/
theorem foldCase_name_of_ofName {s : String} {t : ObjectType} (h : ofName s = .ok t) :
    foldCase t.name = foldCase (Text.trim s) := by
  rw [ofName] at h
  split at h
  · next found =>
    cases h
    simpa using List.find?_some found
  · cases h

/-- A name that stands for a type does not look like a comment. -/
theorem head?_of_ofName {name : List Char} {t : ObjectType} (trimmed : Text.strip name = name)
    (h : ofName (.ofList name) = .ok t) : name.head? ≠ some '#' := by
  intro comment
  have folded : (foldCase t.name).head? = some '#' := by
    rw [foldCase_name_of_ofName h, Text.trim, String.toList_ofList, trimmed, foldCase,
      String.toList_ofList, List.head?_map, comment]
    rfl
  cases t <;> exact absurd folded (by decide)

/-- The name of a type can stand on a line, and not as a comment. -/
theorem inline_name (t : ObjectType) : Text.Inline t.name.toList ∧ t.name.toList ≠ [] ∧
    ':' ∉ t.name.toList ∧ t.name.toList.head? ≠ some '#' := by
  cases t <;> exact ⟨⟨rfl, by decide⟩, by decide, by decide, by decide⟩

end ObjectType

/-! ### Lines -/

/-- A name and a value that a line gives back. -/
structure Legible (field : List Char × List Char) : Prop where
  name : Text.Inline field.1
  named : field.1 ≠ []
  uncut : ':' ∉ field.1
  value : Text.Inline field.2

namespace Attribute

/-- The characters of the name and of the value. -/
def field (a : Attribute) : List Char × List Char := (a.name.spelling.toList, a.value.toList)

/-- Whether the line of the attribute would be taken for a comment. -/
def isComment (a : Attribute) : Bool := a.name.spelling.toList.head? == some '#'

/-- An attribute is given back by its line when its name is a word without a colon that keeps its
place, as its value does. -/
theorem legible_field_iff {a : Attribute} :
    Legible a.field ↔ (a.name.spelling ≠ "" ∧ Text.trim a.name.spelling = a.name.spelling ∧
        ':' ∉ a.name.spelling.toList ∧ '\n' ∉ a.name.spelling.toList) ∧
      Text.trim a.value = a.value ∧ '\n' ∉ a.value.toList := by
  have named : a.name.spelling ≠ "" ↔ a.name.spelling.toList ≠ [] :=
    not_congr String.toList_eq_nil_iff.symm
  rw [named, ← Text.inline_toList_iff]
  constructor
  · intro h
    obtain ⟨trimmed, oneLine⟩ := Text.inline_toList_iff.mp h.name
    exact ⟨⟨h.named, trimmed, h.uncut, oneLine⟩, h.value⟩
  · rintro ⟨⟨named, trimmed, uncut, oneLine⟩, value⟩
    exact ⟨Text.inline_toList_iff.mpr ⟨trimmed, oneLine⟩, named, uncut, value⟩

/-- Attributes are told apart by their characters. -/
theorem field_injective : Function.Injective field := by
  intro a b h
  obtain ⟨⟨name⟩, value⟩ := a
  obtain ⟨⟨name'⟩, value'⟩ := b
  simpa [field, String.toList_inj] using h

end Attribute

namespace Record

open Text

/-- The line of a name and a value. -/
def lineOf (field : List Char × List Char) : List Char := field.1 ++ ':' :: ' ' :: field.2

/-- A line is read at its first colon, and something has to stand in front of it. -/
theorem readLine_eq_ok_iff {line : List Char} {field : List Char × List Char} :
    readLine line = .ok field ↔ ∃ name value, line = name ++ ':' :: value ∧ ':' ∉ name ∧
      strip name ≠ [] ∧ field = (strip name, strip value) := by
  rw [readLine]
  constructor
  · intro h
    split at h
    · cases h
    · next name value cut =>
      obtain ⟨uncut, line⟩ := cut?_eq_some_iff.mp cut
      split at h
      · cases h
      · next named =>
        exact ⟨name, value, line, uncut, by simpa using named, (Except.ok.inj h).symm⟩
  · rintro ⟨name, value, rfl, uncut, named, rfl⟩
    have cut : cut? ':' (name ++ ':' :: value) = some (name, value) :=
      cut?_eq_some_iff.mpr ⟨uncut, rfl⟩
    rw [cut]
    simp [named]

/-- What is read from a line can be given back by a line. -/
theorem legible_of_readLine {line : List Char} {field : List Char × List Char}
    (h : readLine line = .ok field) (oneLine : '\n' ∉ line) : Legible field := by
  obtain ⟨name, value, rfl, uncut, named, rfl⟩ := readLine_eq_ok_iff.mp h
  have inName : '\n' ∉ name := fun hmem => oneLine (List.mem_append_left _ hmem)
  have inValue : '\n' ∉ value := fun hmem =>
    oneLine (List.mem_append_right _ (List.mem_cons_of_mem _ hmem))
  exact ⟨inline_strip inName, named, fun hmem => uncut (strip_subset name hmem),
    inline_strip inValue⟩

/-- Only what stands behind the colon of a line is trimmed at its end. -/
theorem dropBlanksEnd_lineOf (field : List Char × List Char) :
    dropBlanksEnd (lineOf field) = field.1 ++ ':' :: dropBlanksEnd (' ' :: field.2) :=
  dropBlanksEnd_append_cons rfl _ _

/-- A line is read back, also without the blanks at its end. -/
theorem readLine_lineOf {field : List Char × List Char} (h : Legible field) :
    readLine (dropBlanksEnd (lineOf field)) = .ok field := by
  rw [dropBlanksEnd_lineOf, readLine_eq_ok_iff]
  refine ⟨_, _, rfl, h.uncut, ?_, ?_⟩
  · rw [h.name.trimmed]
    exact h.named
  · rw [strip_dropBlanksEnd, strip_cons_of_isBlank rfl, h.name.trimmed, h.value.trimmed]

/-- The line of a name is significant unless it looks like a comment. -/
theorem head?_dropBlanksEnd_lineOf {field : List Char × List Char} (named : field.1 ≠ []) :
    (dropBlanksEnd (lineOf field)).head? = field.1.head? := by
  rw [dropBlanksEnd_lineOf, List.head?_append_of_ne_nil _ named]

/-- The name on a line starts with the first character of the line that is not blank. -/
theorem head?_of_readLine {line : List Char} {field : List Char × List Char}
    (h : readLine line = .ok field) : field.1.head? = (dropBlanks line).head? := by
  obtain ⟨name, value, rfl, -, named, rfl⟩ := readLine_eq_ok_iff.mp h
  have visible : dropBlanks name ≠ [] := fun blank => named (by rw [strip, blank]; rfl)
  rw [dropBlanks_append_cons rfl, head?_strip named, List.head?_append_of_ne_nil _ visible]

/-! ### Texts -/

/-- The names and values of the lines of a record, that of its type and key first. -/
def fields (r : Record) : List (List Char × List Char) :=
  (r.objectType.name.toList, r.key.spelling.toList) :: r.attributes.map Attribute.field

/-- A record of which every line gives back what it was written for. -/
structure Legible (r : Record) : Prop where
  keyed : r.key.spelling ≠ ""
  key : Inline r.key.spelling.toList
  attributes : ∀ a ∈ r.attributes, RegistryConsent.Legible a.field

/-- The lines of a legible record give back its fields. -/
theorem Legible.fields {r : Record} (h : r.Legible) :
    ∀ field ∈ r.fields, RegistryConsent.Legible field := by
  intro field hmem
  rcases List.mem_cons.mp hmem with rfl | hmem
  · obtain ⟨name, named, uncut, -⟩ := r.objectType.inline_name
    exact ⟨name, named, uncut, h.key⟩
  · obtain ⟨a, ha, rfl⟩ := List.mem_map.mp hmem
    exact h.attributes a ha

/-- The text of a record is made of the lines of its fields. -/
theorem render_eq (r : Record) : r.render = (r.fields.map lineOf).flatMap (· ++ ['\n']) := by
  simp [render, fields, renderLine, lineOf, Attribute.field, List.flatMap_map]

/-- The text of a legible record is split into the lines of its fields. -/
theorem splitOn_render {r : Record} (h : r.Legible) :
    r.render.splitOn '\n' = r.fields.map lineOf ++ [[]] := by
  rw [render_eq]
  refine splitOn_flatMap_concat fun line hmem => ?_
  obtain ⟨field, hfield, rfl⟩ := List.mem_map.mp hmem
  have legible := h.fields field hfield
  simp [lineOf, legible.name.oneLine, legible.value.oneLine]

/-- The significant lines of the text of a legible record are those of its fields, but for the names
that start with `#`. -/
theorem significantLines_render {r : Record} (h : r.Legible) :
    significantLines r.render =
      (r.fields.filter fun field => field.1.head? != some '#').map (dropBlanksEnd ∘ lineOf) := by
  rw [significantLines, splitOn_render h, List.map_append, List.map_map, List.filter_append,
    List.filter_map]
  have empty : ([[]].map dropBlanksEnd).filter
      (fun l => !l.isEmpty && l.head? != some '#') = [] := rfl
  rw [empty, List.append_nil]
  congr 1
  refine List.filter_congr fun field hmem => ?_
  have named := (h.fields field hmem).named
  have visible : dropBlanksEnd (lineOf field) ≠ [] := by
    rw [dropBlanksEnd_lineOf]
    simp
  simp [head?_dropBlanksEnd_lineOf named, visible]

/-- Legible records are told apart by their texts. -/
theorem text_inj {r s : Record} (hr : r.Legible) (hs : s.Legible) :
    r.text = s.text ↔ r = s := by
  refine ⟨fun same => ?_, congrArg text⟩
  have pieces : r.fields.map lineOf ++ [[]] = s.fields.map lineOf ++ [[]] := by
    rw [← splitOn_render hr, ← splitOn_render hs, String.ofList_inj.mp same]
  -- Cutting the lines at their first colons gives back the fields, whether or not they look like
  -- comments, which reading would skip.
  have cuts {x : Record} (h : x.Legible) : (x.fields.map lineOf).map (cut? ':') =
      x.fields.map fun field => some (field.1, ' ' :: field.2) := by
    rw [List.map_map]
    exact List.map_congr_left fun field hmem =>
      cut?_eq_some_iff.mpr ⟨(h.fields field hmem).uncut, rfl⟩
  have told : Function.Injective fun field : List Char × List Char =>
      some (field.1, ' ' :: field.2) := by
    rintro ⟨_, _⟩ ⟨_, _⟩ h
    simpa using h
  have fields : r.fields = s.fields := by
    refine List.map_injective_iff.mpr told ?_
    rw [← cuts hr, List.append_cancel_right pieces, cuts hs]
  obtain ⟨first, rest⟩ := List.cons.inj fields
  obtain ⟨type, key⟩ := Prod.mk.inj first
  have attributes := List.map_injective_iff.mpr Attribute.field_injective rest
  obtain ⟨t, ⟨k⟩, as⟩ := r
  obtain ⟨t', ⟨k'⟩, as'⟩ := s
  obtain rfl : t = t' := ObjectType.name_inj.mp (String.toList_inj.mp type)
  obtain rfl : k = k' := String.toList_inj.mp key
  obtain rfl : as = as' := attributes
  rfl

/-- An attribute is read when its name and value are. -/
theorem readAttribute_eq_ok_iff {line : List Char} {a : Attribute} :
    readAttribute line = .ok a ↔ readLine line = .ok a.field := by
  rw [readAttribute, bind_eq_ok_iff, Attribute.field]
  constructor
  · rintro ⟨field, read, built⟩
    cases built
    simpa using read
  · intro read
    refine ⟨_, read, ?_⟩
    simp only [String.ofList_toList]
    rfl

/-- A record is read from its lines when the first of them gives its type and a key, and the others
its attributes. -/
theorem ofLines_eq_ok_iff {lines : List (List Char)} {r : Record} :
    ofLines lines = .ok r ↔ r.key.spelling ≠ "" ∧ ∃ first rest name,
      lines = first :: rest ∧ readLine first = .ok (name, r.key.spelling.toList) ∧
      ObjectType.ofName (.ofList name) = .ok r.objectType ∧
      rest.map readAttribute = r.attributes.map .ok := by
  constructor
  · intro h
    cases lines with
    | nil => cases h
    | cons first rest =>
      obtain ⟨⟨name, key⟩, read, h⟩ := bind_eq_ok_iff.mp h
      obtain ⟨t, type, h⟩ := bind_eq_ok_iff.mp h
      dsimp only at h
      split at h
      · cases h
      · next keyed =>
        obtain ⟨attributes, others, same⟩ := bind_eq_ok_iff.mp h
        cases same
        rw [String.toList_ofList]
        exact ⟨by simpa using keyed, first, rest, name, rfl, read, type, mapM_eq_ok_iff.mp others⟩
  · rintro ⟨keyed, first, rest, name, rfl, read, type, others⟩
    refine bind_eq_ok_iff.mpr ⟨_, read, bind_eq_ok_iff.mpr ⟨_, type, ?_⟩⟩
    dsimp only
    rw [if_neg (by simpa using keyed), mapM_eq_ok_iff.mpr others, String.ofList_toList]
    rfl

/-- A significant line holds no line break. -/
theorem oneLine_of_mem_significantLines {cs line : List Char} (h : line ∈ significantLines cs) :
    '\n' ∉ line := by
  obtain ⟨piece, hpiece, rfl⟩ := List.mem_map.mp (List.mem_filter.mp h).1
  exact fun hmem => not_mem_of_mem_splitOn hpiece (dropBlanksEnd_subset piece hmem)

/-- What is read from a text is legible. -/
theorem legible_of_parse {s : String} {r : Record} (h : parse s = .ok r) : r.Legible := by
  obtain ⟨keyed, first, rest, name, lines, read, -, others⟩ := ofLines_eq_ok_iff.mp h
  have oneLine : ∀ line ∈ first :: rest, '\n' ∉ line := fun line hmem =>
    oneLine_of_mem_significantLines (lines ▸ hmem)
  refine ⟨keyed, ?_, fun a ha => ?_⟩
  · exact (legible_of_readLine read (oneLine first List.mem_cons_self)).value
  · obtain ⟨line, hline, read⟩ := List.mem_map.mp (others ▸ List.mem_map_of_mem ha)
    exact legible_of_readLine (readAttribute_eq_ok_iff.mp read)
      (oneLine line (List.mem_cons_of_mem first hline))

/-- The text of a legible record is read back without the attributes that look like comments. -/
theorem parse_text {r : Record} (h : r.Legible) :
    parse r.text = .ok { r with attributes := r.attributes.filter (!·.isComment) } := by
  obtain ⟨-, -, -, typed⟩ := r.objectType.inline_name
  have lines : significantLines r.text.toList =
      dropBlanksEnd (lineOf (r.objectType.name.toList, r.key.spelling.toList)) ::
        (r.attributes.filter (!·.isComment)).map fun a => dropBlanksEnd (lineOf a.field) := by
    rw [text, String.toList_ofList, significantLines_render h, fields,
      List.filter_cons_of_pos (by simpa using typed), List.filter_map, List.map_cons, List.map_map]
    rfl
  rw [parse, lines, ofLines_eq_ok_iff]
  refine ⟨h.keyed, _, _, r.objectType.name.toList, rfl, ?_, ?_, ?_⟩
  · exact readLine_lineOf (h.fields _ List.mem_cons_self)
  · rw [String.ofList_toList]
    exact r.objectType.ofName_name
  · rw [List.map_map]
    refine List.map_congr_left fun a ha => readAttribute_eq_ok_iff.mpr (readLine_lineOf ?_)
    exact h.attributes a (List.mem_of_mem_filter ha)

/-- The text of a legible record gives the record back when no name looks like a comment. -/
theorem parse_text_eq_self_iff {r : Record} (h : r.Legible) :
    parse r.text = .ok r ↔ ∀ a ∈ r.attributes, a.isComment = false := by
  have kept : { r with attributes := r.attributes.filter (!·.isComment) } = r ↔
      r.attributes.filter (!·.isComment) = r.attributes := by
    constructor
    · exact fun same => congrArg attributes same
    · exact fun same => by rw [same]
  rw [parse_text h, Except.ok.injEq, kept, List.filter_eq_self]
  simp only [Bool.not_eq_true']

/-- A record that was read has a name that looks like a comment when a line of the text does behind
its blanks in front. -/
theorem exists_isComment_iff {s : String} {r : Record} (h : parse s = .ok r) :
    (∃ a ∈ r.attributes, a.isComment = true) ↔
      ∃ line ∈ significantLines s.toList, (dropBlanks line).head? = some '#' := by
  obtain ⟨-, first, rest, name, lines, read, type, others⟩ := ofLines_eq_ok_iff.mp h
  constructor
  · rintro ⟨a, ha, comment⟩
    obtain ⟨line, hline, read⟩ := List.mem_map.mp (others ▸ List.mem_map_of_mem ha)
    refine ⟨line, lines ▸ List.mem_cons_of_mem first hline, ?_⟩
    rw [← head?_of_readLine (readAttribute_eq_ok_iff.mp read)]
    exact beq_iff_eq.mp comment
  · rintro ⟨line, hline, comment⟩
    rw [lines] at hline
    rcases List.mem_cons.mp hline with rfl | hline
    · obtain ⟨written, _, -, -, -, same⟩ := readLine_eq_ok_iff.mp read
      obtain rfl : name = strip written := congrArg Prod.fst same
      rw [← head?_of_readLine read] at comment
      exact absurd comment (ObjectType.head?_of_ofName (strip_strip _) type)
    · obtain ⟨a, ha, read⟩ := List.mem_map.mp (others ▸ List.mem_map_of_mem hline)
      refine ⟨a, ha, beq_iff_eq.mpr ?_⟩
      rw [← comment, ← head?_of_readLine (readAttribute_eq_ok_iff.mp read.symm)]
      rfl

/-- A record that was read from a text is found again in its own text, but for the attributes whose
names start with `#`. It has such an attribute exactly when a line of the text starts with `#` behind
some blanks. -/
theorem reread_of_parse {s : String} {r : Record} (h : parse s = .ok r) :
    parse r.text = .ok { r with attributes := r.attributes.filter (!·.isComment) } ∧
    (parse r.text = .ok r ↔
      ∀ line ∈ significantLines s.toList, (dropBlanks line).head? ≠ some '#') := by
  have legible := legible_of_parse h
  refine ⟨parse_text legible, (parse_text_eq_self_iff legible).trans ?_⟩
  have comments := not_congr (exists_isComment_iff h)
  simpa using comments

/-- A person with an attribute whose name starts with `#`. -/
private def annotated : Record :=
  { objectType := .person, key := ⟨"X"⟩, attributes := [⟨⟨"#note"⟩, "y"⟩] }

/-- An indented comment is read as an attribute, which the text of the record turns into a
comment. -/
theorem indented_comment_lost :
    parse "person: X\n #note: y" = .ok annotated ∧ annotated.text = "person: X\n#note: y\n" ∧
      parse annotated.text = .ok { annotated with attributes := [] } ∧
      parse annotated.text ≠ .ok annotated := by
  have read : parse "person: X\n #note: y" = .ok annotated := rfl
  obtain ⟨reread, -⟩ := reread_of_parse read
  have lost : parse annotated.text = .ok { annotated with attributes := [] } := reread
  refine ⟨read, rfl, lost, ?_⟩
  rw [lost]
  exact fun same => by simpa [annotated] using congrArg Record.attributes (Except.ok.inj same)

/-- A record is found again in its text exactly when its key and names are not empty, all its parts
are trimmed and free of line breaks, and no name holds a colon or starts with `#`. -/
theorem reread_iff (r : Record) :
    parse r.text = .ok r ↔
      (r.key.spelling ≠ "" ∧ trim r.key.spelling = r.key.spelling ∧
        '\n' ∉ r.key.spelling.toList) ∧
      ∀ a ∈ r.attributes,
        (a.name.spelling ≠ "" ∧ trim a.name.spelling = a.name.spelling ∧
          ':' ∉ a.name.spelling.toList ∧ '\n' ∉ a.name.spelling.toList ∧
          a.name.spelling.toList.head? ≠ some '#') ∧
        trim a.value = a.value ∧ '\n' ∉ a.value.toList := by
  constructor
  · intro h
    have legible := legible_of_parse h
    have plain := (parse_text_eq_self_iff legible).mp h
    refine ⟨⟨legible.keyed, inline_toList_iff.mp legible.key⟩, fun a ha => ?_⟩
    obtain ⟨⟨named, trimmed, uncut, oneLine⟩, value⟩ :=
      Attribute.legible_field_iff.mp (legible.attributes a ha)
    exact ⟨⟨named, trimmed, uncut, oneLine, beq_eq_false_iff_ne.mp (plain a ha)⟩, value⟩
  · rintro ⟨⟨keyed, key⟩, attributes⟩
    have legible : r.Legible := by
      refine ⟨keyed, inline_toList_iff.mpr key, fun a ha => Attribute.legible_field_iff.mpr ?_⟩
      obtain ⟨⟨named, trimmed, uncut, oneLine, -⟩, value⟩ := attributes a ha
      exact ⟨⟨named, trimmed, uncut, oneLine⟩, value⟩
    refine (parse_text_eq_self_iff legible).mpr fun a ha => ?_
    obtain ⟨⟨-, -, -, -, plain⟩, -⟩ := attributes a ha
    exact beq_eq_false_iff_ne.mpr plain

end Record

end RegistryConsent
