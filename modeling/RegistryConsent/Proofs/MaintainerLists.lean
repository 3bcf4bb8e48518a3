import Mathlib.Logic.Relation
import RegistryConsent.Proofs.FoldedCase
import RegistryConsent.Proofs.GoverningVersion
import RegistryConsent.Proofs.RecordText

/-!
# Lists of names and their layout

The attributes of one name in a record list names between commas. What is read from them is each
name once, where it stands first and as it is spelt there. It does not matter how the names are
shared out between lines, what stands between these lines, or that a name comes again; and lines
from which the same is read are the same lines laid out in another way.
-/

namespace RegistryConsent

/-! ### Names that are seen first -/

/-- Of some names, those are kept that are not spelt in another way before, in order. -/
structure FirstSpellings (names kept : List Handle) : Prop where
  mem_iff (h : Handle) : h ∈ kept ↔ names.find? (· == h) = some h
  ordered : kept.Pairwise fun a b => names.findIdx (· == a) < names.findIdx (· == b)

namespace FirstSpellings

variable {names kept : List Handle}

/-- Names that are the same are looked for alike. -/
theorem beq_congr {a b : Handle} (same : (a == b) = true) : (· == a) = (· == b) :=
  funext fun x => by rw [Bool.eq_iff_iff, Handle.beq_iff, Handle.beq_iff, Handle.beq_iff.mp same]

/-- Each name is kept in some spelling, and no others are. -/
theorem exists_iff (h : FirstSpellings names kept) (x : Handle) :
    (∃ k ∈ kept, (k == x) = true) ↔ ∃ n ∈ names, (n == x) = true := by
  constructor
  · rintro ⟨k, hk, same⟩
    exact ⟨k, List.mem_of_find?_eq_some ((h.mem_iff k).mp hk), same⟩
  · rintro ⟨n, hn, same⟩
    obtain ⟨k, found⟩ := Option.isSome_iff_exists.mp
      (List.find?_isSome.mpr ⟨n, hn, same⟩ : (names.find? (· == x)).isSome = true)
    have spelt : (k == x) = true := List.find?_some (p := (· == x)) found
    refine ⟨k, (h.mem_iff k).mpr ?_, spelt⟩
    rwa [beq_congr spelt]

/-- No name is kept in two spellings. -/
theorem distinct (h : FirstSpellings names kept) : kept.Pairwise fun a b => (a == b) = false := by
  refine h.ordered.imp fun {a b} before => Bool.eq_false_iff.mpr fun same => ?_
  rw [beq_congr same] at before
  exact lt_irrefl _ before

/-- A kept name is found in front of whatever is added. -/
theorem findIdx_append (h : FirstSpellings names kept) {a : Handle} (ha : a ∈ kept)
    (more : List Handle) : (names ++ more).findIdx (· == a) = names.findIdx (· == a) := by
  have there : ∃ n ∈ names, (n == a) = true := (h.exists_iff a).mp ⟨a, ha, BEq.rfl⟩
  rw [List.findIdx_append, if_pos (List.findIdx_lt_length.mpr there)]

/-- There is nothing to keep. -/
theorem nil : FirstSpellings [] [] := ⟨fun _ => by simp, .nil⟩

/-- A name that was seen adds nothing. -/
theorem concat_of_seen (h : FirstSpellings names kept) {x : Handle}
    (seen : ∃ k ∈ kept, (k == x) = true) : FirstSpellings (names ++ [x]) kept where
  mem_iff y := by
    rw [h.mem_iff, List.find?_append]
    cases found : names.find? (· == y) with
    | some z => rfl
    | none =>
      have new : ¬(x == y) = true := by
        intro same
        obtain ⟨n, hn, spelt⟩ := (h.exists_iff x).mp seen
        exact List.find?_eq_none.mp found n hn (BEq.trans spelt same)
      simp [new]
  ordered := h.ordered.imp_of_mem fun ha hb before => by
    rwa [h.findIdx_append ha, h.findIdx_append hb]

/-- A name that was not seen comes last. -/
theorem concat_of_unseen (h : FirstSpellings names kept) {x : Handle}
    (unseen : ¬∃ k ∈ kept, (k == x) = true) : FirstSpellings (names ++ [x]) (kept ++ [x]) where
  mem_iff y := by
    rw [List.mem_append, List.mem_singleton, h.mem_iff, List.find?_append]
    cases found : names.find? (· == y) with
    | some z =>
      have other : y ≠ x := by
        rintro rfl
        exact unseen ((h.exists_iff y).mpr
          ⟨z, List.mem_of_find?_eq_some found, List.find?_some (p := (· == y)) found⟩)
      simp [other]
    | none =>
      rw [Option.none_or]
      constructor
      · rintro (absent | rfl)
        · cases absent
        · exact List.find?_cons_of_pos BEq.rfl
      · intro last
        exact .inr (List.mem_singleton.mp (List.mem_of_find?_eq_some last))
  ordered := by
    have last : (names ++ [x]).findIdx (· == x) = names.length := by
      have absent : ¬names.findIdx (· == x) < names.length := by
        rwa [List.findIdx_lt_length, ← h.exists_iff]
      rw [List.findIdx_append, if_neg absent, List.findIdx_cons, BEq.rfl, cond_true, Nat.zero_add]
    rw [List.pairwise_append]
    refine ⟨h.ordered.imp_of_mem fun ha hb before => ?_, List.pairwise_singleton _ x,
      fun a ha b hb => ?_⟩
    · rwa [h.findIdx_append ha, h.findIdx_append hb]
    · rw [List.mem_singleton.mp hb, h.findIdx_append ha, last]
      exact List.findIdx_lt_length.mpr ((h.exists_iff a).mp ⟨a, ha, BEq.rfl⟩)

end FirstSpellings

/-- A name is looked for among those that were seen. -/
theorem contains_iff_exists_beq {seen : List Handle} {x : Handle} :
    seen.contains x = true ↔ ∃ k ∈ seen, (k == x) = true := by
  rw [List.contains_eq_any_beq, List.any_eq_true]
  simp only [BEq.comm (a := x)]

/-- The names that are seen first are kept. -/
theorem firstSpellings_firstSeen (names : List Handle) :
    FirstSpellings names (firstSeen names) := by
  -- From the end of the list, since a name is added behind all that were seen before.
  induction names using List.reverseRecOn with
  | nil => exact .nil
  | append_singleton names x ih =>
    rw [firstSeen, List.foldl_append, List.foldl_cons, List.foldl_nil, ← firstSeen, addUnseen]
    split
    · next seen => exact ih.concat_of_seen (contains_iff_exists_beq.mp seen)
    · next unseen => exact ih.concat_of_unseen (mt contains_iff_exists_beq.mpr unseen)

/-! ### The names that are listed -/

namespace Text

/-- Whatever holds of texts without a comma, and of such a text with a comma and any text behind it,
holds of all texts. -/
theorem comma_induction {P : List Char → Prop} (piece : ∀ p, ',' ∉ p → P p)
    (cons : ∀ p rest, ',' ∉ p → P p → P rest → P (p ++ ',' :: rest)) (cs : List Char) : P cs := by
  have whole : [','].intercalate (cs.splitOn ',') = cs := List.intercalate_splitOn ','
  rw [← whole]
  have apart : ∀ p ∈ cs.splitOn ',', ',' ∉ p := fun p hp => not_mem_of_mem_splitOn hp
  generalize cs.splitOn ',' = pieces at apart
  induction pieces with
  | nil => exact piece [] List.not_mem_nil
  | cons p pieces ih =>
    have rest := ih fun q hq => apart q (List.mem_cons_of_mem p hq)
    have uncut := apart p List.mem_cons_self
    cases pieces with
    | nil => simpa using piece p uncut
    | cons q pieces => simpa using cons p _ uncut (piece p uncut) rest

end Text

namespace Record

open Text

/-- The name that stands between two commas, unless there are only blanks. -/
def namesOf (piece : List Char) : List Handle :=
  if strip piece = [] then [] else [⟨.ofList (strip piece)⟩]

/-- A value lists the names of the pieces between its commas. -/
theorem listed_eq (v : String) : listed v = (v.toList.splitOn ',').flatMap namesOf := by
  rw [listed]
  induction v.toList.splitOn ',' with
  | nil => rfl
  | cons p pieces ih =>
    rw [List.flatMap_cons, ← ih, namesOf, List.map_cons]
    split
    · next none => rw [none]; rfl
    · next some => rw [List.filter_cons_of_pos (by simpa using some)]; rfl

/-- A value without a comma lists the name of one piece. -/
theorem listed_piece {p : List Char} (uncut : ',' ∉ p) : listed (.ofList p) = namesOf p := by
  rw [listed_eq, String.toList_ofList, List.splitOn_eq_singleton uncut, List.flatMap_singleton]

private theorem ofList_comma (cs ds : List Char) :
    String.ofList (cs ++ ',' :: ds) = .ofList cs ++ "," ++ .ofList ds := by
  rw [← String.toList_inj]
  simp

/-- What stands at both sides of a comma is listed. -/
theorem listed_append (cs ds : List Char) :
    listed (.ofList (cs ++ ',' :: ds)) = listed (.ofList cs) ++ listed (.ofList ds) := by
  simp only [listed_eq, String.toList_ofList, List.splitOn_append_cons_self, List.flatMap_append]

private theorem not_mem_of_allBlank {blanks : List Char} (blank : AllBlank blanks) : ',' ∉ blanks :=
  fun hmem => absurd (blank ',' hmem) (by decide)

/-- Blanks at the ends of a line do not matter. -/
theorem listed_append_blanks {front back : List Char} (hf : AllBlank front) (hb : AllBlank back)
    (cs : List Char) : listed (.ofList (front ++ cs ++ back)) = listed (.ofList cs) := by
  induction cs using comma_induction generalizing front with
  | piece p uncut =>
    have padded : ',' ∉ front ++ p ++ back := by
      simp [uncut, not_mem_of_allBlank hf, not_mem_of_allBlank hb]
    rw [listed_piece padded, listed_piece uncut, namesOf, namesOf, strip_append hf hb]
  | cons p rest uncut _ ih =>
    have padded : ',' ∉ front ++ p := by simp [uncut, not_mem_of_allBlank hf]
    have none : AllBlank [] := fun c hc => absurd hc List.not_mem_nil
    have first : strip (front ++ p) = strip p := by simpa using strip_append hf none p
    have others := ih none
    rw [List.nil_append] at others
    have shape : front ++ (p ++ ',' :: rest) ++ back = front ++ p ++ ',' :: (rest ++ back) := by
      simp
    rw [shape, listed_append, listed_append, others, listed_piece padded, listed_piece uncut,
      namesOf, namesOf, first]

/-- Blanks at the ends of a value list nothing. -/
theorem listed_trim (v : String) : listed (trim v) = listed v := by
  obtain ⟨front, back, hf, hb, split⟩ := exists_strip v.toList
  have whole := listed_append_blanks hf hb (strip v.toList)
  rw [← split, String.ofList_toList] at whole
  exact whole.symm

/-- What is joined by commas is listed. -/
theorem listed_intercalate {pieces : List (List Char)} (some : pieces ≠ [])
    (uncut : ∀ p ∈ pieces, ',' ∉ p) :
    listed (.ofList ([','].intercalate pieces)) = pieces.flatMap namesOf := by
  rw [listed_eq, String.toList_ofList, List.splitOn_intercalate ',' uncut some]

private theorem toLower_eq_comma_iff (c : Char) : c.toLower = ',' ↔ c = ',' :=
  toLower_eq_iff (by decide) c

/-- What a line lists does not depend on its case, but for the case of the names. -/
theorem map_folded_listed (cs : List Char) :
    (listed (.ofList cs)).map Handle.folded =
      (listed (.ofList (cs.map Char.toLower))).map (·.spelling.toList) := by
  induction cs using comma_induction with
  | piece p uncut =>
    have uncut' : ',' ∉ p.map Char.toLower := by simpa [toLower_eq_comma_iff] using uncut
    rw [listed_piece uncut, listed_piece uncut', namesOf, namesOf, strip_map_toLower]
    simp only [List.map_eq_nil_iff]
    split
    · rfl
    · simp [Handle.folded, foldCase_ofList]
  | cons p rest uncut ihp ih =>
    rw [List.map_append, List.map_cons, (toLower_eq_comma_iff ',').mpr rfl, listed_append,
      listed_append, List.map_append, List.map_append, ihp, ih]

/-- Lines that are the same up to case list the same names. -/
theorem map_folded_listed_congr {v w : String} (same : foldCase v = foldCase w) :
    (listed v).map Handle.folded = (listed w).map Handle.folded := by
  have hv := map_folded_listed v.toList
  have hw := map_folded_listed w.toList
  rw [String.ofList_toList, ← foldCase] at hv hw
  rw [hv, hw, same]

/-- What is listed is trimmed, not empty and without commas. -/
theorem clean_of_mem_listed {v : String} {h : Handle} (there : h ∈ listed v) :
    trim h.spelling = h.spelling ∧ h.spelling ≠ "" ∧ ',' ∉ h.spelling.toList := by
  obtain ⟨_, kept, rfl⟩ := List.mem_map.mp there
  obtain ⟨stripped, some⟩ := List.mem_filter.mp kept
  obtain ⟨piece, split, rfl⟩ := List.mem_map.mp stripped
  refine ⟨?_, ?_, ?_⟩
  · rw [trim, String.toList_ofList, strip_strip]
  · rw [← String.toList_inj.ne, String.toList_ofList]
    simpa using some
  · rw [String.toList_ofList]
    exact fun comma => not_mem_of_mem_splitOn split (strip_subset piece comma)

/-- The names that attributes of a name list, in order. -/
def offered (name : Handle) (attributes : List Attribute) : List Handle :=
  ((attributes.filter (·.name == name)).map (·.value)).flatMap listed

/-- The values of a name are those that are seen first in its lines. -/
theorem valueSet_eq (r : Record) (name : Handle) :
    r.valueSet name = firstSeen (offered name r.attributes) :=
  eraseDups_eq_firstSeen _

/-- A name is offered by a line of the attribute that lists it. -/
theorem mem_offered_iff {name : Handle} {as : List Attribute} {h : Handle} :
    h ∈ offered name as ↔ ∃ a ∈ as, (a.name == name) = true ∧ h ∈ listed a.value := by
  simp only [offered, List.flatMap_map, List.mem_flatMap, List.mem_filter, and_assoc]

/-- Lines offer their names one after the other. -/
theorem offered_append (name : Handle) (as bs : List Attribute) :
    offered name (as ++ bs) = offered name as ++ offered name bs := by
  simp only [offered, List.filter_append, List.map_append, List.flatMap_append]

/-- A line offers its names when it is one of the attribute. -/
theorem offered_cons (name : Handle) (a : Attribute) (as : List Attribute) :
    offered name (a :: as) =
      (if (a.name == name) = true then listed a.value else []) ++ offered name as := by
  simp only [offered, List.filter_cons]
  split <;> rfl

/-! ### Lines that are laid out in another way -/

/-- One way to lay out the same lists in other lines. -/
inductive Relaid (name : Handle) : List Attribute → List Attribute → Prop where
  /-- A line is split at a comma into two. -/
  | split {front back : List Attribute} {n : Handle} {v w : String} :
      Relaid name (front ++ ⟨n, v ++ "," ++ w⟩ :: back) (front ++ ⟨n, v⟩ :: ⟨n, w⟩ :: back)
  /-- A line is trimmed. -/
  | trimmed {front back : List Attribute} {n : Handle} {v : String} :
      Relaid name (front ++ ⟨n, v⟩ :: back) (front ++ ⟨n, trim v⟩ :: back)
  /-- The name of a line is spelt in another case. -/
  | renamed {front back : List Attribute} {n n' : Handle} {v : String}
      (same : (n == n') = true) :
      Relaid name (front ++ ⟨n, v⟩ :: back) (front ++ ⟨n', v⟩ :: back)
  /-- A line of another name is put in between. -/
  | interleaved {front back : List Attribute} {n : Handle} {v : String}
      (other : ¬(n == name) = true) : Relaid name (front ++ back) (front ++ ⟨n, v⟩ :: back)
  /-- A line is repeated in any case. -/
  | repeated {front back : List Attribute} {n : Handle} {v w : String}
      (before : ⟨n, v⟩ ∈ front) (same : foldCase w = foldCase v) :
      Relaid name (front ++ back) (front ++ ⟨n, w⟩ :: back)
  /-- An empty line is put in between. -/
  | empty {front back : List Attribute} {n : Handle} :
      Relaid name (front ++ back) (front ++ ⟨n, ""⟩ :: back)

/-! ### The same names are seen in them -/

/-- Names that were seen add nothing. -/
theorem foldl_addUnseen_of_seen {seen names : List Handle}
    (h : ∀ n ∈ names, ∃ k ∈ seen, (k == n) = true) : names.foldl addUnseen seen = seen := by
  induction names with
  | nil => rfl
  | cons n names ih =>
    have known : seen.contains n = true := contains_iff_exists_beq.mpr (h n List.mem_cons_self)
    rw [List.foldl_cons, addUnseen, if_pos known]
    exact ih fun m hm => h m (List.mem_cons_of_mem n hm)

/-- Names that stand in front in some spelling do not matter. -/
theorem firstSeen_append_of_seen {front names : List Handle} (back : List Handle)
    (h : ∀ n ∈ names, ∃ k ∈ front, (k == n) = true) :
    firstSeen (front ++ (names ++ back)) = firstSeen (front ++ back) := by
  have seen : ∀ n ∈ names, ∃ k ∈ firstSeen front, (k == n) = true :=
    fun n hn => ((firstSpellings_firstSeen front).exists_iff n).mpr (h n hn)
  rw [firstSeen, firstSeen, List.foldl_append, List.foldl_append, List.foldl_append, ← firstSeen,
    foldl_addUnseen_of_seen seen]

variable {name : Handle}

/-- The same names are seen first in lines that are laid out in another way. -/
theorem Relaid.firstSeen_eq {as bs : List Attribute} (h : Relaid name as bs) :
    firstSeen (offered name as) = firstSeen (offered name bs) := by
  cases h with
  | @split front back n v w =>
    have both := listed_append v.toList w.toList
    rw [ofList_comma, String.ofList_toList, String.ofList_toList] at both
    simp only [offered_append, offered_cons, both]
    split <;> simp
  | trimmed => simp only [offered_append, offered_cons, listed_trim]
  | @renamed front back n n' v same =>
    have alike : (n == name) = (n' == name) := BEq.congr_left same
    simp only [offered_append, offered_cons, alike]
  | interleaved other => simp only [offered_append, offered_cons, if_neg other, List.nil_append]
  | @repeated front back n v w before same =>
    rw [offered_append, offered_append, offered_cons]
    refine (firstSeen_append_of_seen _ fun h there => ?_).symm
    split at there
    · next named =>
      have listed_alike := List.mem_map_of_mem (f := Handle.folded) there
      rw [map_folded_listed_congr same, List.mem_map] at listed_alike
      obtain ⟨k, hk, spelt⟩ := listed_alike
      exact ⟨k, mem_offered_iff.mpr ⟨_, before, named, hk⟩, Handle.beq_iff.mpr spelt⟩
    · cases there
  | empty =>
    have none : listed "" = [] := rfl
    simp only [offered_append, offered_cons, none, ite_self, List.nil_append]

/-! ### Lines of one name each -/

/-- Lines of the same layout in any number of steps, forth or back. -/
def SameLists (name : Handle) : List Attribute → List Attribute → Prop :=
  Relation.EqvGen (Relaid name)

/-- A line for each name. -/
def oneEach (name : Handle) (names : List Handle) : List Attribute :=
  names.map fun n => ⟨name, n.spelling⟩

private theorem oneEach_append (ns ms : List Handle) :
    oneEach name (ns ++ ms) = oneEach name ns ++ oneEach name ms :=
  List.map_append

/-- Steps between layouts are put together. -/
theorem SameLists.trans {as bs cs : List Attribute} (h : SameLists name as bs)
    (h' : SameLists name bs cs) : SameLists name as cs :=
  Relation.EqvGen.trans _ _ _ h h'

/-- In lines of the same layout the same names are seen first. -/
theorem SameLists.firstSeen_eq {as bs : List Attribute} (h : SameLists name as bs) :
    firstSeen (offered name as) = firstSeen (offered name bs) := by
  induction h with
  | rel _ _ h => exact h.firstSeen_eq
  | refl => rfl
  | symm _ _ _ ih => exact ih.symm
  | trans _ _ _ _ _ ih ih' => exact ih.trans ih'

/-- A line can be laid out as a line for each name that it lists. -/
theorem sameLists_line (front back : List Attribute) (cs : List Char) :
    SameLists name (front ++ ⟨name, .ofList cs⟩ :: back)
      (front ++ (oneEach name (listed (.ofList cs)) ++ back)) := by
  induction cs using comma_induction generalizing front back with
  | piece p uncut =>
    have trimmed : SameLists name (front ++ ⟨name, .ofList p⟩ :: back)
        (front ++ ⟨name, trim (.ofList p)⟩ :: back) := .rel _ _ .trimmed
    refine trimmed.trans ?_
    rw [listed_piece uncut, namesOf, trim, String.toList_ofList]
    split
    · next none =>
      rw [none]
      exact .symm _ _ (.rel _ _ .empty)
    · next some => exact .refl _
  | cons p rest _ ihp ih =>
    have cut : SameLists name (front ++ ⟨name, .ofList p ++ "," ++ .ofList rest⟩ :: back)
        (front ++ ⟨name, .ofList p⟩ :: ⟨name, .ofList rest⟩ :: back) := .rel _ _ .split
    have others := ih (front ++ oneEach name (listed (.ofList p))) back
    rw [List.append_assoc, List.append_assoc] at others
    rw [ofList_comma]
    refine cut.trans ((ihp front (⟨name, .ofList rest⟩ :: back)).trans ?_)
    rw [← ofList_comma, listed_append, oneEach_append, List.append_assoc]
    exact others

/-- Attributes can be laid out as a line for each name that they list, behind others. -/
theorem sameLists_lines (front attributes : List Attribute) :
    SameLists name (front ++ attributes) (front ++ oneEach name (offered name attributes)) := by
  induction attributes generalizing front with
  | nil => exact .refl _
  | cons a attributes ih =>
    rw [offered_cons]
    split
    · next same =>
      have named : SameLists name (front ++ a :: attributes)
          (front ++ ⟨name, a.value⟩ :: attributes) := .rel _ _ (.renamed same)
      have line : SameLists name (front ++ ⟨name, .ofList a.value.toList⟩ :: attributes)
          (front ++ (oneEach name (listed (.ofList a.value.toList)) ++ attributes)) :=
        sameLists_line front attributes a.value.toList
      have others := ih (front ++ oneEach name (listed a.value))
      rw [String.ofList_toList] at line
      rw [oneEach_append, ← List.append_assoc]
      rw [← List.append_assoc] at line
      exact named.trans (line.trans others)
    · next other =>
      have gone : SameLists name (front ++ a :: attributes) (front ++ attributes) :=
        .symm _ _ (.rel _ _ (.interleaved other))
      exact gone.trans (ih front)

/-- A line for each name can be left out where a former line has the name in some spelling. -/
theorem sameLists_foldl (seen names : List Handle) :
    SameLists name (oneEach name (seen ++ names)) (oneEach name (names.foldl addUnseen seen)) := by
  induction names generalizing seen with
  | nil =>
    rw [List.append_nil]
    exact .refl _
  | cons n names ih =>
    rw [List.foldl_cons, addUnseen]
    split
    · next known =>
      obtain ⟨k, hk, same⟩ := contains_iff_exists_beq.mp known
      have before : ⟨name, k.spelling⟩ ∈ oneEach name seen :=
        List.mem_map_of_mem (f := fun n : Handle => (⟨name, n.spelling⟩ : Attribute)) hk
      have again : Relaid name (oneEach name seen ++ oneEach name names)
          (oneEach name seen ++ ⟨name, n.spelling⟩ :: oneEach name names) :=
        .repeated before (Handle.beq_iff.mp same).symm
      have gone : SameLists name (oneEach name (seen ++ n :: names))
          (oneEach name (seen ++ names)) := by
        rw [oneEach_append, oneEach_append]
        exact .symm _ _ (.rel _ _ again)
      exact gone.trans (ih seen)
    · next new =>
      have last := ih (seen ++ [n])
      rwa [List.append_assoc, List.singleton_append] at last

/-- Attributes can be laid out as a line for each name that is seen first in them. -/
theorem sameLists_firstSeen (attributes : List Attribute) :
    SameLists name attributes (oneEach name (firstSeen (offered name attributes))) :=
  (sameLists_lines [] attributes).trans (sameLists_foldl [] (offered name attributes))

/-- Lines from which the same is read are the same lines, laid out in another way. -/
theorem sameLists_iff {as bs : List Attribute} :
    SameLists name as bs ↔ firstSeen (offered name as) = firstSeen (offered name bs) := by
  refine ⟨SameLists.firstSeen_eq, fun same => ?_⟩
  have back : SameLists name bs (oneEach name (firstSeen (offered name bs))) :=
    sameLists_firstSeen bs
  rw [← same] at back
  exact (sameLists_firstSeen as).trans (.symm _ _ back)

/-- A line lists what stands between its commas, but for the blanks. From the attributes of a name
each listed name is read once, in the spelling and the order in which it is seen first: no two names
are the same up to case, they are trimmed, not empty and without commas, and none is missing. The
same is read from two records exactly when the attributes of the one are those of the other, laid
out in another way. -/
theorem valueSet_by_layout (name : Handle) :
    (∀ pieces : List (List Char), pieces ≠ [] → (∀ p ∈ pieces, ',' ∉ p) →
      listed (.ofList ([','].intercalate pieces)) = pieces.flatMap namesOf) ∧
    (∀ r : Record,
      FirstSpellings (offered name r.attributes) (r.valueSet name) ∧
      (r.valueSet name).Pairwise (fun a b => (a == b) = false) ∧
      (∀ h ∈ r.valueSet name,
        trim h.spelling = h.spelling ∧ h.spelling ≠ "" ∧ ',' ∉ h.spelling.toList) ∧
      ∀ x, (∃ h ∈ r.valueSet name, (h == x) = true) ↔
        ∃ a ∈ r.attributes, (a.name == name) = true ∧ ∃ h ∈ listed a.value, (h == x) = true) ∧
    (∀ r s : Record, SameLists name r.attributes s.attributes ↔ r.valueSet name = s.valueSet name) ∧
    ∀ r s : Record, SameLists mntBy r.attributes s.attributes ↔ r.maintainers = s.maintainers := by
  have layout (name : Handle) (r s : Record) :
      SameLists name r.attributes s.attributes ↔ r.valueSet name = s.valueSet name := by
    rw [valueSet_eq, valueSet_eq, sameLists_iff]
  refine ⟨fun pieces => listed_intercalate, fun r => ?_, layout name, layout mntBy⟩
  have firsts := firstSpellings_firstSeen (offered name r.attributes)
  rw [← valueSet_eq] at firsts
  refine ⟨firsts, firsts.distinct, fun h kept => ?_, fun x => ?_⟩
  · have there := List.mem_of_find?_eq_some ((firsts.mem_iff h).mp kept)
    obtain ⟨a, -, -, there⟩ := mem_offered_iff.mp there
    exact clean_of_mem_listed there
  · rw [firsts.exists_iff]
    simp only [mem_offered_iff]
    constructor
    · rintro ⟨h, ⟨a, ha, named, there⟩, same⟩
      exact ⟨a, ha, named, h, there, same⟩
    · rintro ⟨a, ha, named, h, there, same⟩
      exact ⟨h, ⟨a, ha, named, there⟩, same⟩

/-- A name that comes again in another case keeps its first place and spelling. -/
example : maintainers ⟨.route, ⟨"192.0.2.0/24"⟩,
    [⟨⟨"mnt-by"⟩, "B-MNT, a-mnt,"⟩, ⟨⟨"remarks"⟩, "C-MNT"⟩, ⟨⟨"Mnt-By"⟩, "A-MNT,D-MNT"⟩]⟩ =
    [⟨"B-MNT"⟩, ⟨"a-mnt"⟩, ⟨"D-MNT"⟩] := by
  decide

end Record

end RegistryConsent
