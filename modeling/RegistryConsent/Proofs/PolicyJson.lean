import RegistryConsent.Policy.Load
import RegistryConsent.Proofs.HandleKeys
import RegistryConsent.Proofs.JsonText
import RegistryConsent.Proofs.Results

/-!
# Policies are laid over the defaults

A JSON value is read as a policy when each of the fields that it has is well formed; the fields that
it does not have keep their defaults, and members of other names are passed over. Names become a set
that keeps the first spelling of each. What is written for a policy is read back as the policy, and
loaded when the policy passes its check.
-/

namespace RegistryConsent

/-- Results for the elements of a list are there when there is one for each. -/
theorem mapM_eq_some_iff_forall₂ {α β : Type} {f : α → Option β} {xs : List α} {ys : List β} :
    xs.mapM f = some ys ↔ List.Forall₂ (fun x y => f x = some y) xs ys := by
  rw [mapM_eq_some_iff, ← List.forall₂_eq_eq_eq, List.forall₂_map_left_iff,
    List.forall₂_map_right_iff]

/-! ### Fields and their slots -/

namespace Json

/-- What a structure gives for fields of some names, in order: an object by members of these names,
each at most once, beside any others; an array by its items, which may not be too many. -/
inductive Slots (names : List String) : Json → List (Option Json) → Prop
  | object {members : List (Option String × Json)} {slots : List (Option Json)}
      (texts : ∀ m ∈ members, m.1.isSome = true)
      (once : List.Forall₂ (fun name slot => membersNamed name members = slot.toList) names slots) :
      Slots names (.object members) slots
  | array {items : List Json} (few : items.length ≤ names.length) :
      Slots names (.array items)
        (items.map some ++ List.replicate (names.length - items.length) none)

/-- A field is what its slot means, or what it is by default if there is nothing in its slot. -/
inductive Given {α : Type} (means : Json → α → Prop) (standard : α) : Option Json → α → Prop
  | missing : Given means standard none standard
  | present {j : Json} {a : α} (meant : means j a) : Given means standard (some j) a

/-- The slot of a name holds its member, if there is one, and there are not two. -/
theorem slot?_eq_some_iff {members : List (Option String × Json)} {name : String}
    {slot : Option Json} :
    slot? members name = some slot ↔ membersNamed name members = slot.toList := by
  rw [slot?]
  split
  · next none => rw [none]; cases slot <;> simp
  · next x one => rw [one]; cases slot <;> simp
  · next some other =>
    refine ⟨nofun, fun slots => ?_⟩
    cases slot with
    | none => exact absurd slots some
    | some x => exact absurd slots (other x)

/-- The slots of a structure are what it gives for the fields. -/
theorem slots?_eq_some_iff {names : List String} {j : Json} {slots : List (Option Json)} :
    slots? names j = some slots ↔ Slots names j slots := by
  cases j with
  | object members =>
    rw [slots?]
    split
    · next texts =>
      rw [mapM_eq_some_iff_forall₂]
      simp only [slot?_eq_some_iff]
      constructor
      · exact .object (List.all_eq_true.mp texts)
      · rintro (⟨-, once⟩ | _)
        exact once
    · next other =>
      refine ⟨nofun, ?_⟩
      rintro (⟨texts, -⟩ | _)
      exact absurd (List.all_eq_true.mpr texts) other
  | array items =>
    rw [slots?]
    split
    · next few =>
      rw [Option.some.injEq]
      constructor
      · rintro rfl
        exact .array few
      · rintro ⟨⟩
        rfl
    · next many =>
      refine ⟨nofun, ?_⟩
      rintro (_ | few)
      exact absurd few many
  | _ => exact ⟨nofun, nofun⟩

/-- A field that may be missing is what is given for it. -/
theorem optional?_eq_some_iff {α : Type} {read : Json → Option α} {means : Json → α → Prop}
    (h : ∀ j a, read j = some a ↔ means j a) {standard a : α} {slot : Option Json} :
    optional? standard read slot = some a ↔ Given means standard slot a := by
  cases slot with
  | none =>
    rw [optional?, Option.some.injEq]
    constructor
    · rintro rfl
      exact .missing
    · rintro ⟨⟩
      rfl
  | some j =>
    rw [optional?, h]
    constructor
    · exact .present
    · rintro ⟨⟩
      assumption

/-! ### Values -/

/-- A text is read from a string that is one. -/
theorem asText?_eq_some_iff {j : Json} {s : String} : asText? j = some s ↔ j = .text s := by
  cases j <;> simp [asText?, text]

/-- A truth value is read from one. -/
theorem asBool?_eq_some_iff {j : Json} {b : Bool} : asBool? j = some b ↔ j = .bool b := by
  cases j <;> simp [asBool?]

/-- A number is read from a natural one below the bound. -/
theorem asNatural?_eq_some_iff {bound : Nat} {j : Json} {n : Nat} :
    asNatural? bound j = some n ↔ j = .natural n ∧ n < bound := by
  cases j with
  | natural m =>
    rw [asNatural?, Json.natural.injEq]
    split
    · next small =>
      rw [Option.some.injEq]
      constructor
      · rintro rfl
        exact ⟨rfl, small⟩
      · exact And.left
    · next large =>
      refine ⟨nofun, ?_⟩
      rintro ⟨rfl, small⟩
      exact absurd small large
  | _ => exact ⟨nofun, nofun⟩

/-- A list is read from the array of what is written for its elements. -/
theorem asList?_eq_some_iff {α : Type} {read : Json → Option α} {write : α → Json}
    (h : ∀ j a, read j = some a ↔ j = write a) {j : Json} {as : List α} :
    asList? read j = some as ↔ j = .array (as.map write) := by
  cases j with
  | array items =>
    rw [asList?, mapM_eq_some_iff_forall₂, Json.array.injEq, ← List.forall₂_eq_eq_eq,
      List.forall₂_map_right_iff]
    simp only [h]
  | _ => exact ⟨nofun, nofun⟩

end Json

open Json

/-- A value is an array of the spellings of some names, the first spelling of each being kept. -/
def ListsNames (j : Json) (names : SortedSet Handle) : Prop :=
  ∃ spellings, j = .texts spellings ∧ names = .ofList (spellings.map Handle.mk)

private theorem map_mk_spelling (hs : List Handle) : (hs.map (·.spelling)).map Handle.mk = hs := by
  rw [List.map_map]
  exact List.map_id hs

/-- Names are read from the array of their spellings. -/
theorem namesOfJson?_eq_some_iff (j : Json) (names : SortedSet Handle) :
    namesOfJson? j = some names ↔ ListsNames j names := by
  have spelt (j : Json) (h : Handle) : Handle.ofJson? j = some h ↔ j = .text h.spelling := by
    rw [Handle.ofJson?, Option.map_eq_some_iff]
    simp only [asText?_eq_some_iff]
    exact ⟨fun ⟨_, same, named⟩ => named ▸ same, fun same => ⟨h.spelling, same, rfl⟩⟩
  rw [namesOfJson?, Option.map_eq_some_iff, ListsNames]
  simp only [asList?_eq_some_iff spelt]
  constructor
  · rintro ⟨hs, rfl, rfl⟩
    exact ⟨hs.map (·.spelling), by simp [texts], by rw [map_mk_spelling]⟩
  · rintro ⟨spellings, rfl, rfl⟩
    exact ⟨spellings.map Handle.mk, by simp [texts, Function.comp_def], rfl⟩

/-- A value gives the maintainers: some of their lists, laid over some standard ones. -/
def Maintainers.GivenBy (m standard : Maintainers) (j : Json) : Prop :=
  ∃ power enduser alloc rs enum dbm,
    Slots ["power", "enduser", "alloc", "rs", "enum", "dbm"] j
      [power, enduser, alloc, rs, enum, dbm] ∧
    Given ListsNames standard.power power m.power ∧
    Given ListsNames standard.enduser enduser m.enduser ∧
    Given ListsNames standard.alloc alloc m.alloc ∧
    Given ListsNames standard.rs rs m.rs ∧
    Given ListsNames standard.enum enum m.enum ∧
    Given ListsNames standard.dbm dbm m.dbm

/-- Maintainers are read from the values that give them, over empty lists. -/
theorem Maintainers.ofJson?_eq_some_iff (j : Json) (m : Maintainers) :
    ofJson? j = some m ↔ m.GivenBy {} j := by
  have names {slot : Option Json} {a : SortedSet Handle} :
      optional? .empty namesOfJson? slot = some a ↔ Given ListsNames .empty slot a :=
    optional?_eq_some_iff namesOfJson?_eq_some_iff
  rw [ofJson?, GivenBy]
  constructor
  · intro h
    split at h
    · next power enduser alloc rs enum dbm slots =>
      simp only [Option.bind_eq_bind, Option.bind_eq_some_iff, names] at h
      obtain ⟨_, hp, _, he, _, ha, _, hr, _, hn, _, hd, same⟩ := h
      cases same
      exact ⟨power, enduser, alloc, rs, enum, dbm, slots?_eq_some_iff.mp slots,
        hp, he, ha, hr, hn, hd⟩
    · cases h
  · rintro ⟨power, enduser, alloc, rs, enum, dbm, slots, hp, he, ha, hr, hn, hd⟩
    rw [slots?_eq_some_iff.mpr slots]
    dsimp only
    rw [names.mpr hp, names.mpr he, names.mpr ha, names.mpr hr, names.mpr hn, names.mpr hd]
    rfl

/-- A value gives the policy: some of its fields, laid over those of a standard policy. Lists of
maintainers that are given at all are laid over empty ones. -/
def Policy.GivenBy (p standard : Policy) (j : Json) : Prop :=
  ∃ ranges restrict passwords maintainers,
    Slots ["trusted_ranges", "restrict_maintainer_updates_to_trusted_network", "max_passwords",
      "maintainers"] j [ranges, restrict, passwords, maintainers] ∧
    Given (fun j texts => j = .texts texts) standard.trustedRanges ranges p.trustedRanges ∧
    Given (fun j b => j = .bool b) standard.restrictToTrustedNetwork restrict
      p.restrictToTrustedNetwork ∧
    Given (fun j n => j = .natural n ∧ n < UInt64.size) standard.maxPasswords passwords
      p.maxPasswords ∧
    Given (fun j m => Maintainers.GivenBy m {} j) standard.maintainers maintainers p.maintainers

/-- A policy is read from the values that give it over the default one. -/
theorem Policy.ofJson?_eq_some_iff (j : Json) (p : Policy) :
    ofJson? j = some p ↔ p.GivenBy default j := by
  have ranges {slot : Option Json} {a : List String} :
      optional? [] (asList? asText?) slot = some a ↔
        Given (fun j texts => j = .texts texts) (default : Policy).trustedRanges slot a :=
    optional?_eq_some_iff fun j texts => asList?_eq_some_iff fun _ _ => asText?_eq_some_iff
  have restrict {slot : Option Json} {b : Bool} :
      optional? true asBool? slot = some b ↔
        Given (fun j b => j = .bool b) (default : Policy).restrictToTrustedNetwork slot b :=
    optional?_eq_some_iff fun _ _ => asBool?_eq_some_iff
  have passwords {slot : Option Json} {n : Nat} :
      optional? 20 (asNatural? UInt64.size) slot = some n ↔
        Given (fun j n => j = .natural n ∧ n < UInt64.size) (default : Policy).maxPasswords
          slot n :=
    optional?_eq_some_iff fun _ _ => asNatural?_eq_some_iff
  have maintainers {slot : Option Json} {m : Maintainers} :
      optional? {} Maintainers.ofJson? slot = some m ↔
        Given (fun j m => Maintainers.GivenBy m {} j) (default : Policy).maintainers slot m :=
    optional?_eq_some_iff Maintainers.ofJson?_eq_some_iff
  rw [ofJson?, GivenBy]
  constructor
  · intro h
    split at h
    · next rangesSlot restrictSlot passwordsSlot maintainersSlot slots =>
      simp only [Option.bind_eq_bind, Option.bind_eq_some_iff, ranges, restrict, passwords,
        maintainers] at h
      obtain ⟨_, hr, _, ht, _, hp, _, hm, same⟩ := h
      cases same
      exact ⟨_, _, _, _, slots?_eq_some_iff.mp slots, hr, ht, hp, hm⟩
    · cases h
  · rintro ⟨rangesSlot, restrictSlot, passwordsSlot, maintainersSlot, slots, hr, ht, hp, hm⟩
    rw [slots?_eq_some_iff.mpr slots]
    dsimp only
    rw [ranges.mpr hr, restrict.mpr ht, passwords.mpr hp, maintainers.mpr hm]
    rfl

/-! ### What is written -/

/-- Names are written with their spellings, so that the same spellings are kept. -/
theorem listsNames_namesToJson (names : SortedSet Handle) :
    ListsNames (namesToJson names) names := by
  refine ⟨names.toList.map (·.spelling), ?_, ?_⟩
  · simp [namesToJson, texts, Handle.toJson]
  · rw [map_mk_spelling, SortedSet.ofList_toList]

/-- What is written for maintainers gives them, whatever it is laid over. -/
theorem Maintainers.givenBy_toJson (m standard : Maintainers) : m.GivenBy standard m.toJson := by
  refine ⟨_, _, _, _, _, _, .object ?_ ?_, .present (listsNames_namesToJson _),
    .present (listsNames_namesToJson _), .present (listsNames_namesToJson _),
    .present (listsNames_namesToJson _), .present (listsNames_namesToJson _),
    .present (listsNames_namesToJson _)⟩
  · simp
  · simp [membersNamed]

/-- What is written for a policy gives the policy, whatever it is laid over. -/
theorem Policy.givenBy_toJson {p : Policy} (h : p.maxPasswords < UInt64.size)
    (standard : Policy) : p.GivenBy standard p.toJson := by
  refine ⟨_, _, _, _, .object ?_ ?_, .present rfl, .present rfl, .present ⟨rfl, h⟩,
    .present (Maintainers.givenBy_toJson _ _)⟩
  · simp
  · simp [membersNamed]

private theorem plain_texts (ss : List String) : Plain (.texts ss) := by
  refine .array fun x hx => ?_
  obtain ⟨s, -, rfl⟩ := List.mem_map.mp hx
  exact .string (some s)

private theorem plain_record {members : List (String × Json)} (h : ∀ m ∈ members, Plain m.2) :
    Plain (.record members) := by
  refine .object fun m hm => ?_
  obtain ⟨member, there, rfl⟩ := List.mem_map.mp hm
  exact h member there

/-- No number is written for lists of maintainers. -/
theorem Maintainers.plain_toJson (m : Maintainers) : Plain m.toJson := by
  have names (s : SortedSet Handle) : Plain (namesToJson s) := by
    obtain ⟨spellings, listed, -⟩ := listsNames_namesToJson s
    rw [listed]
    exact plain_texts spellings
  apply plain_record
  simp only [List.forall_mem_cons]
  exact ⟨names _, names _, names _, names _, names _, names _, List.forall_mem_nil _⟩

/-- Nothing but natural numbers is written for the number of a policy. -/
theorem Policy.plain_toJson (p : Policy) : Plain p.toJson := by
  apply plain_record
  simp only [List.forall_mem_cons]
  exact ⟨plain_texts _, .bool _, .natural _, p.maintainers.plain_toJson, List.forall_mem_nil _⟩

/-- What is kept of names has the first spelling of each. -/
theorem mem_ofList_names (names : List Handle) (h : Handle) :
    h ∈ (SortedSet.ofList names).toList ↔ names.find? (· == h) = some h := by
  rw [SortedSet.mem_iff_find?, SortedSet.find?_ofList, Handle.find?_compare]

/-- A JSON value is read as the policy that it gives over the default one, and as none if it gives
none: the fields and lists of maintainers that are there are well formed and are taken over, all
others have their defaults. Of the names in a list the first spelling of each is kept. The value
that is written for a policy is read back as the policy, with the same spellings, and so is its
text; any text of it is loaded when the policy passes its check, and otherwise refused with the
error of the check. -/
theorem Policy.json_overlays_defaults :
    (∀ (j : Json) (p : Policy), ofJson? j = some p ↔ p.GivenBy default j) ∧
    (∀ (names : List Handle) (h : Handle),
      h ∈ (SortedSet.ofList names).toList ↔ names.find? (· == h) = some h) ∧
    ∀ p : Policy, p.maxPasswords < UInt64.size →
      ofJson? p.toJson = some p ∧ parse? p.toJson.toText = some p.toJson ∧
      ∀ s, parse? s = some p.toJson →
        load s = match p.check with
          | .ok _ => .ok p
          | .error e => .error (.invalid e) := by
  refine ⟨ofJson?_eq_some_iff, mem_ofList_names, fun p bound => ?_⟩
  have read := (ofJson?_eq_some_iff p.toJson p).mpr (givenBy_toJson bound default)
  refine ⟨read, parse?_toText p.plain_toJson, fun s parsed => ?_⟩
  cases found : p.check <;> simp only [load, parsed, Option.bind_some, read, found]

/-- A policy with two maintainers of one list, and another number of passwords. -/
private def enumPolicy : Policy where
  maxPasswords := 5
  maintainers := { enum := .ofList [⟨"A-MNT"⟩, ⟨"B-MNT"⟩] }

/-- An object of two fields, with one list of maintainers and a member that no policy has, gives the
policy with the first spelling of each name; and the policy is loaded from its text. -/
theorem Policy.enum_list_laid_over_defaults :
    ofJson? (.record [("colour", .text "blue"), ("max_passwords", .natural 5),
      ("maintainers", .record [("enum", .texts ["A-MNT", "a-mnt", "B-MNT"])])]) =
        some enumPolicy ∧
    load enumPolicy.toJson.toText = .ok enumPolicy := by
  obtain ⟨overlay, -, written⟩ := json_overlays_defaults
  constructor
  · have names : ListsNames (.texts ["A-MNT", "a-mnt", "B-MNT"]) enumPolicy.maintainers.enum :=
      ⟨_, rfl, by decide⟩
    have maintainers : enumPolicy.maintainers.GivenBy {}
        (.record [("enum", .texts ["A-MNT", "a-mnt", "B-MNT"])]) :=
      ⟨none, none, none, none, some _, none, .object (by simp) (by simp [membersNamed]),
        .missing, .missing, .missing, .missing, .present names, .missing⟩
    exact (overlay _ _).mpr ⟨none, none, some (.natural 5), some _,
      .object (by simp) (by simp [membersNamed]),
      .missing, .missing, .present ⟨rfl, by decide⟩, .present maintainers⟩
  · obtain ⟨-, text, loaded⟩ := written enumPolicy (by decide)
    have passes : enumPolicy.check.isOk = true := by decide +kernel
    rw [loaded _ text]
    cases check : enumPolicy.check with
    | ok found => rfl
    | error e =>
      rw [check] at passes
      cases passes

end RegistryConsent
