import Mathlib.Data.Finset.Card
import Mathlib.Logic.Relation
import RegistryConsent.Proofs.FoldedCase
import RegistryConsent.Proofs.Registry

/-!
# The registry as the union of its groups

The names of the groups are read one after the other, and the first blank name ends the reading. The
registry that comes out answers and counts by what the groups confer on each name up to case.
Nothing else about the groups matters: neither their order and that of their names, nor the case of
a name, nor how the names of a principal are shared out among groups.
-/

namespace RegistryConsent

namespace Registry

/-- The folded names of the maintainers. -/
def keys (r : Registry) : List (List Char) := r.entries.map (·.1.folded)

/-- A name is a new maintainer when no maintainer has this name in any case. -/
theorem keys_confer (r : Registry) (name : Handle) (p : Principal) :
    (r.confer name p).keys =
      if name.folded ∈ r.keys then r.keys else r.keys ++ [name.folded] := by
  obtain ⟨entries⟩ := r
  simp only [keys, confer]
  induction entries with
  | nil => rfl
  | cons e rest ih =>
    obtain ⟨n, ps⟩ := e
    rw [fileUnder]
    by_cases same : n.folded = name.folded
    · rw [if_pos (Handle.beq_iff.mpr same)]
      simp [same]
    · rw [if_neg (mt Handle.beq_iff.mp same), List.map_cons, ih]
      by_cases listed : name.folded ∈ rest.map (·.1.folded)
      · simp [listed]
      · simp [listed, Ne.symm same]

/-- After one step the maintainers are the name of the step and the former ones. -/
theorem mem_keys_confer (r : Registry) (name : Handle) (p : Principal) (key : List Char) :
    key ∈ (r.confer name p).keys ↔ name.folded = key ∨ key ∈ r.keys := by
  rw [keys_confer]
  by_cases listed : name.folded ∈ r.keys
  · rw [if_pos listed]
    exact ⟨.inr, fun h => h.elim (fun same => same ▸ listed) id⟩
  · rw [if_neg listed, List.mem_append, List.mem_singleton, or_comm, eq_comm]

/-- No two maintainers are the same after one step when none were before it. -/
theorem nodup_keys_confer (r : Registry) (name : Handle) (p : Principal) (h : r.keys.Nodup) :
    (r.confer name p).keys.Nodup := by
  rw [keys_confer]
  by_cases listed : name.folded ∈ r.keys
  · rwa [if_pos listed]
  · rw [if_neg listed, ← List.concat_eq_append]
    exact h.concat listed

/-- The maintainers are the listed names and those that were there before. -/
theorem mem_keys_conferAll (r : Registry) (listed : List (Principal × Handle)) (key : List Char) :
    key ∈ (r.conferAll listed).keys ↔ (∃ l ∈ listed, l.2.folded = key) ∨ key ∈ r.keys :=
  foldl_iff (P := fun r => key ∈ Registry.keys r)
    (fun r l => mem_keys_confer r l.2 l.1 key) r listed

/-- No two maintainers are the same after any number of steps. -/
theorem nodup_keys_conferAll (r : Registry) (listed : List (Principal × Handle))
    (h : r.keys.Nodup) : (r.conferAll listed).keys.Nodup := by
  induction listed generalizing r with
  | nil => exact h
  | cons l listed ih => exact ih (r.confer l.2 l.1) (nodup_keys_confer r l.2 l.1 h)

/-- The maintainers of a registry are the names of its groups up to case. -/
theorem size_conferAll (listed : List (Principal × Handle)) :
    (empty.conferAll listed).size = (listed.map (·.2.folded)).toFinset.card := by
  have nodup := nodup_keys_conferAll empty listed List.nodup_nil
  have same : (empty.conferAll listed).keys.toFinset = (listed.map (·.2.folded)).toFinset := by
    ext key
    rw [List.mem_toFinset, List.mem_toFinset, mem_keys_conferAll, List.mem_map]
    simp [keys, empty]
  rw [← same, List.toFinset_card_of_nodup nodup, keys, List.length_map, size]

/-- Some group of a principal lists a name with this folded form. -/
def Confers (groups : List MaintainerGroup) (p : Principal) (key : List Char) : Prop :=
  ∃ g ∈ groups, g.principal = p ∧ ∃ name ∈ g.names, name.folded = key

/-- Groups confer what the first one confers and what the others do. -/
theorem confers_cons {g : MaintainerGroup} {groups : List MaintainerGroup} {p : Principal}
    {key : List Char} :
    Confers (g :: groups) p key ↔
      (g.principal = p ∧ ∃ name ∈ g.names, name.folded = key) ∨ Confers groups p key :=
  List.exists_mem_cons_iff _ _ _

/-- A registry answers with what its groups confer on the name up to case. -/
theorem mem_lookup_iff_confers {groups : List MaintainerGroup} {r : Registry}
    (h : build groups = .ok r) (x : Handle) (p : Principal) :
    p ∈ (r.lookup x).toList ↔ Confers groups p x.folded := by
  rw [mem_lookup_build groups r h, Confers]
  simp only [Handle.beq_iff, exists_and_left, and_left_comm]

/-- The blank names of the groups up to case. -/
theorem exists_isBlank_iff {groups : List MaintainerGroup} :
    (∃ g ∈ groups, ∃ name ∈ g.names, name.isBlank = true) ↔
      ∃ p key, Confers groups p key ∧ key.all Text.isBlank = true := by
  simp only [Confers, Handle.isBlank_eq]
  constructor
  · rintro ⟨g, hg, name, hname, blank⟩
    exact ⟨g.principal, name.folded, ⟨g, hg, rfl, name, hname, rfl⟩, blank⟩
  · rintro ⟨_, _, ⟨g, hg, rfl, name, hname, rfl⟩, blank⟩
    exact ⟨g, hg, name, hname, blank⟩

/-- A blank name in any of the groups is one in the list of all names. -/
theorem find?_listings_eq_none_iff {groups : List MaintainerGroup} :
    (listings groups).find? (·.2.isBlank) = none ↔
      ¬∃ g ∈ groups, ∃ name ∈ g.names, name.isBlank = true := by
  simp [listings]

/-- One way to write the same groups in another form. -/
inductive Rearranged : List MaintainerGroup → List MaintainerGroup → Prop where
  /-- The groups come in another order. -/
  | groups {gs gs' : List MaintainerGroup} (order : gs.Perm gs') : Rearranged gs gs'
  /-- The names of a group come in another order. -/
  | names {ns ns' : List Handle} {p : Principal} {gs : List MaintainerGroup}
      (order : ns.Perm ns') : Rearranged (⟨ns, p⟩ :: gs) (⟨ns', p⟩ :: gs)
  /-- The names of a group are spelt in another case. -/
  | spelling {ns ns' : List Handle} {p : Principal} {gs : List MaintainerGroup}
      (same : List.Forall₂ (fun n n' => (n == n') = true) ns ns') :
      Rearranged (⟨ns, p⟩ :: gs) (⟨ns', p⟩ :: gs)
  /-- The names of a group are shared out between two groups of its principal. -/
  | split {ns ns₁ ns₂ : List Handle} {p : Principal} {gs : List MaintainerGroup}
      (shared : ∀ name, name ∈ ns ↔ name ∈ ns₁ ∨ name ∈ ns₂) :
      Rearranged (⟨ns, p⟩ :: gs) (⟨ns₁, p⟩ :: ⟨ns₂, p⟩ :: gs)

/-- Names that are spelt in another case have the same folded forms. -/
theorem map_folded_eq_of_forall₂ {ns ns' : List Handle}
    (same : List.Forall₂ (fun n n' => (n == n') = true) ns ns') :
    ns.map Handle.folded = ns'.map Handle.folded := by
  induction same with
  | nil => rfl
  | cons hd _ ih => rw [List.map_cons, List.map_cons, Handle.beq_iff.mp hd, ih]

/-- Groups in another form confer the same. -/
theorem Rearranged.confers_iff {gs gs' : List MaintainerGroup} (h : Rearranged gs gs')
    (p : Principal) (key : List Char) : Confers gs p key ↔ Confers gs' p key := by
  cases h with
  | groups order => simp only [Confers, order.mem_iff]
  | names order => simp only [confers_cons, order.mem_iff]
  | spelling same =>
    have folded := map_folded_eq_of_forall₂ same
    simp only [confers_cons, ← List.mem_map, folded]
  | split shared =>
    simp only [confers_cons, shared, or_and_right, exists_or, and_or_left, or_assoc]

/-- Groups that have been brought into another form step by step, or back, confer the same. -/
theorem confers_iff_of_rearranged {gs gs' : List MaintainerGroup}
    (h : Relation.EqvGen Rearranged gs gs') (p : Principal) (key : List Char) :
    Confers gs p key ↔ Confers gs' p key := by
  induction h with
  | rel _ _ h => exact h.confers_iff p key
  | refl => exact Iff.rfl
  | symm _ _ _ ih => exact ih.symm
  | trans _ _ _ _ _ ih ih' => exact ih.trans ih'

/-- The folded names are those on which some principal is conferred. -/
theorem mem_map_folded_iff {groups : List MaintainerGroup} {key : List Char} :
    key ∈ (groups.flatMap (·.names)).map Handle.folded ↔ ∃ p, Confers groups p key := by
  simp only [List.mem_map, List.mem_flatMap, Confers]
  constructor
  · rintro ⟨name, ⟨g, hg, hname⟩, spelt⟩
    exact ⟨g.principal, g, hg, rfl, name, hname, spelt⟩
  · rintro ⟨_, g, hg, -, name, hname, spelt⟩
    exact ⟨name, ⟨g, hg, hname⟩, spelt⟩

/-- A registry counts the names of its groups up to case. -/
theorem size_eq_card {groups : List MaintainerGroup} {r : Registry} (h : build groups = .ok r) :
    r.size = ((groups.flatMap (·.names)).map Handle.folded).toFinset.card := by
  obtain ⟨-, rfl⟩ := build_eq_ok_iff.mp h
  rw [size_conferAll, listings, List.map_flatMap, List.map_flatMap]
  simp only [List.map_map, Function.comp_def]

/-- A registry depends on no more than what its groups confer. -/
theorem build_of_confers_iff {groups groups' : List MaintainerGroup}
    (same : ∀ p key, Confers groups p key ↔ Confers groups' p key) {r : Registry}
    (h : build groups = .ok r) :
    ∃ r', build groups' = .ok r' ∧ (∀ x, r'.lookup x = r.lookup x) ∧ r'.size = r.size := by
  have visible : (listings groups').find? (·.2.isBlank) = none := by
    have none_blank := (build_eq_ok_iff.mp h).1
    rw [find?_listings_eq_none_iff, exists_isBlank_iff] at none_blank ⊢
    simpa only [same] using none_blank
  have h' : build groups' = .ok (empty.conferAll (listings groups')) :=
    build_eq_ok_iff.mpr ⟨visible, rfl⟩
  refine ⟨_, h', fun x => SortedSet.ext_mem fun p => ?_, ?_⟩
  · rw [mem_lookup_iff_confers h', mem_lookup_iff_confers h, same]
  · rw [size_eq_card h', size_eq_card h]
    congr 1
    ext key
    simp only [List.mem_toFinset, mem_map_folded_iff, same]

/-- A registry comes out exactly when no name of its groups is blank; otherwise the error is the
first blank name, with the principal of its group. The principals of a name are those whose groups
list it in some case, and the maintainers are the listed names up to case. Both stay as they are
when groups or names come in another order, names are spelt in another case, or the names of a
principal are shared out among more groups or brought together in fewer. -/
theorem build_is_union (groups : List MaintainerGroup) :
    ((∃ e, build groups = .error e) ↔
      ∃ g ∈ groups, ∃ name ∈ g.names, name.isBlank = true) ∧
    (∀ e : InvalidMaintainer, build groups = .error e ↔
      (listings groups).find? (·.2.isBlank) = some (e.principal, e.name)) ∧
    ∀ r, build groups = .ok r →
      (∀ x p, p ∈ (r.lookup x).toList ↔
        ∃ g ∈ groups, g.principal = p ∧ ∃ name ∈ g.names, (name == x) = true) ∧
      r.size = ((groups.flatMap (·.names)).map Handle.folded).toFinset.card ∧
      ∀ groups', Relation.EqvGen Rearranged groups groups' →
        ∃ r', build groups' = .ok r' ∧ (∀ x, r'.lookup x = r.lookup x) ∧ r'.size = r.size := by
  refine ⟨?_, fun e => build_eq_error_iff, fun r h => ⟨fun x p => ?_, size_eq_card h, ?_⟩⟩
  · rw [← not_iff_not, ← find?_listings_eq_none_iff, not_exists, build_eq]
    cases (listings groups).find? (·.2.isBlank) with
    | none => exact ⟨fun _ => rfl, fun _ => nofun⟩
    | some l => exact ⟨fun h => absurd rfl (h _), nofun⟩
  · simp only [mem_lookup_iff_confers h, Confers, Handle.beq_iff]
  · exact fun groups' rearranged => build_of_confers_iff (confers_iff_of_rearranged rearranged) h

/-- Two names with one principal, one of which carries another one as well. -/
private def kept : List MaintainerGroup :=
  [⟨[⟨"RIR-MNT"⟩, ⟨"POWER-MNT"⟩], .powerMaintainer⟩, ⟨[⟨"rir-mnt"⟩], .dbmMaintainer⟩]

/-- The same names in three groups. -/
private def sharedOut : List MaintainerGroup :=
  [⟨[⟨"Rir-Mnt"⟩], .dbmMaintainer⟩, ⟨[⟨"power-mnt"⟩], .powerMaintainer⟩,
    ⟨[⟨"RIR-MNT"⟩], .powerMaintainer⟩]

private theorem rearranged_sharedOut : Relation.EqvGen Rearranged kept sharedOut := by
  let dbm (name : String) : MaintainerGroup := ⟨[⟨name⟩], .dbmMaintainer⟩
  let power (name : String) : MaintainerGroup := ⟨[⟨name⟩], .powerMaintainer⟩
  have split : Rearranged kept [power "POWER-MNT", power "RIR-MNT", dbm "rir-mnt"] :=
    .split (by simp [or_comm])
  have respelt : Rearranged [power "POWER-MNT", power "RIR-MNT", dbm "rir-mnt"]
      [power "power-mnt", power "RIR-MNT", dbm "rir-mnt"] := .spelling (.cons rfl .nil)
  have moved : Rearranged [power "power-mnt", power "RIR-MNT", dbm "rir-mnt"]
      [dbm "rir-mnt", power "power-mnt", power "RIR-MNT"] :=
    .groups <| show ([power "power-mnt", power "RIR-MNT"] ++ [dbm "rir-mnt"]).Perm _ from
      List.perm_append_comm
  have respelt' : Rearranged [dbm "rir-mnt", power "power-mnt", power "RIR-MNT"] sharedOut :=
    .spelling (.cons rfl .nil)
  exact .trans _ _ _ (.rel _ _ split)
    (.trans _ _ _ (.rel _ _ respelt) (.trans _ _ _ (.rel _ _ moved) (.rel _ _ respelt')))

/-- The groups give two maintainers in either form, and a blank name behind them is refused. -/
theorem two_maintainers_in_either_form :
    (∃ r r', build kept = .ok r ∧ build sharedOut = .ok r' ∧ r.size = 2 ∧ r'.size = 2 ∧
      Principal.dbmMaintainer ∈ (r'.lookup ⟨"RIR-MNT"⟩).toList ∧
      ∀ x, r'.lookup x = r.lookup x) ∧
    build (kept ++ [⟨[⟨"A"⟩, ⟨" "⟩], .rsMaintainer⟩]) = .error ⟨.rsMaintainer, ⟨" "⟩⟩ := by
  constructor
  · have built : build kept = .ok (empty.conferAll (listings kept)) :=
      build_eq_ok_iff.mpr ⟨rfl, rfl⟩
    obtain ⟨members, count, form⟩ := (build_is_union kept).2.2 _ built
    obtain ⟨r', built', lookups, sizes⟩ := form sharedOut rearranged_sharedOut
    have two : (empty.conferAll (listings kept)).size = 2 := count.trans (by decide)
    refine ⟨_, r', built, built', two, sizes.trans two, ?_, lookups⟩
    rw [lookups, members]
    exact ⟨⟨[⟨"rir-mnt"⟩], .dbmMaintainer⟩, by simp [kept], rfl, ⟨"rir-mnt"⟩, by simp, rfl⟩
  · exact ((build_is_union _).2.1 _).mpr rfl

end Registry

end RegistryConsent
