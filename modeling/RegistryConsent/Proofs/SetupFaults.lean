import RegistryConsent.Policy.Load
import RegistryConsent.Proofs.Deferral
import RegistryConsent.Proofs.RegistryUnion
import RegistryConsent.Proofs.Results
import RegistryConsent.Proofs.Setup
import RegistryConsent.Trial

/-!
# Why an authority is not set up

An authority is set up exactly when its policy is sound and its strategies have different names.
Otherwise the error is the first fault: that no password is allowed, then the first range that
cannot be read, then the first blank name in the order of the groups, then the first strategy under
a name that was there before. A policy that was loaded is sound, so that only a repeated name is
left to fail.
-/

namespace RegistryConsent

namespace Policy

/-- What a policy needs for an authority. -/
structure Sound (p : Policy) : Prop where
  passwords : 1 ≤ p.maxPasswords
  ranges : ∀ text ∈ p.trustedRanges, ∃ range, Range.parse text = .ok range
  names : ∀ g ∈ p.maintainers.groups, ∀ name ∈ g.names, name.isBlank = false

/-- The first fault of a policy. -/
inductive FirstFault (p : Policy) : PolicyError → Prop where
  | noPasswords (none : p.maxPasswords = 0) : FirstFault p .noPasswords
  | range {before text after e} (passwords : 1 ≤ p.maxPasswords)
      (split : p.trustedRanges = before ++ text :: after)
      (read : ∀ t ∈ before, ∃ range, Range.parse t = .ok range)
      (unread : Range.parse text = .error e) : FirstFault p (.range e)
  | maintainer {before principal name after} (passwords : 1 ≤ p.maxPasswords)
      (ranges : ∀ text ∈ p.trustedRanges, ∃ range, Range.parse text = .ok range)
      (split : Registry.listings p.maintainers.groups = before ++ (principal, name) :: after)
      (visible : ∀ l ∈ before, l.2.isBlank = false) (blank : name.isBlank = true) :
      FirstFault p (.maintainer ⟨principal, name⟩)

/-- There is a registry when no name is blank. -/
theorem exists_registry_iff {p : Policy} :
    (∃ registry, p.registry = .ok registry) ↔
      ∀ g ∈ p.maintainers.groups, ∀ name ∈ g.names, name.isBlank = false := by
  simp only [registry, mapError_eq_ok_iff, Maintainers.registry, Registry.build_eq_ok_iff,
    exists_and_left, exists_eq', and_true, Registry.find?_listings_eq_none_iff, not_exists, not_and,
    Bool.not_eq_true]

/-- There is a trusted network when every range is read. -/
theorem exists_network_iff {p : Policy} :
    (∃ ranges, p.network = .ok ranges) ↔
      ∀ text ∈ p.trustedRanges, ∃ range, Range.parse text = .ok range := by
  simp only [network, mapError_eq_ok_iff]
  exact exists_mapM_eq_ok_iff

/-- A policy passes its check exactly when it is sound. -/
theorem check_eq_ok_iff_sound {p : Policy} : p.check = .ok () ↔ p.Sound := by
  rw [check_eq_ok_iff]
  simp only [exists_and_left, exists_and_right, exists_registry_iff, exists_network_iff]
  exact ⟨fun ⟨passwords, ranges, names⟩ => ⟨passwords, ranges, names⟩,
    fun sound => ⟨sound.passwords, sound.ranges, sound.names⟩⟩

/-- The error of the ranges is that of the first one that is not read. -/
theorem network_eq_error_iff {p : Policy} {e : PolicyError} :
    p.network = .error e ↔ ∃ before text after fault, p.trustedRanges = before ++ text :: after ∧
      (∀ t ∈ before, ∃ range, Range.parse t = .ok range) ∧ Range.parse text = .error fault ∧
      .range fault = e := by
  rw [network, mapError_eq_error_iff]
  simp only [Range.parseAll, mapM_eq_error_iff]
  constructor
  · rintro ⟨fault, ⟨before, text, after, split, read, unread⟩, same⟩
    exact ⟨before, text, after, fault, split, read, unread, same⟩
  · rintro ⟨before, text, after, fault, split, read, unread, same⟩
    exact ⟨fault, ⟨before, text, after, split, read, unread⟩, same⟩

/-- The error of a registry is the first blank name in the order of the groups. -/
theorem registry_eq_error_iff {p : Policy} {e : PolicyError} :
    p.registry = .error e ↔ ∃ before principal name after,
      Registry.listings p.maintainers.groups = before ++ (principal, name) :: after ∧
        (∀ l ∈ before, l.2.isBlank = false) ∧ name.isBlank = true ∧
        .maintainer ⟨principal, name⟩ = e := by
  rw [registry, mapError_eq_error_iff]
  simp only [Maintainers.registry, Registry.build_eq_error_iff, List.find?_eq_some_iff_append,
    Bool.not_eq_true']
  constructor
  · rintro ⟨⟨principal, name⟩, ⟨blank, before, after, split, visible⟩, same⟩
    exact ⟨before, principal, name, after, split, visible, blank, same⟩
  · rintro ⟨before, principal, name, after, split, visible, blank, same⟩
    exact ⟨⟨principal, name⟩, ⟨blank, before, after, split, visible⟩, same⟩

/-- The error of a check is the first fault. -/
theorem check_eq_error_iff {p : Policy} {e : PolicyError} :
    p.check = .error e ↔ p.FirstFault e := by
  rw [check_eq]
  split
  · next none =>
    rw [Except.error.injEq]
    constructor
    · rintro rfl
      exact .noPasswords none
    · intro fault
      cases fault with
      | noPasswords => rfl
      | range passwords => omega
      | maintainer passwords => omega
  · next some =>
    have passwords : 1 ≤ p.maxPasswords := Nat.one_le_iff_ne_zero.mpr some
    simp only [bind_eq_error_iff]
    constructor
    · rintro (stopped | ⟨ranges, network, refused | ⟨_, _, ⟨⟩⟩⟩)
      · obtain ⟨before, text, after, fault, split, read, unread, rfl⟩ :=
          network_eq_error_iff.mp stopped
        exact .range passwords split read unread
      · obtain ⟨before, principal, name, after, split, visible, blank, rfl⟩ :=
          registry_eq_error_iff.mp refused
        exact .maintainer passwords (exists_network_iff.mp ⟨ranges, network⟩) split visible blank
    · intro fault
      cases fault with
      | noPasswords none => exact absurd none some
      | range _ split read unread =>
        exact .inl (network_eq_error_iff.mpr ⟨_, _, _, _, split, read, unread, rfl⟩)
      | maintainer _ readable split visible blank =>
        obtain ⟨ranges, network⟩ := exists_network_iff.mpr readable
        exact .inr ⟨ranges, network, .inl <|
          registry_eq_error_iff.mpr ⟨_, _, _, _, split, visible, blank, rfl⟩⟩

/-- A sound policy has no fault. -/
theorem Sound.not_firstFault {p : Policy} (sound : p.Sound) (e : PolicyError) :
    ¬p.FirstFault e := by
  intro fault
  have checked := check_eq_ok_iff_sound.mpr sound
  rw [check_eq_error_iff.mpr fault] at checked
  cases checked

/-- A policy that was loaded is sound. -/
theorem sound_of_load {json : String} {p : Policy} (h : load json = .ok p) : p.Sound := by
  rw [load] at h
  split at h
  · cases h
  · split at h
    · next checked =>
      cases h
      exact check_eq_ok_iff_sound.mp checked
    · cases h

end Policy

namespace Authority

/-- The first fault of a policy and some strategies. -/
inductive FirstFault (p : Policy) (strategies : List Strategy) : SetupError → Prop where
  | policy {e} (fault : p.FirstFault e) : FirstFault p strategies (.policy e)
  | duplicateStrategy {before strategy after} (sound : p.Sound)
      (split : strategies = before ++ strategy :: after)
      (distinct : (before.map (·.name)).Nodup)
      (repeated : strategy.name ∈ before.map (·.name)) :
      FirstFault p strategies (.duplicateStrategy strategy.name)

/-- The first repeated name stands behind names that differ, and is one of them or was seen
before. -/
theorem firstRepeated?_eq_some_iff {seen names : List String} {name : String} :
    firstRepeated? seen names = some name ↔ ∃ before after, names = before ++ name :: after ∧
      (before.Nodup ∧ ∀ n ∈ before, n ∉ seen) ∧ (name ∈ seen ∨ name ∈ before) := by
  -- Each name that is passed moves from the names in front to those that were seen.
  induction names generalizing seen with
  | nil => simp [firstRepeated?]
  | cons n rest ih =>
    rw [firstRepeated?]
    split
    · next known =>
      constructor
      · rintro ⟨⟩
        exact ⟨[], rest, rfl, ⟨.nil, List.forall_mem_nil _⟩, .inl known⟩
      · rintro ⟨before, after, split, ⟨-, unseen⟩, -⟩
        cases before with
        | nil => exact congrArg some (List.cons.inj split).1
        | cons m before =>
          obtain ⟨rfl, -⟩ := List.cons.inj split
          exact absurd known (unseen n List.mem_cons_self)
    · next unknown =>
      rw [ih]
      constructor
      · rintro ⟨before, after, rfl, ⟨distinct, unseen⟩, repeated⟩
        have fresh : n ∉ before := fun h => unseen n h List.mem_cons_self
        refine ⟨n :: before, after, rfl, ⟨List.nodup_cons.mpr ⟨fresh, distinct⟩, ?_⟩, ?_⟩
        · exact List.forall_mem_cons.mpr
            ⟨unknown, fun m hm known => unseen m hm (List.mem_cons_of_mem n known)⟩
        · simpa only [List.mem_cons, or_assoc, or_left_comm] using repeated
      · rintro ⟨before, after, split, ⟨distinct, unseen⟩, repeated⟩
        cases before with
        | nil =>
          obtain ⟨rfl, -⟩ := List.cons.inj split
          exact (repeated.elim unknown List.not_mem_nil).elim
        | cons m before =>
          obtain ⟨rfl, rfl⟩ := List.cons.inj split
          obtain ⟨fresh, distinct⟩ := List.nodup_cons.mp distinct
          refine ⟨before, after, rfl, ⟨distinct, fun x hx => ?_⟩, ?_⟩
          · rw [List.mem_cons, not_or]
            exact ⟨fun same => fresh (same ▸ hx), unseen x (List.mem_cons_of_mem n hx)⟩
          · simpa only [List.mem_cons, or_assoc, or_left_comm] using repeated

/-- The first repeated name of some strategies is that of the first one whose name a strategy before
it has. -/
theorem firstRepeated?_names_eq_some_iff {strategies : List Strategy} {name : String} :
    firstRepeated? [] (strategies.map (·.name)) = some name ↔
      ∃ before strategy after, strategies = before ++ strategy :: after ∧
        (before.map (·.name)).Nodup ∧ strategy.name ∈ before.map (·.name) ∧
        strategy.name = name := by
  rw [firstRepeated?_eq_some_iff]
  constructor
  · rintro ⟨names, _, split, ⟨distinct, -⟩, again⟩
    obtain ⟨before, rest, rfl, rfl, named⟩ := List.map_eq_append_iff.mp split
    obtain ⟨strategy, after, rfl, rfl, -⟩ := List.map_eq_cons_iff.mp named
    exact ⟨before, strategy, after, rfl, distinct, again.resolve_left List.not_mem_nil, rfl⟩
  · rintro ⟨before, strategy, after, rfl, distinct, repeated, rfl⟩
    refine ⟨before.map (·.name), after.map (·.name), ?_,
      ⟨distinct, fun _ _ => List.not_mem_nil⟩, .inr repeated⟩
    rw [List.map_append, List.map_cons]

/-- The error of setting up an authority is the first fault. -/
theorem make_eq_error_iff {p : Policy} {strategies : List Strategy} {e : SetupError} :
    make p strategies = .error e ↔ FirstFault p strategies e := by
  rw [make]
  simp only [bind_eq_error_iff, mapError_eq_error_iff, mapError_eq_ok_iff]
  constructor
  · rintro (⟨e, checked, rfl⟩ | ⟨⟨⟩, checked, h⟩)
    · exact .policy (Policy.check_eq_error_iff.mp checked)
    · split at h
      · next name repeated =>
        cases h
        obtain ⟨before, strategy, after, split, distinct, again, rfl⟩ :=
          firstRepeated?_names_eq_some_iff.mp repeated
        exact .duplicateStrategy (Policy.check_eq_ok_iff_sound.mp checked) split distinct again
      · next unique =>
        -- Nothing is left to fail when the ranges and the registry are read once more.
        obtain ⟨a, assembled⟩ := exists_assemble_of_check checked (nodup_of_firstRepeated? unique).1
        rw [assembled] at h
        cases h
  · intro fault
    cases fault with
    | policy fault => exact .inl ⟨_, Policy.check_eq_error_iff.mpr fault, rfl⟩
    | @duplicateStrategy before strategy after sound split distinct repeated =>
      have found : firstRepeated? [] (strategies.map (·.name)) = some strategy.name :=
        firstRepeated?_names_eq_some_iff.mpr ⟨_, _, _, split, distinct, repeated, rfl⟩
      refine .inr ⟨(), Policy.check_eq_ok_iff_sound.mpr sound, ?_⟩
      split
      · next name repeated =>
        rw [found] at repeated
        cases repeated
        rfl
      · next unique =>
        rw [found] at unique
        cases unique

/-- A sound policy and strategies of different names have no fault. -/
theorem not_firstFault {p : Policy} {strategies : List Strategy} (sound : p.Sound)
    (distinct : (strategies.map (·.name)).Nodup) (e : SetupError) :
    ¬FirstFault p strategies e := by
  intro fault
  cases fault with
  | policy fault => exact sound.not_firstFault _ fault
  | duplicateStrategy _ split _ repeated =>
    rw [split, List.map_append, List.map_cons, List.nodup_append] at distinct
    exact distinct.2.2 _ repeated _ List.mem_cons_self rfl

/-- An authority is set up when the policy is sound and the names of the strategies differ. -/
theorem exists_make_iff {p : Policy} {strategies : List Strategy} :
    (∃ a, make p strategies = .ok a) ↔ p.Sound ∧ (strategies.map (·.name)).Nodup := by
  constructor
  · rintro ⟨a, made⟩
    obtain ⟨rfl, checked, -⟩ := (make_eq_ok_iff p strategies a).mp made
    exact ⟨Policy.check_eq_ok_iff_sound.mp checked, a.distinct⟩
  · rintro ⟨sound, distinct⟩
    cases result : make p strategies with
    | ok a => exact ⟨a, rfl⟩
    | error e => exact absurd (make_eq_error_iff.mp result) (not_firstFault sound distinct e)

/-- An authority is set up exactly when at least one password is allowed, every range is read, no
name of a maintainer is blank and the names of the strategies differ. Otherwise the error is the
first fault in this order, that of a list being the first in the list. With a policy that was loaded
only a repeated name can be at fault. An authority that was set up has an index of what its
strategies declare, which has no entry for any other type. -/
theorem make_finds_first_fault (p : Policy) (strategies : List Strategy) :
    ((∃ a, make p strategies = .ok a) ↔ p.Sound ∧ (strategies.map (·.name)).Nodup) ∧
    (∀ e, make p strategies = .error e ↔ FirstFault p strategies e) ∧
    (∀ json, Policy.load json = .ok p →
      ∀ e, make p strategies = .error e → ∃ name, e = .duplicateStrategy name) ∧
    ∀ a, make p strategies = .ok a →
      a.strategies = strategies ∧ a.deferral.Indexes strategies := by
  refine ⟨exists_make_iff, fun e => make_eq_error_iff, fun json loaded e failed => ?_,
    fun a made => ?_⟩
  · cases make_eq_error_iff.mp failed with
    | policy fault => exact absurd fault ((Policy.sound_of_load loaded).not_firstFault _)
    | duplicateStrategy => exact ⟨_, rfl⟩
  · obtain ⟨rfl, -⟩ := (make_eq_ok_iff p strategies a).mp made
    exact ⟨rfl, Deferral.indexes_ofStrategies a.strategies⟩

/-- The text of a policy with one range and a power maintainer. -/
private def smallPolicy : String :=
  "\x7b\"trusted_ranges\": [\"10.0.0.0/8\"], \"max_passwords\": 3,\n" ++
    " \"maintainers\": \x7b\"power\": [\"RIR-POWER-MNT\"]\x7d\x7d"

/-- A small policy is loaded. It sets up the standard strategies with an index of what they declare,
and what is wrong with a strategy that is given twice is its name. -/
theorem smallPolicy_sets_up : ∃ p, Policy.load smallPolicy = .ok p ∧
    (∃ a, make p Trial.standardStrategies = .ok a ∧
      a.deferral.Indexes Trial.standardStrategies) ∧
    ∃ name, make p [.routeOrigin, .mntBy, .mntBy] = .error (.duplicateStrategy name) := by
  have readable : (Policy.load smallPolicy).isOk = true := by decide +kernel
  cases loaded : Policy.load smallPolicy with
  | error e => rw [loaded] at readable; cases readable
  | ok p =>
    obtain ⟨success, -, -, indexed⟩ := make_finds_first_fault p Trial.standardStrategies
    obtain ⟨a, made⟩ := success.mpr ⟨Policy.sound_of_load loaded, Trial.nodup_standardStrategies⟩
    obtain ⟨twice, -, only, -⟩ := make_finds_first_fault p [.routeOrigin, .mntBy, .mntBy]
    refine ⟨p, rfl, ⟨a, made, (indexed a made).2⟩, ?_⟩
    cases result : make p [.routeOrigin, .mntBy, .mntBy] with
    | ok a => exact absurd (twice.mp ⟨a, result⟩).2 (by decide)
    | error e =>
      obtain ⟨name, rfl⟩ := only smallPolicy loaded e result
      exact ⟨name, rfl⟩

end Authority

end RegistryConsent
