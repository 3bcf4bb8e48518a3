import RegistryConsent.Authority
import RegistryConsent.Proofs.Results

/-!
# Setting up an authority

An authority comes from a policy and some strategies. The policy has to pass its check, and the
names of the strategies have to differ. The ranges and the registry are read by the check and then
once more for the authority, which cannot fail any more.
-/

namespace RegistryConsent

/-- The check of a policy that allows passwords is that of its parts. -/
theorem Policy.check_eq (p : Policy) :
    p.check = if p.maxPasswords = 0 then .error .noPasswords else do
      let _ ← p.network
      let _ ← p.registry
      return () := by
  unfold check
  split <;> rfl

/-- A policy passes its check exactly when it allows passwords and its ranges and its registry are
read. -/
theorem Policy.check_eq_ok_iff {p : Policy} :
    p.check = .ok () ↔
      1 ≤ p.maxPasswords ∧
        ∃ ranges registry, p.network = .ok ranges ∧ p.registry = .ok registry := by
  rw [check_eq]
  split
  · next none => simp [none]
  · next some =>
    simp only [bind_eq_ok_iff]
    constructor
    · rintro ⟨ranges, read, registry, named, -⟩
      exact ⟨Nat.one_le_iff_ne_zero.mpr some, ranges, registry, read, named⟩
    · rintro ⟨-, ranges, registry, read, named⟩
      exact ⟨ranges, read, registry, named, rfl⟩

namespace Authority

/-- No name is repeated exactly when the names differ from each other and from those seen before. -/
theorem firstRepeated?_eq_none_iff {seen names : List String} :
    firstRepeated? seen names = none ↔ names.Nodup ∧ ∀ n ∈ names, n ∉ seen := by
  refine ⟨nodup_of_firstRepeated?, ?_⟩
  induction names generalizing seen with
  | nil => exact fun _ => rfl
  | cons name rest ih =>
    rintro ⟨distinct, unseen⟩
    obtain ⟨hname, distinct⟩ := List.nodup_cons.mp distinct
    rw [firstRepeated?, if_neg (unseen name List.mem_cons_self)]
    refine ih ⟨distinct, fun n hn hseen => ?_⟩
    rcases List.mem_cons.mp hseen with rfl | hseen
    · exact hname hn
    · exact unseen n (List.mem_cons_of_mem name hn) hseen

/-- An authority is assembled from what a policy gives. -/
theorem assemble_eq_ok_iff {p : Policy} {strategies : List Strategy}
    {distinct : (strategies.map (·.name)).Nodup} {a : Authority} :
    assemble p strategies distinct = .ok a ↔
      a.strategies = strategies ∧ p.registry = .ok a.registry ∧
        ∃ ranges, p.network = .ok ranges ∧ a.trusts = Range.trusts ranges ∧
          a.maxPasswords = p.maxPasswords ∧ a.restricted = p.restrictToTrustedNetwork := by
  simp only [assemble, bind_eq_ok_iff]
  constructor
  · rintro ⟨registry, named, ranges, read, ⟨⟩⟩
    exact ⟨rfl, named, ranges, read, rfl, rfl, rfl⟩
  · rintro ⟨rfl, named, ranges, read, trusts, maxPasswords, restricted⟩
    refine ⟨_, named, _, read, congrArg Except.ok ?_⟩
    rw [mk.injEq]
    exact ⟨rfl, rfl, trusts.symm, maxPasswords.symm, restricted.symm⟩

/-- After a check that has passed, the second reading of the ranges and the registry does not
fail. -/
theorem exists_assemble_of_check {p : Policy} (checked : p.check = .ok ())
    {strategies : List Strategy} (distinct : (strategies.map (·.name)).Nodup) :
    ∃ a, assemble p strategies distinct = .ok a := by
  obtain ⟨-, ranges, registry, read, named⟩ := Policy.check_eq_ok_iff.mp checked
  rw [assemble, named, read]
  exact ⟨_, rfl⟩

/-- An authority is set up from a policy that passes its check and strategies of different names. -/
theorem make_eq_ok_iff (p : Policy) (strategies : List Strategy) (a : Authority) :
    make p strategies = .ok a ↔
      a.strategies = strategies ∧ p.check = .ok () ∧ p.registry = .ok a.registry ∧
        ∃ ranges, p.network = .ok ranges ∧ a.trusts = Range.trusts ranges ∧
          a.maxPasswords = p.maxPasswords ∧ a.restricted = p.restrictToTrustedNetwork := by
  rw [make]
  simp only [bind_eq_ok_iff, mapError_eq_ok_iff]
  constructor
  · rintro ⟨⟨⟩, checked, made⟩
    split at made
    · cases made
    · obtain ⟨same, parts⟩ := assemble_eq_ok_iff.mp (mapError_eq_ok_iff.mp made)
      exact ⟨same, checked, parts⟩
  · rintro ⟨rfl, checked, parts⟩
    refine ⟨(), checked, ?_⟩
    have unique := firstRepeated?_eq_none_iff.mpr ⟨a.distinct, fun n _ => List.not_mem_nil⟩
    split
    · next name repeated =>
      rw [unique] at repeated
      cases repeated
    · exact mapError_eq_ok_iff.mpr (assemble_eq_ok_iff.mpr ⟨rfl, parts⟩)

end Authority

end RegistryConsent
