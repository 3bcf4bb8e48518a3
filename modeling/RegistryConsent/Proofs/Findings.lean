import RegistryConsent.Findings
import RegistryConsent.Proofs.SortedSet

/-!
# What is kept of the answers

What has come up before is passed over when messages and records are gathered. Of messages the
first occurrences are kept, in order. Of records the first of each identity is kept, so that an
identity is there exactly when some record of it came. The answers of the strategies are taken in
one after the other, and what they come to is gathered from all of them.
-/

namespace RegistryConsent

/-! ### Messages -/

namespace Messages

/-- A message is put at the end unless it is there. -/
theorem toList_push (ms : Messages) (m : Message) :
    (ms.push m).toList = if m ∈ ms.toList then ms.toList else ms.toList ++ [m] := by
  rw [push]
  split <;> rfl

/-- Messages that were there stay in front, and those that are new follow, each once and in the
order in which they first came. -/
theorem toList_extend (ms : Messages) (more : List Message) :
    (ms.extend more).toList = ms.toList ++ (more.filter (· ∉ ms.toList)).eraseDups := by
  induction more generalizing ms with
  | nil => simp [extend]
  | cons m more ih =>
    rw [extend, List.foldl_cons]
    refine (ih (ms.push m)).trans ?_
    rw [toList_push]
    by_cases known : m ∈ ms.toList
    · rw [if_pos known, List.filter_cons_of_neg (by simpa using known)]
    · have rest : more.filter (· ∉ ms.toList ++ [m]) =
          (more.filter (· ∉ ms.toList)).filter (fun x => !x == m) := by
        rw [List.filter_filter]
        refine List.filter_congr fun x _ => ?_
        by_cases hx : x = m <;> simp [hx, known]
      rw [if_neg known, List.filter_cons_of_pos (by simpa using known), List.eraseDups_cons, rest,
        List.append_assoc, List.singleton_append]

/-- Of a list the first occurrences are gathered. -/
theorem toList_extend_empty (more : List Message) :
    (empty.extend more).toList = more.eraseDups := by
  have new : more.filter (· ∉ empty.toList) = more :=
    List.filter_eq_self.mpr fun m _ => decide_eq_true List.not_mem_nil
  rw [toList_extend, new]
  rfl

end Messages

/-! ### Records that vouch -/

/-- To have the same type and, up to case, the same key is an equivalence. -/
instance : EquivBEq (ObjectType × Handle) where
  rfl {x} := Bool.and_eq_true_iff.mpr ⟨BEq.rfl, BEq.rfl⟩
  symm {x y} h := by
    obtain ⟨objectType, key⟩ := Bool.and_eq_true_iff.mp h
    exact Bool.and_eq_true_iff.mpr ⟨BEq.symm objectType, BEq.symm key⟩
  trans {x y z} h h' := by
    obtain ⟨objectType, key⟩ := Bool.and_eq_true_iff.mp h
    obtain ⟨objectType', key'⟩ := Bool.and_eq_true_iff.mp h'
    exact Bool.and_eq_true_iff.mpr ⟨BEq.trans objectType objectType', BEq.trans key key'⟩

/-- A record has its own identity. -/
theorem Record.sameIdentity_refl (r : Record) : r.sameIdentity r = true :=
  BEq.rfl (a := r.identity)

namespace AuthenticatedRecords

/-- The identities that came up are those of the records, and no two records have the same. -/
structure InStep (s : AuthenticatedRecords) : Prop where
  seen (i : ObjectType × Handle) :
    s.seen.contains i = true ↔ ∃ r ∈ s.records, (i == r.identity) = true
  distinct : s.records.Pairwise fun r t => r.sameIdentity t = false

/-- Without records no identity has come up. -/
theorem inStep_empty : empty.InStep :=
  ⟨fun _ => iff_of_false nofun (by simp [empty]), .nil⟩

/-- Records and identities stay in step when a record is added. -/
theorem InStep.add {s : AuthenticatedRecords} (h : s.InStep) (r : Record) : (s.add r).InStep := by
  rw [AuthenticatedRecords.add]
  split
  · exact h
  · next new =>
    constructor
    · intro i
      rw [List.contains_cons, Bool.or_eq_true, h.seen]
      simp [or_and_right, exists_or, or_comm]
    · have apart (t : Record) (ht : t ∈ s.records) : t.sameIdentity r = false := by
        refine Bool.eq_false_iff.mpr fun same => new ((h.seen _).mpr ⟨t, ht, BEq.symm same⟩)
      rw [List.pairwise_append]
      exact ⟨h.distinct, List.pairwise_singleton _ r, fun t ht u hu => by
        rw [List.mem_singleton.mp hu]
        exact apart t ht⟩

/-- Records and identities stay in step through all that is added. -/
theorem InStep.extend {s : AuthenticatedRecords} (h : s.InStep) (rs : List Record) :
    (s.extend rs).InStep := by
  induction rs generalizing s with
  | nil => exact h
  | cons r rs ih => exact ih (h.add r)

/-- The identity of a record that is added has come up. -/
theorem contains_seen_add_iff (s : AuthenticatedRecords) (r : Record) (i : ObjectType × Handle) :
    (s.add r).seen.contains i = true ↔ (i == r.identity) = true ∨ s.seen.contains i = true := by
  rw [add]
  split
  · next known =>
    refine ⟨.inr, fun h => h.elim (fun same => ?_) id⟩
    rw [List.contains_congr same]
    exact known
  · rw [List.contains_cons, Bool.or_eq_true]

/-- Of the records that are gathered there is one of each identity that came. -/
theorem exists_mem_extend_iff (rs : List Record) (i : ObjectType × Handle) :
    (∃ r ∈ (empty.extend rs).records, (i == r.identity) = true) ↔
      ∃ r ∈ rs, (i == r.identity) = true := by
  rw [← (inStep_empty.extend rs).seen, extend,
    foldl_iff (P := fun s : AuthenticatedRecords => s.seen.contains i = true)
      fun s r => contains_seen_add_iff s r i]
  simp [empty]

end AuthenticatedRecords

/-! ### What some answers come to -/

namespace Findings

variable (f : Findings) (answer : Answer) (answers : List Answer)

/-- The messages of an answer are gathered. -/
theorem messages_add : (f.add answer).messages = f.messages.extend answer.messages := by
  cases h : answer.outcome with
  | ok records =>
    simp only [add, Answer.messages, h]
    rfl
  | error refusal => simp only [add, Answer.messages, h]

/-- The records of an answer are gathered. -/
theorem authenticated_add :
    (f.add answer).authenticated = f.authenticated.extend answer.records := by
  cases h : answer.outcome with
  | ok records =>
    simp only [add, Answer.records, h]
    rfl
  | error refusal =>
    simp only [add, Answer.records, h]
    rfl

/-- A strategy that passes is named among those that passed. -/
theorem mem_passed_add_iff (name : String) : name ∈ (f.add answer).passed.toList ↔
    (answer.passed = true ∧ answer.strategy = name) ∨ name ∈ f.passed.toList := by
  cases h : answer.outcome <;>
    simp [add, Answer.passed, h, SortedSet.mem_insert, Except.isOk, Except.toBool, eq_comm]

/-- A strategy that fails is named among those that failed. -/
theorem mem_failed_add_iff (name : String) : name ∈ (f.add answer).failed.toList ↔
    (answer.passed = false ∧ answer.strategy = name) ∨ name ∈ f.failed.toList := by
  cases h : answer.outcome <;>
    simp [add, Answer.passed, h, SortedSet.mem_insert, Except.isOk, Except.toBool, eq_comm]

/-- The messages of all answers are gathered. -/
theorem messages_ofAnswers :
    (ofAnswers answers).messages = Messages.empty.extend (answers.flatMap (·.messages)) := by
  have gathered : (ofAnswers answers).messages =
      answers.foldl (fun ms answer => ms.extend answer.messages) .empty :=
    (List.foldl_hom messages fun f answer => (messages_add f answer).symm).symm
  rw [gathered, Messages.extend, List.foldl_flatMap]
  rfl

/-- The records of all answers are gathered. -/
theorem authenticated_ofAnswers :
    (ofAnswers answers).authenticated =
      AuthenticatedRecords.empty.extend (answers.flatMap (·.records)) := by
  have gathered : (ofAnswers answers).authenticated =
      answers.foldl (fun s answer => s.extend answer.records) .empty :=
    (List.foldl_hom authenticated fun f answer => (authenticated_add f answer).symm).symm
  rw [gathered, AuthenticatedRecords.extend, List.foldl_flatMap]
  rfl

/-- The names of those that passed are those of the answers that did. -/
theorem mem_passed_ofAnswers_iff (name : String) : name ∈ (ofAnswers answers).passed.toList ↔
    ∃ answer ∈ answers, answer.passed = true ∧ answer.strategy = name := by
  rw [ofAnswers, foldl_iff (P := fun f : Findings => name ∈ f.passed.toList)
    fun f answer => mem_passed_add_iff f answer name]
  simp [SortedSet.empty]

/-- The names of those that failed are those of the answers that did. -/
theorem mem_failed_ofAnswers_iff (name : String) : name ∈ (ofAnswers answers).failed.toList ↔
    ∃ answer ∈ answers, answer.passed = false ∧ answer.strategy = name := by
  rw [ofAnswers, foldl_iff (P := fun f : Findings => name ∈ f.failed.toList)
    fun f answer => mem_failed_add_iff f answer name]
  simp [SortedSet.empty]

end Findings

end RegistryConsent
