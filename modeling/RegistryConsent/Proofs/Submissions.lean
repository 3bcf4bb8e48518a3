import Mathlib.Data.Finset.Card
import RegistryConsent.Credential.Indexed
import RegistryConsent.Proofs.Matching
import RegistryConsent.Proofs.Verdict

/-!
# What is submitted for an update

The credentials of an update are the first occurrences of those that were submitted. A list with an
index by hash comes to the same list, since adding one credential keeps the two in step. An update
asks for override when it was asked for or an override value was submitted, so that an update that
is judged by the strategies has none. Its passwords are counted as a set.
-/

namespace RegistryConsent

/-- The first occurrences of what is in a list, in order. -/
structure FirstOccurrences {α : Type} [BEq α] (xs firsts : List α) : Prop where
  nodup : firsts.Nodup
  mem_iff (x : α) : x ∈ firsts ↔ x ∈ xs
  ordered : firsts.Pairwise fun x y => xs.idxOf x < xs.idxOf y

namespace FirstOccurrences

variable {α : Type} [DecidableEq α] {xs firsts : List α}

/-- Nothing occurs in the empty list. -/
theorem nil : FirstOccurrences ([] : List α) [] := ⟨.nil, fun _ => .rfl, .nil⟩

/-- An element that has occurred adds nothing. -/
theorem concat_of_mem (h : FirstOccurrences xs firsts) {x : α} (known : x ∈ firsts) :
    FirstOccurrences (xs ++ [x]) firsts where
  nodup := h.nodup
  mem_iff y := by
    rw [List.mem_append, List.mem_singleton, ← h.mem_iff]
    exact ⟨.inl, fun there => there.elim id (· ▸ known)⟩
  ordered := h.ordered.imp_of_mem fun hx hy before => by
    rwa [List.idxOf_append_of_mem ((h.mem_iff _).mp hx),
      List.idxOf_append_of_mem ((h.mem_iff _).mp hy)]

/-- An element that has not occurred comes last. -/
theorem concat_of_not_mem (h : FirstOccurrences xs firsts) {x : α} (new : x ∉ firsts) :
    FirstOccurrences (xs ++ [x]) (firsts ++ [x]) where
  nodup := by
    rw [← List.concat_eq_append]
    exact h.nodup.concat new
  mem_iff y := by rw [List.mem_append, List.mem_append, h.mem_iff]
  ordered := by
    have former {y : α} (hy : y ∈ firsts) : (xs ++ [x]).idxOf y = xs.idxOf y :=
      List.idxOf_append_of_mem ((h.mem_iff y).mp hy)
    have last : (xs ++ [x]).idxOf x = xs.length := by
      rw [List.idxOf_append_of_notMem (mt (h.mem_iff x).mpr new), List.idxOf_cons_self,
        Nat.add_zero]
    rw [List.pairwise_append]
    refine ⟨h.ordered.imp_of_mem fun hy hz before => ?_, List.pairwise_singleton _ x,
      fun y hy z hz => ?_⟩
    · rwa [former hy, former hz]
    · rw [List.mem_singleton.mp hz, former hy, last]
      exact List.idxOf_lt_length_iff.mpr ((h.mem_iff y).mp hy)

end FirstOccurrences

namespace CredentialSet

/-- A credential is put at the end unless it is there. -/
theorem toList_add (s : CredentialSet) (c : Credential) :
    (s.add c).1.toList = if c ∈ s.toList then s.toList else s.toList ++ [c] := by
  rw [add]
  split <;> rfl

/-- A credential is new unless it is there. -/
theorem add_eq_true_iff (s : CredentialSet) (c : Credential) :
    (s.add c).2 = true ↔ c ∉ s.toList := by
  rw [add]
  split <;> simp [*]

/-- The last credential of a list is added to the set of the others. -/
theorem ofList_concat (cs : List Credential) (c : Credential) :
    ofList (cs ++ [c]) = ((ofList cs).add c).1 := by
  rw [ofList, List.foldl_append]
  rfl

/-- The set of a list has the first occurrences. -/
theorem firstOccurrences_ofList (cs : List Credential) :
    FirstOccurrences cs (ofList cs).toList := by
  -- From the end of the list, since a credential is added behind all that came before.
  induction cs using List.reverseRecOn with
  | nil => exact .nil
  | append_singleton cs c ih =>
    rw [ofList_concat, toList_add]
    split
    · next known => exact ih.concat_of_mem known
    · next new => exact ih.concat_of_not_mem new

/-- The set of a list is found by looking for each credential among those that were kept. -/
theorem toList_ofList (cs : List Credential) :
    (ofList cs).toList =
      cs.foldl (fun kept c => if c ∈ kept then kept else kept ++ [c]) [] := by
  induction cs using List.reverseRecOn with
  | nil => rfl
  | append_singleton cs c ih =>
    rw [ofList_concat, toList_add, ih, List.foldl_append]
    rfl

end CredentialSet

namespace IndexedCredentials

variable [Hashable Credential]

/-- The list is that of a set, and the index has what is in the list. -/
structure Represents (s : IndexedCredentials) (t : CredentialSet) : Prop where
  items : s.items = t.toList
  seen (c : Credential) : c ∈ s.seen ↔ c ∈ t.toList

/-- Without credentials there is nothing in the index. -/
theorem represents_empty : empty.Represents .empty :=
  ⟨rfl, fun _ => iff_of_false Std.HashSet.not_mem_empty List.not_mem_nil⟩

/-- A credential is entered into the index, whether it was there or not. -/
theorem containsThenInsert_eq (s : IndexedCredentials) (c : Credential) :
    s.seen.containsThenInsert c = (s.seen.contains c, s.seen.insert c) :=
  Prod.ext Std.HashSet.containsThenInsert_fst Std.HashSet.containsThenInsert_snd

namespace Represents

variable {s : IndexedCredentials} {t : CredentialSet}

/-- The index keeps in step with the list when a credential is added, and both tell the same. -/
theorem add (h : s.Represents t) (c : Credential) :
    (s.add c).1.Represents (t.add c).1 ∧ (s.add c).2 = (t.add c).2 := by
  have seen (d : Credential) : d ∈ s.seen.insert c ↔ d ∈ (t.add c).1.toList := by
    rw [Std.HashSet.mem_insert, beq_iff_eq, h.seen, CredentialSet.mem_add_iff, or_comm, eq_comm]
  rw [IndexedCredentials.add, containsThenInsert_eq]
  have found : s.seen.contains c = true ↔ c ∈ t.toList :=
    Std.HashSet.contains_iff_mem.trans (h.seen c)
  by_cases known : c ∈ t.toList
  · have same : t.add c = (t, false) := dif_pos known
    rw [same] at seen ⊢
    rw [found.mpr known]
    exact ⟨⟨h.items, seen⟩, rfl⟩
  · rw [Bool.eq_false_iff.mpr (mt found.mp known)]
    refine ⟨⟨?_, seen⟩, ((t.add_eq_true_iff c).mpr known).symm⟩
    rw [CredentialSet.toList_add, if_neg known, h.items]

end Represents

/-- The index keeps in step with the list through all that is added. -/
theorem represents_ofList (cs : List Credential) : (ofList cs).Represents (.ofList cs) := by
  induction cs using List.reverseRecOn with
  | nil => exact represents_empty
  | append_singleton cs c ih =>
    rw [CredentialSet.ofList_concat, ofList, List.foldl_append]
    exact (ih.add c).1

end IndexedCredentials

namespace Submission

/-- The credential that is submitted. -/
def credential? : Submission → Option Credential
  | .credential c => some c
  | .overrideRequest => none

/-- The password that is submitted. -/
def password? : Submission → Option String
  | .credential (.password p) => some p
  | _ => none

/-- A credential is among those that are submitted. -/
theorem mem_filterMap_credential?_iff (submissions : List Submission) (c : Credential) :
    c ∈ submissions.filterMap credential? ↔ .credential c ∈ submissions :=
  mem_filterMap_iff_of_pick .credential (fun x _ => by cases x <;> simp [credential?]) submissions c

/-- A password is among those that are submitted. -/
theorem mem_filterMap_password?_iff (submissions : List Submission) (p : String) :
    p ∈ submissions.filterMap password? ↔ .credential (.password p) ∈ submissions :=
  mem_filterMap_iff_of_pick (fun p => .credential (.password p))
    (fun x _ => by unfold password?; split <;> simp_all) submissions p

end Submission

namespace Update

variable (id : UpdateId) (action : Action) (record : Record)

/-- What is submitted last is added to all that came before. -/
theorem prepare_concat (submissions : List Submission) (x : Submission) :
    prepare id action record (submissions ++ [x]) =
      (prepare id action record submissions).submit x := by
  rw [prepare, List.foldl_append]
  rfl

/-- The credentials of an update are the set of those that were submitted. -/
theorem credentials_prepare (submissions : List Submission) :
    (prepare id action record submissions).credentials =
      .ofList (submissions.filterMap Submission.credential?) := by
  induction submissions using List.reverseRecOn with
  | nil => rfl
  | append_singleton submissions x ih =>
    rw [prepare_concat, List.filterMap_append]
    cases x with
    | credential c =>
      refine Eq.trans ?_ (CredentialSet.ofList_concat _ c).symm
      rw [← ih]
      rfl
    | overrideRequest => exact ih.trans (congrArg _ (List.append_nil _).symm)

/-- A credential is there when it was submitted. -/
theorem mem_credentials_prepare_iff (submissions : List Submission) (c : Credential) :
    c ∈ (prepare id action record submissions).credentials.toList ↔
      .credential c ∈ submissions := by
  rw [credentials_prepare, (CredentialSet.firstOccurrences_ofList _).mem_iff,
    Submission.mem_filterMap_credential?_iff]

/-- A credential asks for override when it is an override value. -/
theorem marksOverride_iff (c : Credential) : marksOverride c = true ↔ ∃ v, c = .override v := by
  cases c <;> simp [marksOverride]

/-- One more thing that is submitted asks for override when it is the request or an override
value. -/
theorem isOverride_submit_iff (u : Update) (x : Submission) :
    (u.submit x).isOverride = true ↔
      u.isOverride = true ∨ x = .overrideRequest ∨ ∃ v, x = .credential (.override v) := by
  cases x with
  | credential c => simp [submit, withCredential, marksOverride_iff]
  | overrideRequest => simp [submit, withOverrideRequest]

/-- An update asks for override when this was requested or an override value was submitted. -/
theorem isOverride_prepare_iff (submissions : List Submission) :
    (prepare id action record submissions).isOverride = true ↔
      .overrideRequest ∈ submissions ∨ ∃ v, .credential (.override v) ∈ submissions := by
  induction submissions using List.reverseRecOn with
  | nil => simp [prepare, start]
  | append_singleton submissions x ih =>
    rw [prepare_concat, isOverride_submit_iff, ih]
    simp only [List.mem_append, List.mem_singleton, exists_or, eq_comm (a := x)]
    exact or_or_or_comm

/-- An update that does not ask for override has no override value. -/
theorem overrides_eq_nil_of_not_isOverride {u : Update} (h : u.isOverride = false) :
    u.credentials.overrides = [] := by
  rw [List.eq_nil_iff_forall_not_mem]
  intro v hv
  have asks := u.isOverride_of_mem v ((u.credentials.mem_overrides_iff v).mp hv)
  rw [h] at asks
  cases asks

/-- The passwords of an update are counted as a set. -/
theorem length_passwords_prepare (submissions : List Submission) :
    (prepare id action record submissions).credentials.passwords.length =
      (submissions.filterMap Submission.password?).toFinset.card := by
  rw [← List.toFinset_card_of_nodup (CredentialSet.nodup_passwords _)]
  congr 1
  ext p
  rw [List.mem_toFinset, List.mem_toFinset, CredentialSet.mem_passwords_iff,
    mem_credentials_prepare_iff, Submission.mem_filterMap_password?_iff]

end Update

namespace Authority

variable {σ : Type} (a : Authority) (o : Origin) (u : Update) (c : Context)
  (source : Source σ) (s : σ)

/-- Without an answer there is no reason against an update. -/
theorem reasons_nil : a.reasons o [] (a.subjectOf u []) = [] := by
  rw [reasons_eq_nil_iff]
  refine ⟨List.forall_mem_nil _, Bool.eq_false_iff.mpr fun violates => ?_⟩
  exact ((a.violatesRestriction_iff o _).mp violates).1 rfl

/-- A judgement in which nobody is asked and the number of passwords is the only message is one with
too many passwords. -/
theorem judge_overflows_iff :
    ((a.judge o u c).run source s).1.asked = [] ∧
        ((a.judge o u c).run source s).1.messages = [.tooManyPasswords] ↔
      a.maxPasswords < u.credentials.passwords.length := by
  rcases Nat.lt_or_ge a.maxPasswords u.credentials.passwords.length with h | h
  · rw [run_judge_of_lt a o u c source s h]
    exact iff_of_true ⟨rfl, rfl⟩ h
  · rw [run_judge_of_le a o u c source s h]
    refine iff_of_false ?_ (Nat.not_lt.mpr h)
    rintro ⟨asked, messages⟩
    -- A refusal may carry the same message, but then its strategy was asked.
    have silent : ((a.answers u c).run source s).1 = [] := List.map_eq_nil_iff.mp asked
    rw [silent] at messages
    exact absurd ((reasons_nil a o u).symm.trans messages) (List.cons_ne_nil _ _).symm

/-- With few enough passwords those strategies are asked that support the update. -/
theorem asked_judge_of_le (h : u.credentials.passwords.length ≤ a.maxPasswords) :
    ((a.judge o u c).run source s).1.asked =
      (a.strategies.filter (·.supports u)).map (·.name) := by
  rw [run_judge_of_le a o u c source s h]
  exact strategy_answers a u c source s

end Authority

/-- The credentials of an update are the first occurrences of those that were submitted, in order
and without a repetition; looking for each of them in the list that was kept, or in an index by
hash, gives the same. A further credential counts as new exactly when it was not submitted before.
The update asks for override exactly when this was requested or an override value was submitted;
otherwise it has no override value. Its passwords are as many as there are in the set of those that
were submitted. On the normal path the authority refuses the update for their number, without asking
anybody, exactly when the set is too large, and else asks the strategies that support it. -/
theorem Update.prepare_collects [Hashable Credential] (id : UpdateId) (action : Action)
    (record : Record) (submissions : List Submission) :
    let u := prepare id action record submissions
    let added := submissions.filterMap Submission.credential?
    let passwords := (submissions.filterMap Submission.password?).toFinset
    FirstOccurrences added u.credentials.toList ∧
    u.credentials.toList =
      added.foldl (fun kept c => if c ∈ kept then kept else kept ++ [c]) [] ∧
    (IndexedCredentials.ofList added).items = u.credentials.toList ∧
    (∀ c, ((u.credentials.add c).2 = true ↔ .credential c ∉ submissions) ∧
      ((IndexedCredentials.ofList added).add c).2 = (u.credentials.add c).2) ∧
    (u.isOverride = true ↔
      .overrideRequest ∈ submissions ∨ ∃ v, .credential (.override v) ∈ submissions) ∧
    (u.isOverride = false → u.credentials.overrides = []) ∧
    u.credentials.passwords.length = passwords.card ∧
    ∀ (a : Authority) (o : Origin) (c : Context) (σ : Type) (source : Source σ) (s : σ),
      o.channel ≠ .internal → u.isOverride = false →
      let e := ((a.authenticate o u c).run source s).1
      (e.asked = [] ∧ e.messages = [.tooManyPasswords] ↔ a.maxPasswords < passwords.card) ∧
      (passwords.card ≤ a.maxPasswords →
        e.asked = (a.strategies.filter (·.supports u)).map (·.name)) := by
  intro u added passwords
  have collected : u.credentials = .ofList added := credentials_prepare id action record submissions
  have represents := IndexedCredentials.represents_ofList added
  have count : u.credentials.passwords.length = passwords.card :=
    length_passwords_prepare id action record submissions
  refine ⟨?_, ?_, ?_, fun c => ⟨?_, ?_⟩, isOverride_prepare_iff id action record submissions,
    overrides_eq_nil_of_not_isOverride, count, fun a o c σ source s ho hu => ?_⟩
  · rw [collected]
    exact CredentialSet.firstOccurrences_ofList added
  · rw [collected]
    exact CredentialSet.toList_ofList added
  · rw [collected]
    exact represents.items
  · rw [CredentialSet.add_eq_true_iff, mem_credentials_prepare_iff]
  · rw [collected]
    exact (represents.add c).2
  · rw [Authority.run_authenticate, Authority.decide_of_not_isOverride a o u c ho hu, ← count]
    exact ⟨Authority.judge_overflows_iff a o u c source s,
      Authority.asked_judge_of_le a o u c source s⟩

/-- Two passwords, each submitted twice and in another order. -/
private def stammer : List Submission :=
  ["second", "first", "first", "second"].map fun p => .credential (.password p)

/-- A change of a person with these passwords. -/
private def stammered : Update :=
  .prepare ⟨1⟩ .modify { objectType := .person, key := ⟨"JD1-TEST"⟩ } stammer

/-- An authority of the standard strategies that allows so many passwords. -/
private def allowing (maxPasswords : Nat) : Authority where
  strategies := Trial.standardStrategies
  distinct := Trial.nodup_standardStrategies
  registry := ⟨[]⟩
  trusts := Range.trusts []
  maxPasswords
  restricted := true

/-- Two passwords that are submitted twice are refused where one is allowed, and judged where two
are. They carry no override value, and the index by a hash that tells nothing apart finds them
too. -/
theorem stammered_passwords_counted_once :
    let e (n : Nat) := (((allowing n).authenticate Trial.untrustedOrigin stammered
      (.fresh stammered)).run MemoryStore.empty.answers.source ()).1
    stammered.credentials.toList = [.password "second", .password "first"] ∧
      stammered.credentials.overrides = [] ∧
      ((e 1).asked = [] ∧ (e 1).messages = [.tooManyPasswords]) ∧
      (e 2).asked = [Strategy.mntBy.name] := by
  obtain ⟨-, once, -, -, -, plain, -, guard⟩ := @Update.prepare_collects ⟨fun _ => 0⟩ ⟨1⟩ .modify
    { objectType := .person, key := ⟨"JD1-TEST"⟩ } stammer
  have strict := guard (allowing 1) Trial.untrustedOrigin (.fresh stammered) Unit
    MemoryStore.empty.answers.source () nofun rfl
  have lenient := guard (allowing 2) Trial.untrustedOrigin (.fresh stammered) Unit
    MemoryStore.empty.answers.source () nofun rfl
  exact ⟨once.trans (by decide), plain rfl, strict.1.mpr (by decide), lenient.2 (by decide)⟩

end RegistryConsent
