import RegistryConsent.Proofs.Override
import RegistryConsent.Proofs.OverrideReadings
import RegistryConsent.Proofs.Stores
import RegistryConsent.Store.Faulty

/-!
# Stores that fail on demand

A store with a budget of faults differs from the store behind it in the look-ups that the budget
strikes, and in nothing else. These are the first ones, whether users or records are looked up, and
what is put in between neither fails nor uses the budget. So the logins of an override value are
tried against the store behind, except for as many of the first ones as there are faults.
-/

namespace RegistryConsent

namespace StoreCall

/-- Whether a call looks something up. -/
def isLookup : StoreCall → Bool
  | putUser _ | putRecord _ => false
  | getUser _ | getRecord .. => true

/-- The reply of a store that cannot be reached. -/
def refusal : StoreCall → StoreReply
  | putUser _ | putRecord _ => .put (.error .unavailable)
  | getUser _ => .user (.error .unavailable)
  | getRecord .. => .record (.error .unavailable)

end StoreCall

/-- How many of some calls look something up. -/
def lookups (calls : List StoreCall) : Nat := calls.countP (·.isLookup)

namespace MemoryStore

variable (s : MemoryStore)

/-- A store in memory can always be reached. -/
theorem reply_ne_refusal (call : StoreCall) : (s.serve call).1 ≠ call.refusal := by
  cases call with
  | putUser | putRecord | getRecord => simp [serve, getRecord, StoreCall.refusal]
  | getUser name =>
    simp only [serve, getUser, StoreCall.refusal]
    cases s.users.find? (·.username == name) <;> simp

/-- A look-up leaves the store as it is. -/
theorem serve_of_isLookup {call : StoreCall} (h : call.isLookup = true) : (s.serve call).2 = s := by
  cases call with
  | putUser | putRecord => cases h
  | getUser | getRecord => rfl

/-- Calls leave the store that is left when the look-ups among them are dropped. -/
theorem serveAll_puts (calls : List StoreCall) :
    (serveAll serve s (calls.filter (!·.isLookup))).2 = (serveAll serve s calls).2 := by
  induction calls generalizing s with
  | nil => rfl
  | cons call calls ih =>
    show _ = (serveAll serve (s.serve call).2 calls).2
    cases h : call.isLookup with
    | true => rw [List.filter_cons_of_neg (by simp [h]), ih, serve_of_isLookup s h]
    | false =>
      rw [List.filter_cons_of_pos (by simp [h])]
      exact ih (s.serve call).2

end MemoryStore

namespace FaultBudget

/-- The budget after some look-ups. -/
def after : FaultBudget → Nat → FaultBudget
  | next n, k => next (n - k)
  | always, _ => always

/-- Without a look-up the budget stays. -/
theorem after_zero (b : FaultBudget) : b.after 0 = b := by cases b <;> rfl

/-- The first look-up leaves what the others draw from. -/
theorem after_succ (b : FaultBudget) (k : Nat) : b.after (k + 1) = b.spend.after k := by
  cases b with
  | next n => exact congrArg next (by omega)
  | always => rfl

/-- The count without end is the greatest one. -/
theorem toNat_endless : endless.toNat = USize.size - 1 :=
  USize.toNat_ofNat_of_lt' (Nat.sub_lt USize.size_pos Nat.one_pos)

/-- A count strikes as many look-ups as it says, and the greatest count all of them. -/
theorem fails_after_ofCount (n : USize) (k : Nat) :
    ((ofCount n).after k).fails = true ↔ n = endless ∨ k < n.toNat := by
  unfold ofCount
  split
  · next unbounded => exact iff_of_true rfl (.inl unbounded)
  · next bounded =>
    rw [or_iff_right bounded, after, fails, decide_eq_true_iff]
    exact Nat.sub_pos_iff_lt

/-- A look-up is answered when as many as the count says have been made before it. -/
theorem spared_after_ofCount (n : USize) (k : Nat) :
    ((ofCount n).after k).fails = false ↔ n ≠ endless ∧ n.toNat ≤ k := by
  rw [Bool.eq_false_iff, ne_eq, fails_after_ofCount, not_or, Nat.not_lt]

/-- A count is smaller by the number of look-ups afterwards, but not below zero. -/
theorem toNat_left_after_ofCount {n : USize} (h : n ≠ endless) (k : Nat) :
    ((ofCount n).after k).left.toNat = n.toNat - k := by
  rw [ofCount, if_neg h]
  exact USize.toNat_ofNat_of_lt' (Nat.lt_of_le_of_lt (Nat.sub_le _ _) n.toNat_lt_size)

/-- The greatest count is never used up. -/
theorem left_after_endless (k : Nat) : ((ofCount endless).after k).left = endless := by
  rw [ofCount, if_pos rfl]
  rfl

end FaultBudget

namespace FaultyStore

/-- Serves a call. -/
def serve (s : FaultyStore) : StoreCall → StoreReply × FaultyStore
  | .putUser u => (.put (.ok ()), s.putUser u)
  | .getUser name => (.user (s.getUser name).1, (s.getUser name).2)
  | .putRecord r => (.put (.ok ()), s.putRecord r)
  | .getRecord t key => (.record (s.getRecord t key).1, (s.getRecord t key).2)

variable (s : FaultyStore)

/-- The reply to a call is that of the store behind, except that a look-up may be struck. -/
theorem reply_serve (call : StoreCall) :
    (s.serve call).1 =
      if call.isLookup && s.budget.fails then call.refusal else (s.store.serve call).1 := by
  cases call with
  | putUser | putRecord => rfl
  | getUser name => exact apply_ite StoreReply.user (s.budget.fails = true) _ _
  | getRecord t key => exact apply_ite StoreReply.record (s.budget.fails = true) _ _

/-- A call leaves the store behind as it leaves it without faults, and uses the budget when it is a
look-up. -/
theorem store_serve (call : StoreCall) :
    (s.serve call).2 =
      ⟨(s.store.serve call).2, if call.isLookup then s.budget.spend else s.budget⟩ := by
  cases call <;> rfl

/-- Calls leave the store behind as they leave it without faults, and use the budget as often as
they look something up. -/
theorem serveAll_snd (calls : List StoreCall) :
    (serveAll serve s calls).2 =
      ⟨(serveAll MemoryStore.serve s.store calls).2, s.budget.after (lookups calls)⟩ := by
  induction calls generalizing s with
  | nil => rw [lookups, List.countP_nil, FaultBudget.after_zero]; rfl
  | cons call calls ih =>
    show (serveAll serve (s.serve call).2 calls).2 = _
    rw [ih, store_serve, lookups, lookups, List.countP_cons]
    cases call.isLookup with
    | true => exact congrArg (FaultyStore.mk _) (FaultBudget.after_succ _ _).symm
    | false => rfl

/-- The reply to each call is that of the store behind after the same calls, except that a look-up
may be struck by what the look-ups before it have left of the budget. -/
theorem getElem?_replies (calls : List StoreCall) (i : Nat) :
    (serveAll serve s calls).1[i]? = calls[i]?.map fun call =>
      if call.isLookup && (s.budget.after (lookups (calls.take i))).fails then call.refusal
      else ((serveAll MemoryStore.serve s.store (calls.take i)).2.serve call).1 := by
  rw [getElem?_serveAll]
  congr 1
  funext call
  rw [serveAll_snd, reply_serve]

/-- The look-ups of users for some logins are struck while the budget lasts, and then answered by
the store behind. -/
theorem getElem?_attempts (logins : List Login) (i : Nat) :
    (source.attempts logins s)[i]? = logins[i]?.map fun login =>
      (login, if (s.budget.after i).fails then .error .unavailable
        else s.store.getUser login.username) := by
  induction logins generalizing s i with
  | nil => rfl
  | cons login rest ih =>
    cases i with
    | zero => rw [FaultBudget.after_zero]; rfl
    | succ i =>
      rw [FaultBudget.after_succ]
      exact ih (s.getUser login.username).2 i

/-- An attempt is admitted when the store behind admits its login and the budget does not strike
it. -/
theorem exists_attempt_iff (t : ObjectType) (logins : List Login) :
    (∃ attempt ∈ source.attempts logins s, admits t attempt = true) ↔
      ∃ i login, (s.budget.after i).fails = false ∧ logins[i]? = some login ∧
        admits t (login, s.store.getUser login.username) = true := by
  constructor
  · rintro ⟨attempt, hmem, admitted⟩
    obtain ⟨i, found⟩ := List.mem_iff_getElem?.mp hmem
    rw [getElem?_attempts, Option.map_eq_some_iff] at found
    obtain ⟨login, named, rfl⟩ := found
    cases struck : (s.budget.after i).fails with
    | true => simp [struck, admits] at admitted
    | false => exact ⟨i, login, struck, named, by simpa [struck] using admitted⟩
  · rintro ⟨i, login, spared, named, admitted⟩
    refine ⟨(login, s.store.getUser login.username), List.mem_of_getElem? (i := i) ?_, admitted⟩
    rw [getElem?_attempts, named, spared]
    rfl

/-- A request for override that is open to its logins is granted exactly when the store behind
admits one of those that the count does not strike. -/
theorem has_overrideMaintainer_of_failing {a : Authority} {o : Origin} {u : Update}
    {v : OverrideValue} (ho : o.channel ≠ .internal) (opens : a.Opens o u v) (c : Context)
    (store : MemoryStore) (n : USize) :
    let subject := ((a.authenticate o u c).run source (.failing store n)).1.subject
    subject.has .overrideMaintainer = true ↔
      n ≠ FaultBudget.endless ∧ ∃ i login, n.toNat ≤ i ∧ v.candidates[i]? = some login ∧
        admits u.objectType (login, store.getUser login.username) = true := by
  intro subject
  simp only [subject, Authority.run_authenticate, Ruling.subject_recordIn]
  rw [Authority.decide_of_isOverride a o u c ho opens.isOverride,
    (Authority.has_overrideMaintainer_of_opens opens _ _).1, exists_attempt_iff]
  simp only [failing, FaultBudget.spared_after_ofCount, and_assoc, exists_and_left]

/-- No value that fits in memory has a login at the place of the greatest count. -/
theorem lt_toNat_endless_of_getElem? {v : OverrideValue} {i : Nat} {login : Login}
    (fits : v.value.length < USize.size) (named : v.candidates[i]? = some login) :
    i < FaultBudget.endless.toNat := by
  have inside : i < v.candidates.length := (List.getElem?_eq_some_iff.mp named).1
  have few : v.candidates.length ≤ v.value.length := v.length_candidates_le
  rw [FaultBudget.toNat_endless]
  omega

/-- A store that is to fail as many look-ups as a count says fails the first ones, counted in the
order of the calls and for users and records alike, and nothing else. Every other call gets the
reply of the store behind after all that was put before, and what is put is there afterwards. The
failures that are left are the count less the look-ups so far. With the greatest count every look-up
fails and the count stays. So a request for override that is open to its logins is granted exactly
when the store behind would accept a login with at least as many in front of it as the count says.
With the greatest count none is granted, and no value that fits in memory has a login there. -/
theorem fails_first_lookups_only (s : MemoryStore) (n : USize) (calls : List StoreCall) :
    let run := serveAll FaultyStore.serve (.failing s n) calls
    let behind (calls : List StoreCall) : MemoryStore :=
      (serveAll MemoryStore.serve s (calls.filter (!·.isLookup))).2
    (∀ i, run.1[i]? = calls[i]?.map fun call =>
      if call.isLookup = true ∧ (n = FaultBudget.endless ∨ lookups (calls.take i) < n.toNat) then
        call.refusal
      else ((behind (calls.take i)).serve call).1) ∧
    (∀ (t : MemoryStore) (call : StoreCall), (t.serve call).1 ≠ call.refusal) ∧
    StoreError.unavailable.isNotFound = false ∧
    run.2.store = behind calls ∧
    (n ≠ FaultBudget.endless → run.2.failuresLeft.toNat = n.toNat - lookups calls) ∧
    (n = FaultBudget.endless → run.2.failuresLeft = FaultBudget.endless) ∧
    ∀ (a : Authority) (o : Origin) (u : Update) (c : Context) (v : OverrideValue),
      o.channel ≠ .internal → a.Opens o u v →
      let subject := ((a.authenticate o u c).run FaultyStore.source (.failing s n)).1.subject
      (n ≠ FaultBudget.endless ∨ v.value.length < USize.size →
        (subject.has .overrideMaintainer = true ↔
          ∃ i login, n.toNat ≤ i ∧ v.candidates[i]? = some login ∧
            admits u.objectType (login, s.getUser login.username) = true)) ∧
      (n = FaultBudget.endless → subject.has .overrideMaintainer = false) := by
  intro run behind
  have written (calls : List StoreCall) :
      behind calls = (serveAll MemoryStore.serve s calls).2 := s.serveAll_puts calls
  have left : run.2 = ⟨behind calls, (FaultBudget.ofCount n).after (lookups calls)⟩ := by
    rw [written]
    exact serveAll_snd _ calls
  refine ⟨fun i => ?_, MemoryStore.reply_ne_refusal, rfl, by rw [left], fun bounded => ?_,
    fun unbounded => ?_, fun a o u c v ho opens => ?_⟩
  · rw [getElem?_replies]
    congr 1
    funext call
    simp only [Bool.and_eq_true, failing, FaultBudget.fails_after_ofCount, written]
  · rw [left]
    exact FaultBudget.toNat_left_after_ofCount bounded _
  · rw [left, unbounded]
    exact FaultBudget.left_after_endless _
  · intro subject
    have granted : subject.has .overrideMaintainer = true ↔ _ :=
      has_overrideMaintainer_of_failing ho opens c s n
    refine ⟨fun fits => granted.trans (and_iff_right_of_imp ?_), fun unbounded => ?_⟩
    · rintro ⟨i, login, late, named, -⟩ rfl
      have short : v.value.length < USize.size := fits.resolve_left (absurd rfl)
      exact Nat.not_lt.mpr late (lt_toNat_endless_of_getElem? short named)
    · rw [Bool.eq_false_iff]
      exact fun held => (granted.mp held).1 unbounded

/-- An administrator of persons whose password holds a comma. -/
private def commaAdmin : User := .ofPassword "dbadmin" "pass,word" (.replicate 16 0) [.person]

/-- A store that knows the administrator. -/
private def adminStore : MemoryStore := MemoryStore.empty.putUser commaAdmin

/-- A request for override whose second reading is the login of the administrator. -/
private def commaRequest : Update :=
  .prepare ⟨1⟩ .modify { objectType := .person, key := ⟨"JD1-TEST"⟩ }
    [.credential (.override (.ofText "dbadmin,pass,word"))]

/-- An authority with the standard strategies that trusts one sender. -/
private def gatekeeper : Authority where
  strategies := Trial.standardStrategies
  distinct := Trial.nodup_standardStrategies
  registry := ⟨[]⟩
  trusts := (· == "10.1.2.3")
  maxPasswords := 20
  restricted := true

/-- With one fault the first look-up fails, a record that is put is found by a later one, and the
second login overrides. When every look-up fails no login does, and the count stays. -/
theorem late_login_granted :
    let maintainer := Trial.maintainer "OWN-MNT" "none"
    let calls : List StoreCall :=
      [.getRecord .mntner ⟨"OWN-MNT"⟩, .putRecord maintainer, .getUser "dbadmin",
        .getRecord .mntner ⟨"own-mnt"⟩]
    let run := serveAll FaultyStore.serve (.failing adminStore 1) calls
    let evaluation := gatekeeper.authenticate Trial.trustedOrigin commaRequest (.fresh commaRequest)
    let subject (n : USize) := (evaluation.run FaultyStore.source (.failing adminStore n)).1.subject
    run.1[0]? = some (.record (.error .unavailable)) ∧ run.1[1]? = some (.put (.ok ())) ∧
      run.1[2]? = some (.user (.ok commaAdmin)) ∧
      run.1[3]? = some (.record (.ok (some maintainer))) ∧ run.2.failuresLeft.toNat = 0 ∧
      (serveAll FaultyStore.serve (.failing adminStore FaultBudget.endless) calls).2.failuresLeft =
        FaultBudget.endless ∧
      (subject 1).has .overrideMaintainer = true ∧
      (subject FaultBudget.endless).has .overrideMaintainer = false := by
  intro maintainer calls run evaluation subject
  have bounded : (1 : USize) ≠ FaultBudget.endless := by
    intro same
    have equal := congrArg USize.toNat same
    rw [USize.toNat_one, FaultBudget.toNat_endless] at equal
    have large := USize.le_size
    omega
  have spent {k : Nat} (h : 1 ≤ k) :
      ¬((1 : USize) = FaultBudget.endless ∨ k < (1 : USize).toNat) := by
    rw [USize.toNat_one, not_or, Nat.not_lt]
    exact ⟨bounded, h⟩
  have known : adminStore.getUser "dbadmin" = .ok commaAdmin := by
    rw [adminStore, MemoryStore.getUser_putUser]
    exact if_pos rfl
  have found : (adminStore.putRecord maintainer).getRecord .mntner ⟨"own-mnt"⟩ =
      .ok (some maintainer) := by
    rw [MemoryStore.getRecord_putRecord]
    exact if_pos ⟨rfl, by decide⟩
  have outside : Trial.trustedOrigin.channel ≠ .internal := by decide
  have opens : gatekeeper.Opens Trial.trustedOrigin commaRequest (.ofText "dbadmin,pass,word") :=
    ⟨rfl, by decide, rfl, rfl⟩
  have admitted : admits commaRequest.objectType
      (⟨"dbadmin", "pass,word"⟩, adminStore.getUser "dbadmin") = true := by
    rw [known]
    exact admits_ofPassword_iff.mpr (List.mem_singleton_self _)
  obtain ⟨replies, -, -, -, left, -, granted⟩ := fails_first_lookups_only adminStore 1 calls
  obtain ⟨-, -, -, -, -, stays, refused⟩ :=
    fails_first_lookups_only adminStore FaultBudget.endless calls
  refine ⟨?_, ?_, ?_, ?_, ?_, stays rfl, ?_, ?_⟩
  · rw [replies]
    exact congrArg some (if_pos ⟨rfl, .inr (by rw [USize.toNat_one]; decide)⟩)
  · rw [replies]
    exact congrArg some (if_neg fun h => Bool.false_ne_true h.1)
  · rw [replies]
    have served := congrArg StoreReply.user known
    exact congrArg some ((if_neg fun h => spent (by decide) h.2).trans served)
  · rw [replies]
    have served := congrArg StoreReply.record found
    exact congrArg some ((if_neg fun h => spent (by decide) h.2).trans served)
  · rw [left bounded, USize.toNat_one]
    rfl
  · refine ((granted gatekeeper _ commaRequest _ _ outside opens).1 (.inl bounded)).mpr ?_
    exact ⟨1, ⟨"dbadmin", "pass,word"⟩, USize.toNat_one.le, rfl, admitted⟩
  · exact (refused gatekeeper _ commaRequest _ _ outside opens).2 rfl

end FaultyStore

end RegistryConsent
