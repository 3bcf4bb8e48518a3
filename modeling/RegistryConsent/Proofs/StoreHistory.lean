import RegistryConsent.Consult
import RegistryConsent.Proofs.StoredForms

/-!
# What the history of a store says

The history of a store is the list of the calls it has served. It says what a look-up is to find:
what was put last under the name, or under the type and the key up to case. A store whose answers
change with each call as those of a history do replies to every sequence of calls by its history.
-/

namespace RegistryConsent

/-- One call to a store. -/
inductive StoreCall where
  | putUser (u : User)
  | getUser (name : String)
  | putRecord (r : Record)
  | getRecord (t : ObjectType) (key : Handle)

/-- What a store says to a call. -/
inductive StoreReply where
  | put (result : Except StoreError Unit)
  | user (found : UserAnswer)
  | record (found : ObjectAnswer)
deriving DecidableEq

/-! ### Histories -/

/-- The users that some calls have put under a name, in order. -/
def usersPut (calls : List StoreCall) (name : String) : List User :=
  calls.filterMap fun
    | .putUser u => if u.username = name then some u else none
    | _ => none

/-- The records that some calls have put under a type and, up to case, a key, in order. -/
def recordsPut (calls : List StoreCall) (t : ObjectType) (key : Handle) : List Record :=
  calls.filterMap fun
    | .putRecord r => if r.objectType = t ∧ (r.key == key) = true then some r else none
    | _ => none

/-- The answers of a history: what was put last is what is found. -/
def Answers.after (calls : List StoreCall) : Answers where
  user name := (usersPut calls name).getLast?.elim (.error (.unknownUser name)) .ok
  object t key := .ok (recordsPut calls t key).getLast?

/-- The answers when one more call has been served. -/
def Answers.updated (a : Answers) : StoreCall → Answers
  | .putUser u => { a with user := fun name => if u.username = name then .ok u else a.user name }
  | .putRecord r =>
    { a with
      object := fun t key =>
        if r.objectType = t ∧ (r.key == key) = true then .ok (some r) else a.object t key }
  | _ => a

/-- One more call updates the answers of a history. -/
theorem Answers.after_concat (calls : List StoreCall) (call : StoreCall) :
    Answers.after (calls ++ [call]) = (Answers.after calls).updated call := by
  cases call with
  | putUser u =>
    simp only [after, updated, usersPut, recordsPut, List.filterMap_append, Answers.mk.injEq]
    refine ⟨funext fun name => ?_, by simp⟩
    by_cases same : u.username = name <;> simp [same]
  | putRecord r =>
    simp only [after, updated, usersPut, recordsPut, List.filterMap_append, Answers.mk.injEq]
    refine ⟨by simp, funext fun t => funext fun key => ?_⟩
    by_cases same : r.objectType = t ∧ (r.key == key) = true <;> simp [same]
  | getUser name => simp [after, updated, usersPut, recordsPut]
  | getRecord t key => simp [after, updated, usersPut, recordsPut]

namespace StoreCall

/-- The reply that some answers give to a call. -/
def reply (answers : Answers) : StoreCall → StoreReply
  | putUser _ | putRecord _ => .put (.ok ())
  | getUser name => .user (answers.user name)
  | getRecord t key => .record (answers.object t key)

/-- A look-up asks for what a call puts. -/
def Concerns : (put lookup : StoreCall) → Prop
  | putUser u, getUser name => u.username = name
  | putRecord r, getRecord t key => r.objectType = t ∧ (r.key == key) = true
  | _, _ => False

/-- What a call puts fits the form in which it is stored. -/
def Fits : StoreCall → Prop
  | putRecord r => r.Fits
  | putUser _ | getUser _ | getRecord .. => True

/-- Whether a call fits is found from the record that it puts. -/
instance : (call : StoreCall) → Decidable call.Fits
  | putRecord r => inferInstanceAs (Decidable r.Fits)
  | putUser _ | getUser _ | getRecord .. => .isTrue trivial

end StoreCall

/-- The replies to some calls that follow a history, each by the history at its time. -/
def repliesAfter : (history calls : List StoreCall) → List StoreReply
  | _, [] => []
  | history, call :: calls =>
    call.reply (.after history) :: repliesAfter (history ++ [call]) calls

/-- Replies to calls in two parts are those to the first part and those to the second one after
it. -/
theorem repliesAfter_append (history calls others : List StoreCall) :
    repliesAfter history (calls ++ others) =
      repliesAfter history calls ++ repliesAfter (history ++ calls) others := by
  induction calls generalizing history with
  | nil => simp [repliesAfter]
  | cons call calls ih => simp [repliesAfter, ih]

/-- What does not concern a look-up has no influence on it, wherever in the history it stands. -/
theorem reply_after_insert (history later : List StoreCall) {call lookup : StoreCall}
    (foreign : ¬call.Concerns lookup) :
    lookup.reply (.after (history ++ call :: later)) = lookup.reply (.after (history ++ later)) := by
  cases lookup with
  | putUser | putRecord => rfl
  | getUser name =>
    have skipped : usersPut (history ++ call :: later) name = usersPut (history ++ later) name := by
      cases call with
      | putUser u =>
        have apart : u.username ≠ name := foreign
        simp [usersPut, apart]
      | getUser | putRecord | getRecord => simp [usersPut]
    simp only [StoreCall.reply, Answers.after, skipped]
  | getRecord t key =>
    have skipped : recordsPut (history ++ call :: later) t key =
        recordsPut (history ++ later) t key := by
      cases call with
      | putRecord r =>
        have apart : ¬(r.objectType = t ∧ (r.key == key) = true) := foreign
        simp [recordsPut, apart]
      | putUser | getUser | getRecord => simp [recordsPut]
    simp only [StoreCall.reply, Answers.after, skipped]

/-! ### Serving calls -/

/-- The replies of a store to some calls, and the store after them. -/
def serveAll {σ : Type} (serve : σ → StoreCall → StoreReply × σ) :
    σ → List StoreCall → List StoreReply × σ
  | s, [] => ([], s)
  | s, call :: calls =>
    let (reply, s) := serve s call
    let (replies, s) := serveAll serve s calls
    (reply :: replies, s)

/-- The reply to each call is that of the store after the calls before it. -/
theorem getElem?_serveAll {σ : Type} (serve : σ → StoreCall → StoreReply × σ) (s : σ)
    (calls : List StoreCall) (i : Nat) :
    (serveAll serve s calls).1[i]? =
      calls[i]?.map fun call => (serve (serveAll serve s (calls.take i)).2 call).1 := by
  induction calls generalizing s i with
  | nil => rfl
  | cons call calls ih =>
    cases i with
    | zero => rfl
    | succ i => exact ih (serve s call).2 i

/-- A store serves calls by its answers: in a state of some kind it replies to the calls that are
allowed by its answers, keeps them as the calls update them, and stays in a state of the kind. -/
structure ServesBy {σ : Type} (serve : σ → StoreCall → StoreReply × σ) (answers : σ → Answers)
    (kind : σ → Prop) (allowed : StoreCall → Prop) : Prop where
  reply {s : σ} {call : StoreCall} : kind s → allowed call →
    (serve s call).1 = call.reply (answers s)
  kept {s : σ} {call : StoreCall} : kind s → allowed call → kind (serve s call).2
  updated {s : σ} {call : StoreCall} : kind s → allowed call →
    answers (serve s call).2 = (answers s).updated call

/-- A store that serves calls by its answers replies to every sequence of them by its history. -/
theorem ServesBy.serveAll_eq {σ : Type} {serve : σ → StoreCall → StoreReply × σ}
    {answers : σ → Answers} {kind : σ → Prop} {allowed : StoreCall → Prop}
    (h : ServesBy serve answers kind allowed) {history calls : List StoreCall}
    (hc : ∀ call ∈ calls, allowed call) {s : σ} (hk : kind s) (ha : answers s = .after history) :
    (serveAll serve s calls).1 = repliesAfter history calls ∧
      kind (serveAll serve s calls).2 ∧
      answers (serveAll serve s calls).2 = .after (history ++ calls) := by
  induction calls generalizing s history with
  | nil => exact ⟨rfl, hk, by rw [List.append_nil]; exact ha⟩
  | cons call calls ih =>
    have now := hc call List.mem_cons_self
    have replied : (serve s call).1 = call.reply (.after history) := ha ▸ h.reply hk now
    have later : answers (serve s call).2 = .after (history ++ [call]) := by
      rw [h.updated hk now, ha, Answers.after_concat]
    obtain ⟨replies, kept, answers'⟩ := ih (fun c hm => hc c (List.mem_cons_of_mem call hm))
      (h.kept hk now) later
    rw [List.append_assoc] at answers'
    exact ⟨congr (congrArg List.cons replied) replies, kept, answers'⟩

end RegistryConsent
