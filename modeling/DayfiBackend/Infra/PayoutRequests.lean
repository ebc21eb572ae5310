import DayfiBackend.Infra.CreatePayout
import DayfiBackend.Infra.Statements

/-!
# One payment request per client key, as long as no insert finds its key taken

Two calls with one client key that both pass the replay lookup before either inserts end up with
one row: the second insert finds the key taken and is answered by the row of the first. Both then
go on, and each sends a payment request under a sequence id of its own (`requested_twice`). While
no insert finds its key taken, a call sends at most one request, for a row only it inserted, and
no two requests are for rows of one client key (`requested_at_most_once`).
-/

namespace DayfiBackend.Infra

open DayfiBackend.Found DayfiBackend.Found.Prog DayfiBackend.Found.Keys

/-! ### Rows of one client key -/

/-- Two rows under one client key. -/
def TxRow.sameKey (r r' : TxRow) : Bool :=
  r.clientKey.isSome && r.orgId = r'.orgId && r.environment = r'.environment &&
    r.clientKey = r'.clientKey

/-- A table in which identifiers and client keys are unique. -/
structure TxTable (s : Store) : Prop where
  ids : s.txs.Pairwise fun r r' => r.id ≠ r'.id
  keys : s.txs.Pairwise fun r r' => r.sameKey r' = false
  below : ∀ r ∈ s.txs, r.id < s.nextId

/-- The requests sent for the payouts of a client key. -/
def requestsFor (s : Store) (orgId env key : String) : List Request :=
  s.requests.filter fun q => s.txs.any fun r =>
    r.id = q.payoutId && r.orgId = orgId && r.environment = env && r.clientKey = some key

/-- No insert finds its key taken. -/
def KeyFree {β : Type} (_pid : ℕ) (st : Sql β) (_o : Outside) (s : Store) : Prop :=
  match st with
  | .insertTx draft => s.txs.all (fun r => !draft.sameKey r) = true
  | _ => True

instance {β : Type} (pid : ℕ) (st : Sql β) (o : Outside) (s : Store) :
    Decidable (KeyFree pid st o s) := by
  unfold KeyFree
  split <;> infer_instance

/-! ### The invariant -/

/-- Every request is for a row that its sender inserted, and no sender sent two. -/
structure RequestInv (s : Store) : Prop extends TxTable s where
  owned : ∀ q ∈ s.requests, ∃ r ∈ s.txs, r.id = q.payoutId ∧ r.creator = q.sender
  senders : s.requests.Pairwise fun q q' => q.sender ≠ q'.sender

/-- Nothing was sent in the name of the process. -/
def Unsent (pid : ℕ) (s : Store) : Prop := ∀ q ∈ s.requests, q.sender ≠ pid

/-- Rows stay, and the others send nothing in the name of a process. -/
structure Spares (pid : ℕ) (s t : Store) : Prop where
  unsent : Unsent pid s → Unsent pid t
  rows : ∀ r ∈ s.txs, ∃ r' ∈ t.txs, r'.id = r.id ∧ r'.creator = r.creator

theorem Spares.refl (pid : ℕ) (s : Store) : Spares pid s s :=
  ⟨id, fun r hr => ⟨r, hr, rfl, rfl⟩⟩

theorem Spares.trans {pid : ℕ} {s t u : Store} (h : Spares pid s t) (h' : Spares pid t u) :
    Spares pid s u where
  unsent hs := h'.unsent (h.unsent hs)
  rows r hr := by
    obtain ⟨r', hr', hid, hcreator⟩ := h.rows r hr
    obtain ⟨r'', hr'', hid', hcreator'⟩ := h'.rows r' hr'
    exact ⟨r'', hr'', hid'.trans hid, hcreator'.trans hcreator⟩

/-- The discipline of calls whose inserts find their keys free. -/
def requestDiscipline : Discipline Sql Outside Store where
  inv := RequestInv
  rely := Spares
  cond := KeyFree
  good _ _ _ _ _ _ := True
  rely_refl := Spares.refl
  rely_trans _ _ _ _ := Spares.trans

theorem TxRow.sameKey_comm (r r' : TxRow) : r.sameKey r' = r'.sameKey r := by
  unfold sameKey
  by_cases hkey : r.clientKey = r'.clientKey
  · simp [hkey, eq_comm]
  · simp [hkey, Ne.symm hkey]

instance : Std.Symm fun r r' : TxRow => r.sameKey r' = false :=
  ⟨fun r r' h => by rw [TxRow.sameKey_comm, h]⟩

instance : Std.Symm fun r r' : TxRow => r.id ≠ r'.id := ⟨fun _ _ h => h.symm⟩

theorem TxTable.eq_of_id {s : Store} (h : TxTable s) {r r' : TxRow} (hr : r ∈ s.txs)
    (hr' : r' ∈ s.txs) (hid : r.id = r'.id) : r = r' := by
  by_contra hne
  exact h.ids.forall hr hr' hne hid

/-- Two requests for one client key would be for one row, and have one sender. -/
theorem RequestInv.length_requestsFor {s : Store} (h : RequestInv s) (orgId env key : String) :
    (requestsFor s orgId env key).length ≤ 1 := by
  refine length_le_one_of_pairwise (h.senders.sublist List.filter_sublist) ?_
  intro q hq q' hq' hne
  obtain ⟨hmem, hrow⟩ := List.mem_filter.mp hq
  obtain ⟨hmem', hrow'⟩ := List.mem_filter.mp hq'
  simp only [List.any_eq_true, Bool.and_eq_true, decide_eq_true_eq] at hrow hrow'
  obtain ⟨r, hr, ⟨⟨hid, horg⟩, henv⟩, hkey⟩ := hrow
  obtain ⟨r', hr', ⟨⟨hid', horg'⟩, henv'⟩, hkey'⟩ := hrow'
  have hsame : r.sameKey r' = true := by
    simp [TxRow.sameKey, hkey, hkey', horg, horg', henv, henv']
  have hrr : r = r' := by
    by_contra hrr
    rw [h.keys.forall hr hr' hrr] at hsame
    cases hsame
  obtain ⟨a, ha, haid, hac⟩ := h.owned q hmem
  obtain ⟨b, hb, hbid, hbc⟩ := h.owned q' hmem'
  have hab : a = b := h.eq_of_id ha hb (by rw [haid, hbid, ← hid, ← hid', hrr])
  exact hne (by rw [← hac, ← hbc, hab])

/-! ### Statements -/

section statements

variable {pid : ℕ} {s : Store}

/-- A step that changes neither the table nor the requests. -/
theorem RequestInv.keep {s' : Store} (h : RequestInv s) (htxs : s'.txs = s.txs)
    (hreq : s'.requests = s.requests) (hnext : s.nextId ≤ s'.nextId) (j : ℕ) :
    RequestInv s' ∧ Spares j s s' := by
  refine ⟨⟨⟨?_, ?_, ?_⟩, ?_, ?_⟩, ?_, ?_⟩
  · rw [htxs]; exact h.ids
  · rw [htxs]; exact h.keys
  · rw [htxs]; exact fun r hr => (h.below r hr).trans_le hnext
  · rw [htxs, hreq]; exact h.owned
  · rw [hreq]; exact h.senders
  · unfold Unsent; rw [hreq]; exact id
  · rw [htxs]; exact fun r hr => ⟨r, hr, rfl, rfl⟩

/-- An update of rows that keeps identifiers, creators and client keys. -/
theorem RequestInv.setTx (h : RequestInv s) (id : ℕ) {f : TxRow → TxRow}
    (hid : ∀ r, (f r).id = r.id) (hcreator : ∀ r, (f r).creator = r.creator)
    (hkey : ∀ r r', (f r).sameKey (f r') = r.sameKey r' ∧ (f r).sameKey r' = r.sameKey r' ∧
      r.sameKey (f r') = r.sameKey r') (j : ℕ) :
    RequestInv (s.setTx id f) ∧ Spares j s (s.setTx id f) := by
  set g : TxRow → TxRow := fun r => if r.id = id then f r else r with hg
  have hgid : ∀ r, (g r).id = r.id := fun r => by
    simp only [hg]
    split_ifs
    · exact hid r
    · rfl
  have hgcreator : ∀ r, (g r).creator = r.creator := fun r => by
    simp only [hg]
    split_ifs
    · exact hcreator r
    · rfl
  have hgkey : ∀ r r', (g r).sameKey (g r') = r.sameKey r' := fun r r' => by
    simp only [hg]
    split_ifs
    · exact (hkey r r').1
    · exact (hkey r r').2.1
    · exact (hkey r r').2.2
    · rfl
  have htxs : (s.setTx id f).txs = s.txs.map g := rfl
  refine ⟨⟨⟨?_, ?_, ?_⟩, ?_, h.senders⟩, fun hs => hs, ?_⟩
  · rw [htxs]
    exact List.pairwise_map.mpr (h.ids.imp fun {a b} hab => by rwa [hgid, hgid])
  · rw [htxs]
    exact List.pairwise_map.mpr (h.keys.imp fun {a b} hab => by rwa [hgkey])
  · rw [htxs]
    intro r hr
    obtain ⟨r₀, hr₀, rfl⟩ := List.mem_map.mp hr
    rw [hgid]
    exact h.below r₀ hr₀
  · intro q hq
    obtain ⟨r, hr, hrid, hrc⟩ := h.owned q hq
    exact ⟨g r, List.mem_map_of_mem hr, (hgid r).trans hrid, (hgcreator r).trans hrc⟩
  · intro r hr
    exact ⟨g r, List.mem_map_of_mem hr, hgid r, hgcreator r⟩

/-- The statements that insert nothing and send nothing keep the discipline. -/
def Sql.Harmless {β : Type} : Sql β → Prop
  | .insertTx .. | .createPaymentRequest .. | .providerFails .. => False
  | _ => True

theorem RequestInv.harmless (h : RequestInv s) {β : Type} {st : Sql β} (hst : st.Harmless)
    (i : ℕ) (o : Outside) (j : ℕ) :
    RequestInv (st.run i o s).2 ∧ Spares j s (st.run i o s).2 := by
  by_cases hq : st.quiet = true
  · have hsame := Sql.run_same hq i o s
    exact h.keep hsame.txs hsame.requests hsame.nextId j
  cases st with
  | patchTx id status patch =>
      refine h.setTx id (fun _ => ?_) (fun _ => ?_) (fun _ _ => ⟨?_, ?_, ?_⟩) j <;> rfl
  | payout step row amt =>
      change RequestInv (s.post _ _).2 ∧ Spares j s (s.post _ _).2
      rcases s.post_cases step.op (step.params row amt) with
        ⟨e, he⟩ | ⟨m, -, he⟩ | ⟨amount, -, he⟩ <;> rw [he] <;>
        refine h.keep ?_ ?_ ?_ j <;> rfl
  | collection step row amt =>
      change RequestInv (s.post _ _).2 ∧ Spares j s (s.post _ _).2
      rcases s.post_cases step.op (step.params row amt) with
        ⟨e, he⟩ | ⟨m, -, he⟩ | ⟨amount, -, he⟩ <;> rw [he] <;>
        refine h.keep ?_ ?_ ?_ j <;> rfl
  | insertTx draft => exact hst.elim
  | createPaymentRequest id seq => exact hst.elim
  | providerFails seq => exact hst.elim
  | _ => exact absurd rfl hq

/-- An insert that finds its key free. -/
theorem insertTx_run {draft : TxRow} {i : ℕ} {o : Outside}
    (hfree : KeyFree i (.insertTx draft) o s) : (Sql.insertTx draft).run i o s =
      (.ok (some { draft with id := s.nextId, creator := i }),
        { s with
          txs := { draft with id := s.nextId, creator := i } :: s.txs
          nextId := s.nextId + 1 }) := by
  have hkeys : s.txs.all (fun r => !draft.sameKey r) = true := hfree
  have hnot : (draft.clientKey.isSome && s.txs.any fun r =>
      r.orgId = draft.orgId && r.environment = draft.environment &&
        r.clientKey = draft.clientKey) = false := by
    by_contra htaken
    simp only [Bool.not_eq_false, Bool.and_eq_true, List.any_eq_true, decide_eq_true_eq]
      at htaken
    obtain ⟨hsome, r, hr, ⟨horg, henv⟩, hkey⟩ := htaken
    have hsame := List.all_eq_true.mp hkeys r hr
    simp [TxRow.sameKey, hsome, horg, henv, hkey] at hsame
  simp only [Sql.run, hnot]
  rfl

theorem RequestInv.insert (h : RequestInv s) {draft : TxRow} {i : ℕ} {o : Outside}
    (hfree : KeyFree i (.insertTx draft) o s) (pid j : ℕ) :
    RequestInv { s with
      txs := { draft with id := s.nextId, creator := pid } :: s.txs
      nextId := s.nextId + 1 } ∧
    Spares j s { s with
      txs := { draft with id := s.nextId, creator := pid } :: s.txs
      nextId := s.nextId + 1 } := by
  have hkeys : ∀ r ∈ s.txs, draft.sameKey r = false := by
    have hall : s.txs.all (fun r => !draft.sameKey r) = true := hfree
    simpa using hall
  refine ⟨⟨⟨?_, ?_, ?_⟩, ?_, h.senders⟩, id, ?_⟩
  · refine List.pairwise_cons.mpr ⟨fun r hr hid => ?_, h.ids⟩
    have hlt := h.below r hr
    rw [← hid] at hlt
    exact lt_irrefl _ hlt
  · exact List.pairwise_cons.mpr ⟨fun r hr => hkeys r hr, h.keys⟩
  · intro r hr
    rcases List.mem_cons.mp hr with rfl | hr
    · exact Nat.lt_succ_self _
    · exact (h.below r hr).trans (Nat.lt_succ_self _)
  · intro q hq
    obtain ⟨r, hr, hid, hcreator⟩ := h.owned q hq
    exact ⟨r, List.mem_cons_of_mem _ hr, hid, hcreator⟩
  · exact fun r hr => ⟨r, List.mem_cons_of_mem _ hr, rfl, rfl⟩

theorem send_run (i id : ℕ) (sequenceId : String) (o : Outside) (s : Store) :
    ∃ status, ((Sql.createPaymentRequest id sequenceId).run i o s).2 =
      s.request id sequenceId status i := by
  simp only [Sql.run]
  split <;> exact ⟨_, rfl⟩

/-- The process inserted the row, and has sent nothing yet. -/
def Owns (pid id : ℕ) (s : Store) : Prop := Unsent pid s ∧ ∃ r ∈ s.txs, r.id = id ∧ r.creator = pid

theorem RequestInv.send (h : RequestInv s) {pid id : ℕ} (howns : Owns pid id s)
    (sequenceId : String) (status : RequestStatus) :
    RequestInv (s.request id sequenceId status pid) ∧
      ∀ j, j ≠ pid → Spares j s (s.request id sequenceId status pid) := by
  obtain ⟨hunsent, r, hr, hid, hcreator⟩ := howns
  refine ⟨⟨⟨h.ids, h.keys, h.below⟩, ?_, ?_⟩, fun j hj => ⟨fun hs q hq => ?_, ?_⟩⟩
  · intro q hq
    rcases List.mem_cons.mp hq with rfl | hq
    · exact ⟨r, hr, hid, hcreator⟩
    · exact h.owned q hq
  · exact List.pairwise_cons.mpr ⟨fun q hq hs => hunsent q hq hs.symm, h.senders⟩
  · rcases List.mem_cons.mp hq with rfl | hq
    · exact Ne.symm hj
    · exact hs q hq
  · exact fun r hr => ⟨r, hr, rfl, rfl⟩

end statements

/-! ### The programs -/

section programs

variable {pid : ℕ} {β : Type} {P : Store → Prop}

/-- The call keeps the discipline from `P`, and what it returns meets `Q`. -/
abbrev Requests (pid : ℕ) (P : Store → Prop) (p : Call β) (Q : β → Store → Prop) : Prop :=
  Triple services requestDiscipline pid P p Q fun _ _ => True

theorem stable_unsent : Stable requestDiscipline pid (Unsent pid) :=
  fun _ _ h hr => hr.unsent h

theorem stable_owns (id : ℕ) : Stable requestDiscipline pid (Owns pid id) := by
  rintro s t ⟨hunsent, r, hmem, hid, hcreator⟩ hr
  obtain ⟨r', hmem', hid', hcreator'⟩ := hr.rows r hmem
  exact ⟨stable_unsent s t hunsent hr, r', hmem', hid'.trans hid, hcreator'.trans hcreator⟩

theorem stable_any : Stable requestDiscipline pid fun _ => True := fun _ _ _ _ => trivial

/-- Calls that insert nothing and send nothing. -/
theorem harmless_call {p : Call β} (hp : OnlyE Sql.Harmless p)
    (hstable : Stable requestDiscipline pid P) : Requests pid P p fun _ => P := by
  refine (triple_only (D := requestDiscipline) hp hstable (fun {γ} st hst t ht hinv o _ _ => ?_)
    fun _ _ _ => trivial).mono (fun _ hs => hs) (fun _ _ hq => hq) fun _ _ _ => trivial
  have hkeep := fun j => RequestInv.harmless hinv hst pid o j
  exact ⟨⟨trivial, (hkeep 0).1, fun j _ => (hkeep j).2⟩, hstable t _ ht (hkeep pid).2⟩

theorem harmless_sql {st : Sql (Ans β)} (hst : st.Harmless)
    (hstable : Stable requestDiscipline pid P) : Requests pid P (sql st) fun _ => P :=
  harmless_call (sql_only hst) hstable

theorem harmless_of_payout {step : PayoutStep} {p : Call β} (hp : OnlyE (Sql.OfPayout step) p) :
    OnlyE Sql.Harmless p :=
  hp.mono fun st hst => by cases st <;> trivial

/-- An insert that finds its key free makes a row of its own. -/
theorem insert_requests (draft : TxRow) :
    Requests pid (Unsent pid) (sql (.insertTx draft))
      fun found s => ∃ row, found = some row ∧ Owns pid row.id s := by
  refine triple_sql rfl stable_unsent (fun t ht hinv o hc _ => ?_) fun _ _ _ _ _ _ =>
    ⟨trivial, trivial⟩
  have hfree : KeyFree pid (.insertTx draft) o t := hc
  rw [insertTx_run hfree]
  have hkeep := fun j => RequestInv.insert hinv hfree pid j
  exact ⟨⟨trivial, (hkeep 0).1, fun j _ => (hkeep j).2⟩, _, rfl, ht, _, List.mem_cons_self,
    rfl, rfl⟩

/-- A process sends its only request for its own row. -/
theorem send_requests (id : ℕ) (sequenceId : String) :
    Requests pid (Owns pid id) (sql (.createPaymentRequest id sequenceId)) fun _ _ => True := by
  refine triple_sql rfl (stable_owns id) (fun t ht hinv o _ _ => ?_) fun _ _ _ _ _ _ =>
    ⟨trivial, trivial⟩
  obtain ⟨status, hstatus⟩ := send_run pid id sequenceId o t
  refine ⟨⟨trivial, ?_, fun j hj => ?_⟩, ?_⟩
  · rw [hstatus]
    exact (RequestInv.send hinv ht sequenceId status).1
  · rw [hstatus]
    exact (RequestInv.send hinv ht sequenceId status).2 j hj
  · unfold Answers
    split <;> trivial

theorem insertTx_requests (draft : TxRow) (fingerprint : Fingerprint) :
    Requests pid (Unsent pid) (insertTx draft fingerprint) fun row => Owns pid row.id := by
  unfold insertTx
  refine Triple.bind (insert_requests draft) fun found => ?_
  cases found with
  | none =>
      rintro s ⟨row, hrow, -⟩
      cases hrow
  | some row =>
      refine Triple.pure fun s hs => ?_
      obtain ⟨row', hrow', howns⟩ := hs
      cases hrow'
      exact howns

theorem lockFundsForPayout_harmless (orgId : String) (id : ℕ) :
    OnlyE Sql.Harmless (lockFundsForPayout orgId id) := by
  unfold lockFundsForPayout
  refine .tryCatch (harmless_of_payout (lockPayoutFunds_only orgId id)) fun e => ?_
  exact .bind (sql_only trivial) fun _ => .throw e

theorem submitToProvider_requests (orgId : String) (id : ℕ) (sequenceId : String) :
    Requests pid (Owns pid id) (submitToProvider orgId id sequenceId) fun _ _ => True := by
  unfold submitToProvider
  refine Triple.tryCatch (F := fun _ _ => True) ?_ fun e => ?_
  · refine Triple.bind (harmless_sql trivial (stable_owns id)) fun _ => ?_
    refine Triple.bind (send_requests id sequenceId) fun _ => ?_
    exact harmless_sql trivial stable_any
  · refine Triple.bind (harmless_call (.tryCatch (.bind (harmless_of_payout
      (releasePayoutLock_only _ _)) fun _ => .pure _) fun _ => .pure _) stable_any) fun _ => ?_
    exact Triple.throw fun _ _ => trivial

theorem harmless_of_quiet {p : Call β} (hp : OnlyE (fun st => st.quiet = true) p) :
    OnlyE Sql.Harmless p :=
  hp.mono fun st hst => by cases st <;> trivial

theorem payoutRules_requests : PayoutRules requestDiscipline pid (Unsent pid) (Owns pid) where
  quiet := by
    rintro P (rfl | ⟨id, rfl⟩ | rfl) β p hp
    · exact harmless_call (harmless_of_quiet hp) stable_unsent
    · exact harmless_call (harmless_of_quiet hp) (stable_owns id)
    · exact harmless_call (harmless_of_quiet hp) stable_any
  insert draft fingerprint _ _ := insertTx_requests draft fingerprint
  lock orgId id := harmless_call (lockFundsForPayout_harmless orgId id) (stable_owns id)
  mark id := harmless_sql trivial (stable_owns id)
  submit := submitToProvider_requests

end programs

/-! ### Whole runs -/

/-- The pool of a list of `createPayout` calls. -/
def createPayouts (s : Store) (inputs : List CreatePayoutInput) : Pool Sql Unit Store :=
  ⟨s, inputs.map fun input => discard (createPayout input)⟩

/-- **One request per client key.** In every run of any calls of `createPayout`, in any
interleaving, in which no insert finds its key taken, at most one payment request is sent for the
payouts of a client key. -/
theorem requested_at_most_once {s : Store} (htable : TxTable s) (hnone : s.requests = [])
    (inputs : List CreatePayoutInput) (sched : List (ℕ × Outside))
    (hfree : Pool.Along services (Pool.CondAt KeyFree) (createPayouts s inputs) sched)
    (orgId env key : String) :
    (requestsFor ((createPayouts s inputs).run services sched).store orgId env key).length ≤ 1 := by
  have hstart : Pool.Verified services requestDiscipline (fun _ _ _ => True)
      (createPayouts s inputs) := by
    refine Pool.Verified.start ⟨htable, ?_, ?_⟩ fun i p hp => ?_
    · rw [hnone]
      exact fun q hq => by cases hq
    · rw [hnone]
      exact .nil
    · obtain ⟨input, -, rfl⟩ := List.mem_map.mp (List.mem_of_getElem? hp)
      refine discard_verifies (payoutRules_requests.createPayout input) s ?_
      unfold Unsent
      rw [hnone]
      exact fun q hq => by cases hq
  exact (Pool.run_sound hstart sched hfree).1.1.length_requestsFor orgId env key

/-- An organisation with 500 USDC, and nothing else. -/
def fundedOrg : Store where
  ledger := ⟨fun k => if k = ⟨"org", .live, "USDC"⟩ then some ⟨.active, ⟨500 * 10 ^ 7, 0, 0⟩⟩
    else none, [], 0⟩
  txs := []
  settlements := []
  requests := []
  payments := []
  nextId := 1

theorem fundedOrg_table : TxTable fundedOrg := ⟨.nil, .nil, fun _ hr => by cases hr⟩

/-- A live payout of 100 USDC to a bank account, under the client key `key`. -/
def bankPayout : CreatePayoutInput where
  orgId := "org"
  env := "live"
  amount := some 100
  currency := some "USDC"
  accountNumber := some "0123456789"
  accountName := some "A Name"
  bankCode := some "058"
  idempotencyKey := some "key"

/-- Two calls, one after the other. -/
def calledInTurn : List (ℕ × Outside) := steps 0 15 {} ++ steps 1 15 {}

/-- Two calls that both look the key up before either inserts. -/
def calledAtOnce : List (ℕ × Outside) :=
  steps 0 5 {} ++ steps 1 5 {} ++ steps 0 10 {} ++ steps 1 11 {}

/-- In turn, the second call finds the payout of the first. -/
theorem requested_at_most_once_inTurn :
    (requestsFor ((createPayouts fundedOrg [bankPayout, bankPayout]).run services
      calledInTurn).store "org" "live" "key").length ≤ 1 :=
  requested_at_most_once fundedOrg_table rfl [bankPayout, bankPayout] calledInTurn
    (by decide +kernel) "org" "live" "key"

/-- At once, both calls send a request for the one payout. -/
theorem requested_twice :
    TxTable fundedOrg ∧
      (requestsFor ((createPayouts fundedOrg [bankPayout, bankPayout]).run services
        calledAtOnce).store "org" "live" "key").map (fun q => (q.payoutId, q.sender)) =
          [(3, 1), (3, 0)] :=
  ⟨fundedOrg_table, by decide +kernel⟩

end DayfiBackend.Infra
