import DayfiBackend.Infra.OnchainCredits

/-!
# Runs of transfers on chain

Each call of a transfer is taken through its statements, with what it knows between two of them:
that the row is in the table (`Genuine`), that the hashes of its settlement are of its own payments
(`Store.Traced`), and, once the network has answered, that one of these is confirmed
(`Store.Confirmed`). The invariant of `Infra.OnchainCredits` then holds in every run
(`credits_backed`).
-/

namespace DayfiBackend.Infra.Onchain

open DayfiBackend.Found DayfiBackend.Found.Keys DayfiBackend.Found.Prog
open DayfiBackend.Infra.InternalTransfer (FeeQuote quoteDayfiTransactionFee)

/-! ### The discipline -/

/-- The discipline of the runs. -/
def onchainDiscipline (cfg : Config) :
    Discipline OnchainSql (Except TransferErr Outside) Store where
  inv := OnchainInv cfg
  rely _ := Later
  cond _ _ _ _ := True
  good _ _ _ s _ t := Later s t
  rely_refl _ := Later.refl
  rely_trans _ _ _ _ := Later.trans

section discipline

variable {cfg : Config} {i : ℕ}

/-- The rule of one statement. -/
theorem triple_sql {β : Type} {st : OnchainSql (Ans β)} {P : Store → Prop} {Q : β → Store → Prop}
    (hst : ∀ e, st.fail e = .error e) (hstable : ∀ s t, P s → Later s t → P t)
    (hmay : ∀ s, P s → OnchainInv cfg s → May cfg st s)
    (hans : ∀ s o b, P s → OnchainInv cfg s → (st.run cfg o s).1 = .ok b →
      Q b (st.run cfg o s).2) :
    Triple (onchain cfg).machine (onchainDiscipline cfg) i P (sql st)
      (fun b s => P s ∧ Q b s) fun _ s => P s := by
  refine Backend.triple_call hst hstable (fun s e hs _ => ⟨.refl s, hs⟩) fun s o hs hinv _ => ?_
  have hrun : (onchain cfg).run i st o s = st.run cfg o s := rfl
  rw [hrun]
  obtain ⟨hinv', hl⟩ := run_keeps hinv st o (hmay s hs hinv)
  refine ⟨hl, hinv', fun j _ => hl, ?_⟩
  cases hb : (st.run cfg o s).1 with
  | ok b => exact ⟨hstable s _ hs hl, hans s o b hs hinv hb⟩
  | error e => exact hstable s _ hs hl

/-- A statement that may always be made, of whose answer nothing is asked. -/
theorem triple_any {β : Type} {st : OnchainSql (Ans β)} {P : Store → Prop}
    (hst : ∀ e, st.fail e = .error e) (hstable : ∀ s t, P s → Later s t → P t)
    (hmay : ∀ s, May cfg st s) :
    Triple (onchain cfg).machine (onchainDiscipline cfg) i P (sql st) (fun _ s => P s)
      fun _ s => P s :=
  (triple_sql (Q := fun _ _ => True) hst hstable (fun s _ _ => hmay s)
    fun _ _ _ _ _ _ => trivial).mono (fun _ h => h) (fun _ _ h => h.1) fun _ _ h => h

/-- A check. -/
theorem triple_failIf {c : Prop} [Decidable c] {e : TransferErr} {P : Store → Prop} :
    Triple (onchain cfg).machine (onchainDiscipline cfg) i P (failIf c e) (fun _ s => P s)
      fun _ s => P s :=
  Triple.ite (fun _ => Triple.throw fun _ h => h) fun _ => Triple.pure fun _ h => h

end discipline

/-! ### Calls -/

section calls

variable {cfg : Config} {i : ℕ} {row : OnchainTransferRow}

/-- Looking away from why a call failed. -/
theorem triple_loose {α : Type} {p : OnchainCall α} {P : Store → Prop} {Q : α → Store → Prop}
    (h : Triple (onchain cfg).machine (onchainDiscipline cfg) i P p Q fun _ s => P s) :
    Triple (onchain cfg).machine (onchainDiscipline cfg) i P p Q fun _ _ => True :=
  h.mono (fun _ hs => hs) (fun _ _ hq => hq) fun _ _ _ => trivial

/-- The transfer is in the table, with the fee that all have, and is done if it says so. -/
structure Genuine (cfg : Config) (r : OnchainTransferRow) (s : Store) : Prop where
  known : s.Known r
  fee : r.fee.feeAmount = cfg.fee
  done : r.status = .completed → s.Done r

theorem Genuine.later {s t : Store} (h : Genuine cfg row s) (hl : Later s t) :
    Genuine cfg row t :=
  ⟨h.known.later hl, h.fee, fun hc => (h.done hc).later hl⟩

/-- A row that is read is genuine. -/
theorem OnchainInv.genuine {s : Store} (hinv : OnchainInv cfg s) {r : OnchainTransferRow}
    (hr : r ∈ s.transfers) : Genuine cfg r s :=
  ⟨⟨r, hr, rfl⟩, hinv.fees r hr, hinv.completed r hr⟩

/-- Releasing is no step that waits for the payment. -/
theorem triple_releaseLock {step : TransferStep} (hstep : ¬ step.Settles)
    (row : OnchainTransferRow) (amount : ℤ) {P : Store → Prop}
    (hstable : ∀ s t, P s → Later s t → P t) :
    Triple (onchain cfg).machine (onchainDiscipline cfg) i P (releaseLock step row amount)
      (fun _ s => P s) fun _ s => P s := by
  unfold releaseLock
  refine Triple.tryCatch (F := fun _ s => P s) ?_ fun e => Triple.pure fun _ h => h
  exact Triple.bind (triple_any (fun _ => rfl) hstable fun s h => absurd h hstep) fun _ =>
    Triple.pure fun _ h => h

/-- A transfer that fails ends in an error. -/
theorem triple_failTransfer {α : Type} (row : OnchainTransferRow) (e : TransferErr)
    (settlementId : ℕ) (feeQuote : FeeQuote) {P : Store → Prop} {Q : α → Store → Prop} :
    Triple (onchain cfg).machine (onchainDiscipline cfg) i P
      (failTransfer row e settlementId feeQuote) Q fun _ _ => True := by
  have h : Triple (onchain cfg).machine (onchainDiscipline cfg) i (fun _ => True)
      (failTransfer row e settlementId feeQuote) Q fun _ _ => True := by
    unfold failTransfer releaseLocks
    refine Triple.bind (triple_any (fun _ => rfl) (fun _ _ _ _ => trivial) fun _ => trivial)
      fun _ => ?_
    refine Triple.bind (Triple.bind (triple_releaseLock id _ _ fun _ _ _ _ => trivial)
      fun _ => Triple.ite (fun _ => triple_releaseLock id _ _ fun _ _ _ _ => trivial) fun _ =>
        Triple.pure fun _ h => h) fun _ => ?_
    refine Triple.bind (triple_any (fun _ => rfl) (fun _ _ _ _ => trivial) fun _ => trivial)
      fun _ => ?_
    refine Triple.bind (triple_any (fun _ => rfl) (fun _ _ _ _ => trivial) fun _ h => ?_)
      fun _ => Triple.throw fun _ _ => trivial
    cases h
  exact h.mono (fun _ _ => trivial) (fun _ _ hq => hq) fun _ _ _ => trivial

/-- What is known of a transfer whose payment was seen to be confirmed. -/
def Store.Confirmed (s : Store) (r : OnchainTransferRow) (hash : String) : Prop :=
  s.Known r ∧ (r.id, hash) ∈ s.attempts ∧ hash ∈ s.confirmed

theorem Store.Confirmed.later {s t : Store} {hash : String} (h : s.Confirmed row hash)
    (hl : Later s t) : t.Confirmed row hash :=
  ⟨h.1.later hl, hl.attempts _ h.2.1, hl.confirmed _ h.2.2⟩

theorem Store.Confirmed.paid {s : Store} {hash : String} (h : s.Confirmed row hash) :
    s.Paid row := ⟨hash, h.2.2, h.2.1⟩

/-- A step of a transfer whose payment is confirmed, and whose debit is posted if it is a
credit. -/
theorem triple_settle (cfg : Config) (row : OnchainTransferRow) (step : TransferStep)
    {hash revenueOrgId : String} {amount : ℤ} {P : Store → Prop}
    (hstable : ∀ s t, P s → Later s t → P t)
    (hconfirmed : ∀ s, P s → s.Confirmed row hash)
    (hamount : amount = row.settledAmount cfg.fee step)
    (hdebit : ∀ s, P s → ∀ debit, step.debit = some debit → ∃ id, s.Made row debit id) :
    Triple (onchain cfg).machine (onchainDiscipline cfg) i P
      (sql (.post step row revenueOrgId amount))
      (fun b s => P s ∧ s.Made row step b.movement.id) fun _ _ => True := by
  refine triple_loose (triple_sql (fun _ => rfl) hstable (fun s hs _ _ => ?_)
    fun s o b _ _ hb => post_made hb)
  exact ⟨(hconfirmed s hs).1, (hconfirmed s hs).paid, hamount, hdebit s hs⟩

theorem triple_recordFee (feeQuote : FeeQuote) {P : Store → Prop}
    (hstable : ∀ s t, P s → Later s t → P t) :
    Triple (onchain cfg).machine (onchainDiscipline cfg) i P (recordFee row feeQuote)
      (fun _ s => P s) fun _ _ => True := by
  unfold recordFee
  refine Triple.bind (triple_loose (triple_any (fun _ => rfl) hstable fun _ => trivial))
    fun found => ?_
  cases found with
  | none => exact triple_loose (triple_any (fun _ => rfl) hstable fun _ => trivial)
  | some id =>
      exact Triple.bind (triple_loose (triple_any (fun _ => rfl) hstable fun _ => trivial))
        fun _ => Triple.pure fun _ h => h

theorem triple_finalizeFee {hash revenueOrgId : String} {feeQuote : FeeQuote}
    (hfee : feeQuote.feeAmount = cfg.fee) {P : Store → Prop}
    (hstable : ∀ s t, P s → Later s t → P t) (hconfirmed : ∀ s, P s → s.Confirmed row hash) :
    Triple (onchain cfg).machine (onchainDiscipline cfg) i P
      (finalizeFee row feeQuote revenueOrgId) (fun _ s => P s) fun _ _ => True := by
  unfold finalizeFee
  have hdebit : feeQuote.feeAmount = row.settledAmount cfg.fee .feeFinalize := by
    simpa using hfee
  have hcredit : feeQuote.feeAmount = row.settledAmount cfg.fee .feeRevenue := by
    simpa using hfee
  refine Triple.ite (fun _ => ?_) fun _ => Triple.pure fun _ h => h
  refine Triple.bind (triple_settle cfg row .feeFinalize hstable hconfirmed hdebit
    fun _ _ _ h => by cases h) fun debit => ?_
  refine Triple.bind (triple_settle cfg row .feeRevenue
    (fun s t hs hl => ⟨hstable s t hs.1 hl, hs.2.later hl⟩) (fun s hs => hconfirmed s hs.1) hcredit
    fun s hs debit' h => ?_) fun _ => ?_
  · obtain rfl := Option.some.inj h
    exact ⟨_, hs.2⟩
  · refine Triple.bind ((triple_recordFee feeQuote hstable).mono (fun _ h => h.1.1)
      (fun _ _ h => h) fun _ _ h => h) fun _ => Triple.pure fun _ h => h

/-- A transfer that is finalised is done. -/
theorem triple_finalizeConfirmed {hash : String} {feeQuote : FeeQuote} {settlementId : ℕ}
    (hfee : feeQuote.feeAmount = cfg.fee) (hid : settlementId = row.id + 3) :
    Triple (onchain cfg).machine (onchainDiscipline cfg) i (fun s => s.Confirmed row hash)
      (finalizeConfirmed row hash feeQuote settlementId) (fun r s => Genuine cfg r s)
      fun _ _ => True := by
  unfold finalizeConfirmed
  refine Triple.bind (triple_loose (triple_any (fun _ => rfl) (fun _ _ h hl => h.later hl)
    fun _ => trivial)) fun revenueOrgId => ?_
  refine Triple.bind (triple_settle cfg row .finalize (fun _ _ h hl => h.later hl)
    (fun _ h => h) rfl fun _ _ _ h => by cases h) fun debit => ?_
  refine Triple.bind (triple_settle cfg row .credit
    (fun s t hs hl => ⟨hs.1.later hl, hs.2.later hl⟩) (fun s hs => hs.1) rfl
    fun s hs debit' h => ?_) fun credit => ?_
  · obtain rfl := Option.some.inj h
    exact ⟨_, hs.2⟩
  have hstable : ∀ s t : Store, (s.Confirmed row hash ∧ s.Made row .finalize debit.movement.id) ∧
      s.Made row .credit credit.movement.id → Later s t →
      (t.Confirmed row hash ∧ t.Made row .finalize debit.movement.id) ∧
        t.Made row .credit credit.movement.id :=
    fun s t hs hl => ⟨⟨hs.1.1.later hl, hs.1.2.later hl⟩, hs.2.later hl⟩
  refine Triple.bind (triple_finalizeFee hfee hstable fun s hs => hs.1.1) fun feeId => ?_
  refine Triple.bind ((triple_sql (Q := fun _ _ => True) (fun _ => rfl) hstable
    (fun s hs _ => by exact ⟨row.id, hid, hs.1.1.2.1⟩) fun _ _ _ _ _ _ => trivial).mono
    (fun _ h => h) (fun _ _ h => h.1) fun _ _ _ => trivial) fun _ => ?_
  refine Triple.bind (triple_loose (triple_any (fun _ => rfl) hstable fun _ => trivial))
    fun _ => ?_
  refine (triple_sql (Q := fun r s => Genuine cfg r s) (fun _ => rfl) hstable
    (fun s hs _ => by exact ⟨row, hs.1.1.1, rfl, hs.1.2, hs.2⟩) fun s o r hs hinv hr => ?_).mono
    (fun _ h => h) (fun _ _ h => h.2) fun _ _ _ => trivial
  have hkeep := run_keeps hinv (.complete row.id debit.movement.id credit.movement.id feeId) o
    ⟨row, hs.1.1.1, rfl, hs.1.2, hs.2⟩
  refine hkeep.1.genuine ?_
  revert hr
  unfold OnchainSql.run
  dsimp only
  cases hfind : s.transfers.find? (·.id = row.id) with
  | none => intro hr; cases hr
  | some r' =>
      intro hr
      obtain rfl := Except.ok.inj hr
      have hid' : r'.id = row.id := by simpa using List.find?_some hfind
      exact List.mem_map.mpr ⟨r', List.mem_of_find?_eq_some hfind, if_pos hid'⟩

/-- The hashes that a settlement names are of payments of its transfer. -/
def Store.Traced (s : Store) (id : ℕ) (x : SettlementRow) : Prop :=
  x.id = id + 3 ∧ ∀ hash, x.externalReference = some hash ∨ x.pendingTransactionHash = some hash →
    (id, hash) ∈ s.attempts

theorem Store.Traced.later {s t : Store} {id : ℕ} {x : SettlementRow} (h : s.Traced id x)
    (hl : Later s t) : t.Traced id x :=
  ⟨h.1, fun hash hx => hl.attempts _ (h.2 hash hx)⟩

theorem triple_findSettlement (id : ℕ) {P : Store → Prop}
    (hstable : ∀ s t, P s → Later s t → P t) :
    Triple (onchain cfg).machine (onchainDiscipline cfg) i P (sql (.findSettlement id))
      (fun found s => P s ∧ ∀ x, found = some x → s.Traced id x) fun _ _ => True := by
  refine triple_loose (triple_sql (fun _ => rfl) hstable (fun _ _ _ => by trivial)
    fun s o found _ hinv hfound x hx => ?_)
  obtain rfl := Except.ok.inj hfound
  have htransfer : x.transferId = id := by simpa using List.find?_some hx
  exact htransfer ▸ hinv.payments x (List.mem_of_find?_eq_some hx)

/-- A transfer that is loaded. -/
theorem triple_loadTransfer (id : ℕ) {P : Store → Prop} (hstable : ∀ s t, P s → Later s t → P t) :
    Triple (onchain cfg).machine (onchainDiscipline cfg) i P (sql (.loadTransfer id))
      (fun r s => P s ∧ r.id = id ∧ Genuine cfg r s) fun _ _ => True := by
  refine triple_loose (triple_sql (fun _ => rfl) hstable (fun _ _ _ => by trivial)
    fun s o r _ hinv hr => ?_)
  revert hr
  unfold OnchainSql.run
  dsimp only
  cases hfind : s.transfers.find? (·.id = id) with
  | none => intro h; cases h
  | some r' =>
      intro h
      obtain rfl := Except.ok.inj h
      exact ⟨by simpa using List.find?_some hfind,
        hinv.genuine (List.mem_of_find?_eq_some hfind)⟩

theorem triple_verifyPayment (hash : String) {P : Store → Prop}
    (hstable : ∀ s t, P s → Later s t → P t) :
    Triple (onchain cfg).machine (onchainDiscipline cfg) i P (sql (.verifyPayment hash))
      (fun v s => P s ∧ (v = .confirmed → hash ∈ s.confirmed)) fun _ _ => True := by
  refine triple_loose (triple_sql (fun _ => rfl) hstable (fun _ _ _ => by trivial)
    fun s o v _ _ hv hconfirmed => ?_)
  revert hv
  unfold OnchainSql.run
  dsimp only
  intro hv
  obtain rfl := Except.ok.inj hv
  rw [if_pos hconfirmed]
  exact List.mem_cons_self

theorem triple_confirmOnchainInternalTransfer (row : OnchainTransferRow) :
    Triple (onchain cfg).machine (onchainDiscipline cfg) i (fun s => Genuine cfg row s)
      (confirmOnchainInternalTransfer row) (fun r s => Genuine cfg r s) fun _ _ => True := by
  unfold confirmOnchainInternalTransfer
  refine Triple.ite (fun _ => Triple.pure fun _ h => h) fun _ => ?_
  refine Triple.bind (triple_findSettlement row.id fun _ _ h hl => h.later hl) fun found => ?_
  cases found with
  | none => exact Triple.throw fun _ _ => trivial
  | some settlement =>
      dsimp only
      cases hhash : orNull settlement.externalReference with
      | none => exact Triple.throw fun _ _ => trivial
      | some hash =>
          have hext : settlement.externalReference = some hash :=
            (Option.filter_eq_some_iff.mp hhash).1
          refine Triple.bind ((triple_verifyPayment hash
            (P := fun s => Genuine cfg row s ∧ s.Traced row.id settlement)
            fun s t hs hl => ⟨hs.1.later hl, hs.2.later hl⟩).mono
            (fun s hs => ⟨hs.1, hs.2 settlement rfl⟩) (fun _ _ h => h) fun _ _ h => h)
            fun verified => ?_
          cases verified with
          | confirmed =>
              intro s hs
              obtain ⟨⟨hgenuine, hid, hattempt⟩, hconfirmed⟩ := hs
              apply triple_finalizeConfirmed hgenuine.fee hid
              exact ⟨hgenuine.known, hattempt hash (.inl hext), hconfirmed rfl⟩
          | failed => exact triple_failTransfer _ _ _ _
          | unknown => exact Triple.throw fun _ _ => trivial

/-- The checks before a transfer change nothing that is asked about. -/
theorem triple_checkTransfer (input : ExecuteInput) (feeQuote : FeeQuote) :
    Triple (onchain cfg).machine (onchainDiscipline cfg) i (fun _ => True)
      (checkTransfer input feeQuote) (fun _ _ => True) fun _ _ => True := by
  have hany : ∀ {β : Type} {st : OnchainSql (Ans β)}, (∀ e, st.fail e = .error e) →
      (∀ s, May cfg st s) → Safe (onchain cfg).machine (onchainDiscipline cfg) i (sql st) :=
    fun hst hmay => triple_any hst (fun _ _ _ _ => trivial) hmay
  have hcheck : ∀ {c : Prop} [Decidable c] {e : TransferErr},
      Safe (onchain cfg).machine (onchainDiscipline cfg) i (failIf c e) := triple_failIf
  have hactive : ∀ orgId e, Safe (onchain cfg).machine (onchainDiscipline cfg) i
      (walletActive orgId input.environment e) := fun orgId e =>
    Safe.bind (hany (fun _ => rfl) fun _ => by trivial) fun _ => hcheck
  have hwallets : Safe (onchain cfg).machine (onchainDiscipline cfg) i (wallets input) := by
    unfold wallets
    refine Safe.bind (hany (fun _ => rfl) fun _ => by trivial) fun alice => ?_
    refine Safe.bind (hany (fun _ => rfl) fun _ => by trivial) fun bob => ?_
    cases alice with
    | none => exact Safe.throw _
    | some alice =>
        cases bob with
        | none => exact Safe.throw _
        | some bob =>
            exact hcheck.bind fun _ => hcheck.bind fun _ => hcheck.bind fun _ =>
              hcheck.bind fun _ => Safe.pure _
  unfold checkTransfer
  refine (hactive _ _).bind fun _ => (hactive _ _).bind fun _ => hwallets.bind fun w => ?_
  refine (hany (fun _ => rfl) fun _ => by trivial).bind fun _ => hcheck.bind fun _ => ?_
  refine (hany (fun _ => rfl) fun _ => by trivial).bind fun _ => ?_
  refine (hany (fun _ => rfl) fun _ => by trivial).bind fun _ => ?_
  refine (hany (fun _ => rfl) fun _ => by trivial).bind fun _ => ?_
  refine (hany (fun _ => rfl) fun _ => by trivial).bind fun _ => ?_
  refine (hany (fun _ => rfl) fun _ => by trivial).bind fun _ => ?_
  refine (hany (fun _ => rfl) fun _ => by trivial).bind fun _ => ?_
  exact hcheck.bind fun _ => hcheck.bind fun _ => Safe.pure _

/-- The row of a transfer is genuine, whether it is new or was found under the key. -/
theorem triple_openTransfer (input : ExecuteInput) {feeQuote : FeeQuote}
    (hfee : feeQuote.feeAmount = cfg.fee) (source destination : String) :
    Triple (onchain cfg).machine (onchainDiscipline cfg) i (fun _ => True)
      (openTransfer input feeQuote source destination) (fun r s => Genuine cfg r s)
      fun _ _ => True := by
  unfold openTransfer
  refine Triple.bind (triple_sql (Q := fun found s => ∀ r, found = some r → Genuine cfg r s)
    (fun _ => rfl) (fun _ _ _ _ => trivial) (fun s _ _ => by exact ⟨hfee, nofun⟩)
    fun s o found _ hinv hfound r hr => ?_) fun found => ?_
  · obtain ⟨hinv', -⟩ := run_keeps hinv (.insertTransfer ⟨0, input.senderOrgId,
      input.recipientOrgId, input.environment, input.amount, .processing, 0, 0, none, none,
      input.idempotencyKey, input.fingerprint, feeQuote, none⟩ source destination) o
      ⟨hfee, nofun⟩
    refine hinv'.genuine ?_
    subst hr
    revert hfound
    unfold OnchainSql.run Store.insertTransfer
    dsimp only
    split_ifs
    · intro h; cases h
    · intro h; cases h
    · intro h
      obtain rfl := Option.some.inj (Except.ok.inj h)
      exact List.mem_cons_self
  cases found with
  | some row => exact Triple.pure fun _ hs => hs.2 row rfl
  | none =>
      dsimp only
      cases orNull input.idempotencyKey with
      | none => exact Triple.throw fun _ _ => trivial
      | some key =>
          refine Triple.bind ((triple_sql (P := fun _ => True)
            (Q := fun found s => ∀ r, found = some r → Genuine cfg r s) (fun _ => rfl)
            (fun _ _ _ _ => trivial) (fun _ _ _ => by trivial)
            fun s o found _ hinv hfound r hr => ?_).mono (fun _ _ => trivial) (fun _ _ h => h)
            fun _ _ h => h) fun found => ?_
          · obtain rfl := Except.ok.inj hfound
            exact hinv.genuine (List.mem_of_find?_eq_some hr)
          cases found with
          | some existing => exact Triple.pure fun _ hs => hs.2 existing rfl
          | none => exact Triple.throw fun _ _ => trivial

theorem triple_lockFunds (input : ExecuteInput) (feeQuote : FeeQuote) {P : Store → Prop}
    (hstable : ∀ s t, P s → Later s t → P t) :
    Triple (onchain cfg).machine (onchainDiscipline cfg) i P (lockFunds input feeQuote row)
      (fun _ s => P s) fun _ _ => True := by
  unfold lockFunds
  refine Triple.bind (triple_loose (triple_any (fun _ => rfl) hstable fun _ h => h.elim))
    fun _ => Triple.ite (fun _ => ?_) fun _ => Triple.pure fun _ h => h
  exact Triple.bind (triple_loose (triple_any (fun _ => rfl) hstable fun _ h => h.elim))
    fun _ => Triple.pure fun _ h => h

/-- The payment that is submitted is one of the transfer. -/
theorem triple_preparedPayment (input : ExecuteInput) (settlement : SettlementRow)
    (alice bob source feePayer : String) :
    Triple (onchain cfg).machine (onchainDiscipline cfg) i
      (fun s => Genuine cfg row s ∧ s.Traced row.id settlement)
      (preparedPayment input row settlement alice bob source feePayer)
      (fun p s => Genuine cfg row s ∧ (row.id, p.transactionHash) ∈ s.attempts)
      fun _ _ => True := by
  unfold preparedPayment
  dsimp only
  refine Triple.ite (fun hpending => Triple.pure fun s hs => ⟨hs.1, ?_⟩) fun _ => ?_
  · -- The pending hash is the settlement's reference, or the one that its metadata names.
    obtain ⟨-, hhash⟩ := hpending
    apply hs.2.2
    unfold orDefault at hhash ⊢
    cases hext : orNull settlement.externalReference with
    | some hash => exact .inl (Option.filter_eq_some_iff.mp hext).1
    | none =>
        rw [hext] at hhash
        cases hpend : orNull settlement.pendingTransactionHash with
        | some hash => exact .inr (Option.filter_eq_some_iff.mp hpend).1
        | none =>
            rw [hpend] at hhash
            exact absurd rfl hhash
  · have hstable : ∀ s t : Store, Genuine cfg row s ∧ s.Traced row.id settlement → Later s t →
        Genuine cfg row t ∧ t.Traced row.id settlement :=
      fun s t hs hl => ⟨hs.1.later hl, hs.2.later hl⟩
    refine Triple.bind (triple_loose (triple_sql
      (Q := fun p s => (row.id, p.transactionHash) ∈ s.attempts) (fun _ => rfl) hstable
      (fun _ _ _ => by trivial) fun s o p _ _ hp => ?_)) fun prepared => ?_
    · obtain rfl := Except.ok.inj hp
      exact List.mem_cons_self
    · refine Triple.bind (triple_loose (triple_sql (Q := fun _ _ => True) (fun _ => rfl)
        (fun s t hs hl => ⟨hstable s t hs.1 hl, hl.attempts _ hs.2⟩)
        (fun s hs _ => by exact ⟨row.id, hs.1.2.1, hs.2⟩) fun _ _ _ _ _ _ => trivial))
        fun _ => Triple.pure fun s hs => ⟨hs.1.1.1, hs.1.2⟩

/-- What was paid. -/
theorem triple_submitPayment (p : PreparedSponsoredPayment) {P : Store → Prop}
    (hstable : ∀ s t, P s → Later s t → P t) :
    Triple (onchain cfg).machine (onchainDiscipline cfg) i P (sql (.submitPayment row.id p))
      (fun payment s => P s ∧ (row.id, payment.transactionHash) ∈ s.attempts ∧
        (cfg.mock = true ∨ payment.ledgerSequence.isSome → payment.transactionHash ∈ s.confirmed))
      fun _ s => P s := by
  refine triple_sql (fun _ => rfl) hstable (fun _ _ _ => by trivial)
    fun s o payment _ _ hpayment => ?_
  have hmock : ∀ {payment : Payment}, submitPreparedSponsoredPayment cfg o p = .ok payment →
      cfg.mock = true → payment.ledgerSequence.isSome := by
    intro payment h hmock
    unfold submitPreparedSponsoredPayment at h
    split_ifs at h
    obtain rfl := Except.ok.inj h
    rfl
  revert hpayment
  unfold OnchainSql.run
  dsimp only
  cases hsubmit : submitPreparedSponsoredPayment cfg o p with
  | error e => intro h; cases h
  | ok payment' =>
      intro h
      obtain rfl := Except.ok.inj h
      dsimp only
      unfold Store.paid
      split_ifs with hseq
      · exact ⟨List.mem_cons_self, fun _ => List.mem_cons_self⟩
      · refine ⟨List.mem_cons_self, fun h => absurd (h.elim (hmock hsubmit) id) hseq⟩

/-- A transfer whose payment is submitted is finalised only where it was confirmed. -/
theorem triple_submitAndConfirm (feeQuote : FeeQuote) (hfee : feeQuote.feeAmount = cfg.fee)
    {settlementId : ℕ} (hid : settlementId = row.id + 3) (prepared : PreparedSponsoredPayment) :
    Triple (onchain cfg).machine (onchainDiscipline cfg) i (fun s => Genuine cfg row s)
      (submitAndConfirm cfg row feeQuote settlementId prepared) (fun r s => Genuine cfg r s)
      fun _ _ => True := by
  unfold submitAndConfirm
  refine Triple.bind (Triple.tryCatch (triple_submitPayment prepared fun _ _ h hl => h.later hl)
    fun e => triple_failTransfer _ _ _ _) fun payment => ?_
  have hstable : ∀ s t : Store, (Genuine cfg row s ∧
      (row.id, payment.transactionHash) ∈ s.attempts ∧
        (cfg.mock = true ∨ payment.ledgerSequence.isSome →
          payment.transactionHash ∈ s.confirmed)) → Later s t →
      Genuine cfg row t ∧ (row.id, payment.transactionHash) ∈ t.attempts ∧
        (cfg.mock = true ∨ payment.ledgerSequence.isSome →
          payment.transactionHash ∈ t.confirmed) :=
    fun s t hs hl => ⟨hs.1.later hl, hl.attempts _ hs.2.1, fun h => hl.confirmed _ (hs.2.2 h)⟩
  refine Triple.bind ((triple_sql (Q := fun _ _ => True) (fun _ => rfl) hstable
    (fun s hs _ => by exact ⟨row.id, hid, hs.2.1⟩) fun _ _ _ _ _ _ => trivial).mono
    (fun _ h => h) (fun _ _ h => h.1) fun _ _ _ => trivial) fun _ => ?_
  refine Triple.bind (triple_loose (triple_any (fun _ => rfl) hstable fun _ => by exact nofun))
    fun _ => ?_
  refine Triple.bind (triple_loadTransfer row.id hstable) fun refreshed => ?_
  refine Triple.ite (fun _ => triple_failTransfer _ _ _ _) fun _ => ?_
  refine Triple.bind (triple_verifyPayment payment.transactionHash fun s t hs hl =>
    ⟨hstable s t hs.1 hl, hs.2.1, hs.2.2.later hl⟩) fun verified => ?_
  refine Triple.ite (fun hpaid => ?_) fun _ => Triple.ite
    (fun _ => triple_failTransfer _ _ _ _) fun _ => Triple.pure fun s hs => hs.1.2.2
  intro s hs
  obtain ⟨⟨⟨-, hattempt, hseq⟩, hsame, hgenuine⟩, hverified⟩ := hs
  apply triple_finalizeConfirmed hfee (hid.trans (by rw [hsame]))
  refine ⟨hgenuine.known, hsame ▸ hattempt, ?_⟩
  rcases hpaid with hmock | hledger | hconfirmed
  · exact hseq (.inl hmock)
  · exact hseq (.inr hledger)
  · exact hverified hconfirmed

theorem triple_executeOnchainInternalTransfer (input : ExecuteInput) :
    Triple (onchain cfg).machine (onchainDiscipline cfg) i (fun _ => True)
      (executeOnchainInternalTransfer cfg input) (fun r s => Genuine cfg r s) fun _ _ => True := by
  unfold executeOnchainInternalTransfer
  dsimp only
  have hfee : (quoteDayfiTransactionFee cfg.fees input.amount true).feeAmount = cfg.fee := by
    unfold quoteDayfiTransactionFee Config.fee
    dsimp only
    rw [if_pos rfl]
  generalize quoteDayfiTransactionFee cfg.fees input.amount true = feeQuote at hfee ⊢
  refine Triple.bind (triple_checkTransfer input feeQuote) fun keys => ?_
  obtain ⟨alice, bob, source, feePayer⟩ := keys
  refine Triple.bind (triple_openTransfer input hfee alice bob) fun row => ?_
  refine Triple.ite (fun _ => Triple.pure fun _ h => h) fun _ => ?_
  refine Triple.bind (triple_findSettlement row.id fun _ _ h hl => h.later hl) fun found => ?_
  cases found with
  | none => exact Triple.throw fun _ _ => trivial
  | some settlement =>
      have hstable : ∀ s t : Store, Genuine cfg row s ∧ s.Traced row.id settlement → Later s t →
          Genuine cfg row t ∧ t.Traced row.id settlement :=
        fun s t hs hl => ⟨hs.1.later hl, hs.2.later hl⟩
      refine Triple.bind (R := fun _ s => Genuine cfg row s ∧ s.Traced row.id settlement)
        (Triple.ite (fun _ => Triple.throw fun _ _ => trivial) fun _ => Triple.pure fun s hs =>
          ⟨hs.1, hs.2 settlement rfl⟩) fun _ => ?_
      refine Triple.bind (triple_lockFunds input feeQuote hstable) fun _ => ?_
      refine Triple.ite (fun _ => triple_failTransfer _ _ _ _) fun _ => ?_
      have hlook : Triple (onchain cfg).machine (onchainDiscipline cfg) i
          (fun s => Genuine cfg row s ∧ s.Traced row.id settlement) (alreadyConfirmed settlement)
          (fun _ s => Genuine cfg row s ∧ s.Traced row.id settlement) fun _ _ => True := by
        unfold alreadyConfirmed
        cases orNull settlement.externalReference with
        | none => exact Triple.pure fun _ h => h
        | some hash =>
            refine Triple.ite (fun _ => Triple.pure fun _ h => h) fun _ => ?_
            exact Triple.bind (triple_loose (triple_any (fun _ => rfl) hstable fun _ => by trivial))
              fun _ => Triple.pure fun _ h => h
      refine Triple.bind hlook fun confirmed => Triple.ite (fun _ => ?_) fun _ => ?_
      · exact (triple_confirmOnchainInternalTransfer row).mono (fun _ h => h.1) (fun _ _ h => h)
          fun _ _ h => h
      · unfold payTransfer
        intro s hs
        have hid := hs.2.1
        refine Triple.bind (triple_preparedPayment input settlement alice bob source feePayer)
          (fun prepared => ?_) s hs
        refine Triple.ite (fun _ => triple_failTransfer _ _ _ _) fun _ => ?_
        exact (triple_submitAndConfirm feeQuote hfee hid prepared).mono (fun _ h => h.1)
          (fun _ _ h => h) fun _ _ h => h

end calls

/-! ### Every run -/

section runs

variable {cfg : Config}

/-- The movements of a step that is a credit are backed, each by its own debit. -/
theorem OnchainInv.total {s : Store} (hinv : OnchainInv cfg s) {step debit : TransferStep}
    (hstep : step.debit = some debit) : s.sum step ≤ s.sum debit := by
  have hof : ∀ {step : TransferStep} {m : Movement}, m ∈ s.movementsOf step →
      m ∈ s.ledger.movements ∧ ∃ r ∈ s.transfers,
        m.idempotencyKey = step.key (r.transactionOf step) := by
    intro step m hm
    obtain ⟨hmem, hany⟩ := List.mem_filter.mp hm
    obtain ⟨r, hr, hkey⟩ := List.any_eq_true.mp hany
    exact ⟨hmem, r, hr, of_decide_eq_true hkey⟩
  have hsorted : (s.movementsOf step).Pairwise fun m n => m.idempotencyKey ≠ n.idempotencyKey :=
    hinv.keys.sublist List.filter_sublist
  refine Matched.sum_le_of_backed (R := fun m d => ∃ r ∈ s.transfers,
    m.idempotencyKey = step.key (r.transactionOf step) ∧
      d.idempotencyKey = debit.key (r.transactionOf debit)) ?_ (fun d hd =>
        (hinv.positive d (hof hd).1).le) fun m hm => ?_
  · -- Two credits with one debit would be of one transfer, and have one key.
    refine hsorted.imp fun hne d h h' => ?_
    obtain ⟨r, hr, hkey, hdebit⟩ := h
    obtain ⟨r', hr', hkey', hdebit'⟩ := h'
    obtain ⟨-, hsame⟩ := TransferStep.key_inj.mp (hdebit.symm.trans hdebit')
    obtain rfl := hinv.transactionOf_inj hr hr' hsame
    exact hne (hkey.trans hkey'.symm)
  · obtain ⟨hmem, r, hr, hkey⟩ := hof hm
    obtain ⟨d, hd, hdkey, hamount⟩ := hinv.amount_of_debit hstep hmem hr hkey
    refine ⟨d, List.mem_filter.mpr ⟨hd, List.any_eq_true.mpr ⟨r, hr, ?_⟩⟩, ⟨r, hr, hkey, hdkey⟩,
      hamount.ge⟩
    exact decide_eq_true hdkey

/-- **What the invariant says**: what is credited is backed. -/
theorem OnchainInv.backed {s : Store} (hinv : OnchainInv cfg s) : Backed cfg s where
  once := hinv.keys
  apart := by
    refine (List.pairwise_map.mp hinv.distinct).imp_of_mem fun {r r'} hr hr' hne step h => ?_
    exact hne (congrArg OnchainTransferRow.id (hinv.transactionOf_inj hr hr' h))
  settled := hinv.settled
  debited _ _ hstep m hm _ hr hkey := hinv.amount_of_debit hstep hm hr hkey
  completed := hinv.completed
  total _ _ hstep := hinv.total hstep

/-- What a request comes to. -/
def Ends (cfg : Config) (_i : ℕ) (outcome : Outcome) (s : Store) : Prop :=
  ∀ r, outcome = .transfer (.ok r) → Genuine cfg r s

theorem verified_request (i : ℕ) (r : Request) (s : Store) :
    wp (onchain cfg).machine (onchainDiscipline cfg) i (r.program cfg) (Ends cfg i) s := by
  have hends : ∀ {p : OnchainCall OnchainTransferRow}, Triple (onchain cfg).machine
      (onchainDiscipline cfg) i (fun _ => True) p (fun r s => Genuine cfg r s) (fun _ _ => True) →
      wp (onchain cfg).machine (onchainDiscipline cfg) i
        (p.run >>= fun r => pure (.transfer r)) (Ends cfg i) s := by
    intro p hp
    refine (wp_bind _ _ _ _).mpr (wp_mono (fun result t ht => ?_) _ _ (hp s trivial))
    refine (wp_ret _ _ _ _ _ _).mpr fun r hr => ?_
    obtain rfl := Outcome.transfer.inj hr
    exact ht
  cases r with
  | execute input => exact hends (triple_executeOnchainInternalTransfer input)
  | confirm transferId =>
      refine hends (Triple.bind (triple_loadTransfer transferId fun _ _ _ _ => trivial)
        fun row => ?_)
      exact (triple_confirmOnchainInternalTransfer row).mono (fun _ h => h.2.2) (fun _ _ h => h)
        fun _ _ h => h
  | other p =>
      have hpost : Safe (onchain cfg).machine (onchainDiscipline cfg) i
          (sql (.otherPost p.op p.params)) :=
        triple_any (fun _ => rfl) (fun _ _ _ _ => trivial) fun _ => p.key_ne
      refine (wp_bind _ _ _ _).mpr (wp_mono (fun _ _ _ => ?_) _ _ (hpost s trivial))
      exact (wp_ret _ _ _ _ _ _).mpr fun _ h => by cases h

/-- Before anything has run, there is nothing. -/
theorem OnchainInv.start (cfg : Config) (wallets : WalletKey → Option WalletAccount) :
    OnchainInv cfg { ledger := ⟨wallets, [], 0⟩ } where
  keys := List.Pairwise.nil
  positive _ hm := absurd hm List.not_mem_nil
  distinct := List.nodup_nil
  numbered _ hr := absurd hr List.not_mem_nil
  fees _ hr := absurd hr List.not_mem_nil
  settled _ _ _ hm := absurd hm List.not_mem_nil
  debited _ _ _ _ hm := absurd hm List.not_mem_nil
  completed _ hr := absurd hr List.not_mem_nil
  payments _ hx := absurd hx List.not_mem_nil

/-- The requests run under the discipline. -/
theorem verified_begun (cfg : Config) (wallets : WalletKey → Option WalletAccount)
    (requests : List Request) :
    Pool.Verified (onchain cfg).machine (onchainDiscipline cfg) (Ends cfg)
      (begun cfg wallets requests) := by
  refine Pool.Verified.start (OnchainInv.start cfg wallets) fun i p hp => ?_
  obtain ⟨r, -, rfl⟩ := Option.map_eq_some_iff.mp ((List.getElem?_map ..).symm.trans hp)
  exact verified_request i r _

end runs

end DayfiBackend.Infra.Onchain
