import DayfiBackend.Infra.LedgerConcurrent

/-!
# A wallet that is no longer active

The seven operations on one wallet check the wallet's status on the row they read first, and then
lock it; `transferAvailableBalance` reads both rows again under the lock and checks them once
more. So a status change that commits between the check and the lock of an operation on one
wallet goes unnoticed, and the money leaves a frozen wallet (`frozen_debit`). In every run in
which no debit, lock or finalization takes the row lock of a wallet that has stopped being active
(nothing is asked of the transfers), what leaves a wallet is committed on an active one
(`frozen_stays_frozen`).
-/

namespace DayfiBackend.Infra

open DayfiBackend.Found DayfiBackend.Found.Database DayfiBackend.Found.Keys
  DayfiBackend.Found.Prog

/-! ### Transfers, statement by statement -/

/-- A program of a session of the ledger. -/
abbrev LedgerCallM := ExceptT LedgerFailure (Prog LedgerStmt)

/-- Source: `infraLedgerService.ts` `ensureWalletAccount`. -/
def ensureWallet (k : WalletKey) : LedgerCallM WalletAccount := do
  match ← stmt (.read k) with
  | some wallet => return wallet
  | none => stmt (.upsert k .fresh)

/-- The movement out of the one wallet, from the row it locked and a fresh id. -/
def AvailableMove.debitEntry (mv : AvailableMove) (row : WalletAccount) (id : ℕ) : Movement :=
  { mv.outText with
    id
    wallet := mv.src
    direction := .debit
    amount := toNumeric mv.amount
    after := (mv.srcAfter row).toNumeric
    posting := mv.outPosting }

/-- The movement into the other wallet, from the row it locked and a fresh id. -/
def AvailableMove.creditEntry (mv : AvailableMove) (row : WalletAccount) (id : ℕ) : Movement :=
  { mv.inText with
    id
    wallet := mv.dst
    direction := .credit
    amount := toNumeric mv.amount
    after := (mv.dstAfter row).toNumeric
    posting := mv.inPosting }

/-- The row locks of a transfer, in the order of the wallets' ids. -/
def lockBoth (src dst : WalletKey) (srcFirst : Bool) :
    LedgerCallM (WalletAccount × WalletAccount) :=
  if srcFirst then do
    let srcRow ← stmt (.lock src)
    let dstRow ← stmt (.lock dst)
    return (srcRow, dstRow)
  else do
    let dstRow ← stmt (.lock dst)
    let srcRow ← stmt (.lock src)
    return (srcRow, dstRow)

/-- The part of a transfer that works on the locked rows. -/
def transferRows (p : TransferParams) (amount : ℚ) (senderRow recipientRow : WalletAccount) :
    LedgerCallM PostedPair :=
  let mv := p.move amount
  if senderRow.status ≠ .active then throw (.error .senderInactive)
  else if recipientRow.status ≠ .active then throw (.error .recipientInactive)
  else if senderRow.read.available < amount then
    throw (.error (.insufficientBalance senderRow.read.available amount))
  else do
    stmt (.update mv.src { senderRow with
      balance := { senderRow.balance with
        available := toNumeric (mv.srcAfter senderRow).available } })
    stmt (.update mv.dst { recipientRow with
      balance := { recipientRow.balance with
        available := toNumeric (mv.dstAfter recipientRow).available } })
    let debit ← stmt (.insert (mv.debitEntry senderRow))
    let credit ← stmt (.insert (mv.creditEntry recipientRow))
    return ⟨debit, credit, false⟩

/-- The part of a transfer that ensures and locks the wallets. -/
def transferWallets (p : TransferParams) (amount : ℚ) (senderFirst : Bool) :
    LedgerCallM PostedPair := do
  let senderWallet ← ensureWallet p.sender
  let recipientWallet ← ensureWallet p.recipient
  if senderWallet.status ≠ .active then throw (.error .senderInactive)
  else if recipientWallet.status ≠ .active then throw (.error .recipientInactive)
  else do
    let rows ← lockBoth p.sender p.recipient senderFirst
    transferRows p amount rows.1 rows.2

/-- The statements of the transaction of a transfer; `senderFirst` when the sender's wallet has
the smaller id.
Source: `infraLedgerService.ts` `transferAvailableBalance`. -/
def transferSteps (p : TransferParams) (senderFirst : Bool) : LedgerCallM PostedPair :=
  match parseAmount p.amount with
  | .error e => throw e
  | .ok amount =>
      let debitKey := trim p.debitIdempotencyKey
      let creditKey := trim p.creditIdempotencyKey
      if debitKey = "" ∨ creditKey = "" then throw (.error .idempotencyRequired)
      else if p.senderOrgId = p.recipientOrgId then throw (.error .selfTransfer)
      else do
        let debit ← stmt (.find (·.idempotencyKey = debitKey))
        let credit ← stmt (.find (·.idempotencyKey = creditKey))
        match debit, credit with
        | some debit, some credit => return ⟨debit, credit, true⟩
        | some _, none => throw (.error .transferInconsistent)
        | none, some _ => throw (.error .transferInconsistent)
        | none, none => transferWallets p amount senderFirst

/-- An update of a wallet's status. -/
def setStatusSteps (k : WalletKey) (status : WalletStatus) : LedgerCallM Unit := do
  let row ← stmt (.lock k)
  stmt (.update k { row with status })

/-! ### Runs -/

/-- What a session of the ledger's database does. -/
inductive LedgerSession where
  | post (op : LedgerOp) (p : LedgerWriteParams)
  | transfer (p : TransferParams) (senderFirst : Bool)
  | setStatus (k : WalletKey) (status : WalletStatus)
  /-- The server ends a transaction. -/
  | terminate (j : ℕ)
  deriving DecidableEq, Repr

def LedgerSession.program : LedgerSession → Prog LedgerStmt Unit
  | post op p => postProgram op.rule p >>= fun _ => pure ()
  | transfer p senderFirst => (transact (transferSteps p senderFirst)).run >>= fun _ => pure ()
  | setStatus k status => (transact (setStatusSteps k status)).run >>= fun _ => pure ()
  | terminate j => Prog.perform (.terminate j)

/-- The database of the ledger. -/
abbrev LedgerDb := Db WalletKey WalletAccount Movement

/-- The committed row of a wallet, if there is one, is active. -/
def ActiveAt (s : LedgerSnapshot) (k : WalletKey) : Prop := ∀ row ∈ s.rows k, row.status = .active

instance (s : LedgerSnapshot) (k : WalletKey) : Decidable (ActiveAt s k) := by
  unfold ActiveAt
  infer_instance

/-- What leaves a wallet leaves an active one. The wallet's row is locked from before the movement
is inserted until the commit, so its committed status is the same all that time: a transaction
that locks the row after a status change committed finds it in `before`. -/
def LeavesActive (c : Commit WalletKey WalletAccount Movement) : Prop :=
  ∀ m ∈ c.entries, m.direction = .debit → ActiveAt c.before m.wallet

instance (c : Commit WalletKey WalletAccount Movement) : Decidable (LeavesActive c) := by
  unfold LeavesActive
  infer_instance

/-- An operation that takes money out of a wallet locks it only while it is active, as it was when
the operation checked it. -/
def LocksWhileActive (sessions : List LedgerSession) {β : Type} (i : ℕ) (st : LedgerStmt β)
    (_o : Unit) (db : LedgerDb) : Prop :=
  match st with
  | .lock k =>
      match sessions[i]? with
      | some (.post op _) => op.rule.direction = .debit → ActiveAt db.committed k
      | _ => True
  | _ => True

instance (sessions : List LedgerSession) {β : Type} (i : ℕ) (st : LedgerStmt β) (o : Unit)
    (db : LedgerDb) : Decidable (LocksWhileActive sessions i st o db) := by
  unfold LocksWhileActive
  split
  · split <;> infer_instance
  · infer_instance

/-! ### The invariant -/

/-- The session holds the row of the wallet, and the committed row is active. -/
structure Covers (i : ℕ) (db : LedgerDb) (k : WalletKey) : Prop where
  lock : ∃ v, db.locks k = some (i, v)
  active : ActiveAt db.committed k

/-- The uncommitted movements of a session that leave a wallet are on active wallets it holds. -/
def Guarded (i : ℕ) (db : LedgerDb) : Prop :=
  ∀ m ∈ db.own i, m.direction = .debit → Covers i db m.wallet

/-- The discipline of the sessions. -/
def frozenDiscipline (base : LedgerSnapshot) (sessions : List LedgerSession) :
    Discipline LedgerStmt Unit LedgerDb where
  inv db := Sound ledgerSchema base db ∧ (∀ c ∈ db.wal, LeavesActive c) ∧ ∀ i, Guarded i db
  rely := Rely
  cond := LocksWhileActive sessions
  good _ _ _ _ _ _ := True
  rely_refl := Rely.refl
  rely_trans _ _ _ _ h h' := h.trans h'

section steps

variable {base : LedgerSnapshot} {i j : ℕ} {db db' : LedgerDb} {k : WalletKey}

/-- An uncommitted movement belongs to an open transaction. -/
theorem own_eq_nil (hs : Sound ledgerSchema base db) (hc : db.isOpen i = false) :
    db.own i = [] := by
  refine List.eq_nil_iff_forall_not_mem.mpr fun m hm => ?_
  have := hs.inflight_open _ (mem_own.mp hm)
  simp [hc] at this

theorem Covers.stable (h : Covers i db k) (hr : Rely i db db') (ho : db'.isOpen i = true) :
    Covers i db' k := by
  obtain ⟨v, hv⟩ := h.lock
  refine ⟨⟨v, (hr.locks ho k v).mpr hv⟩, ?_⟩
  unfold ActiveAt
  rw [hr.rows ho k v hv]
  exact h.active

theorem Guarded.stable (h : Guarded i db) (hr : Rely i db db')
    (hs : Sound ledgerSchema base db') : Guarded i db' := by
  cases ho : db'.isOpen i with
  | false =>
      intro m hm
      rw [own_eq_nil hs ho] at hm
      cases hm
  | true =>
      intro m hm hdir
      rw [hr.own ho] at hm
      exact (h m hm hdir).stable hr ho

/-- A row a session holds and that is active stays so while its transaction is open. -/
theorem Move.covers (hm : Move ledgerSchema i db db')
    (ho : db'.isOpen i = true) (h : Covers i db k) : Covers i db' k := by
  cases hm with
  | stay => exact h
  | abort j =>
      by_cases hj : i = j
      · subst hj
        simp at ho
      · exact h.stable (Move.rely (S := ledgerSchema) (.abort j) hj) ho
  | begin => exact ⟨h.lock, h.active⟩
  | hold k' v _ _ =>
      refine ⟨?_, h.active⟩
      by_cases hk : k = k'
      · subst hk
        exact ⟨v, by simp [Db.hold]⟩
      · obtain ⟨v', hv'⟩ := h.lock
        exact ⟨v', by simp [Db.hold, Function.update_of_ne hk, hv']⟩
  | insert e _ _ _ => exact ⟨h.lock, h.active⟩
  | finish _ => simp [Db.finish, Db.abort] at ho

/-- A statement keeps the invariant when a movement it inserts is guarded. -/
theorem frozen_step {sessions : List LedgerSession} {β : Type} {st : LedgerStmt β} {b : β}
    (he : exec ledgerSchema i st db = some (b, db'))
    (h : (frozenDiscipline base sessions).inv db)
    (hnew : ∀ m, st.entry? db.nextId = some m → m.direction = .debit →
      db'.isOpen i = true → Covers i db m.wallet) :
    (frozenDiscipline base sessions).inv db' ∧ ∀ j, j ≠ i → Rely j db db' := by
  obtain ⟨hs, hwal, hguard⟩ := h
  have hs' := exec_sound he hs
  have hrely : ∀ j, j ≠ i → Rely j db db' := fun j hj => exec_rely he hj
  have hmove := exec_move he
  refine ⟨⟨hs', ?_, fun j => ?_⟩, hrely⟩
  · cases hmove with
    | finish ho =>
        intro c hc
        rcases List.mem_cons.mp hc with rfl | hc
        · intro m hm hdir
          exact (hguard i m hm hdir).active
        · exact hwal c hc
    | stay => exact hwal
    | abort j => exact hwal
    | begin => exact hwal
    | hold k v ho hk => exact hwal
    | insert e ho h1 h2 => exact hwal
  · by_cases hj : j = i
    · subst hj
      cases ho : db'.isOpen j with
      | false =>
          intro m hm
          rw [own_eq_nil hs' ho] at hm
          cases hm
      | true =>
          intro m hm hdir
          rcases exec_inflight he _ (mem_own.mp hm) with hold | ⟨-, hentry⟩
          · exact Move.covers hmove ho (hguard j m (mem_own.mpr hold) hdir)
          · exact Move.covers hmove ho (hnew m hentry hdir ho)
    · exact (hguard j).stable (hrely j hj) hs'

end steps

/-! ### What a session holds -/

/-- The rows the session holds while its transaction is open, with their status, which is also
their committed one. -/
def Holding (i : ℕ) (held : WalletKey → Option WalletStatus) (db : LedgerDb) : Prop :=
  db.isOpen i = true → ∀ k,
    (held k = none → ∀ v, db.locks k ≠ some (i, v)) ∧
    ∀ status ∈ held k, (∃ row, db.locks k = some (i, some row) ∧ row.status = status) ∧
      ∀ row ∈ db.committed.rows k, row.status = status

section holding

variable {i : ℕ} {held : WalletKey → Option WalletStatus} {db db' : LedgerDb} {k : WalletKey}
  {row : WalletAccount}

theorem Holding.stable (h : Holding i held db) (hr : Rely i db db') : Holding i held db' := by
  intro ho k
  obtain ⟨hnone, hsome⟩ := h (hr.isOpen ho) k
  refine ⟨fun hk v hv => hnone hk v ((hr.locks ho k v).mp hv), fun status hk => ?_⟩
  obtain ⟨⟨row, hrow, hstatus⟩, hcommitted⟩ := hsome status hk
  refine ⟨⟨row, (hr.locks ho k _).mpr hrow, hstatus⟩, ?_⟩
  rw [hr.rows ho k _ hrow]
  exact hcommitted

/-- The version of a row the session sees, when nobody else holds it, has the committed status;
where the session holds nothing it is the committed row. -/
theorem Holding.visible (h : Holding i held db) (ho : db.isOpen i = true)
    (hother : db.heldByOther i k = false) :
    (held k = none → db.visible i k = db.committed.rows k) ∧
      ∀ status ∈ held k, ∃ row, db.visible i k = some row ∧ row.status = status := by
  obtain ⟨hnone, hsome⟩ := h ho k
  refine ⟨fun hk => ?_, fun status hk => ?_⟩
  · unfold Db.visible
    cases hl : db.locks k with
    | none => rfl
    | some x =>
        have hx : x.1 = i := heldByOther_eq_false.mp hother x.1 x.2 hl
        exact absurd (by rw [hl, ← hx]) (hnone hk x.2)
  · obtain ⟨⟨row, hrow, hstatus⟩, -⟩ := hsome status hk
    exact ⟨row, by simp [Db.visible, hrow], hstatus⟩

/-- Taking or rewriting a row of the committed status. -/
theorem Holding.hold (h : Holding i held db)
    (hcommitted : ∀ r ∈ db.committed.rows k, r.status = row.status) :
    Holding i (Function.update held k (some row.status)) (db.hold i k (some row)) := by
  intro ho k'
  by_cases hk : k' = k
  · subst hk
    rw [Function.update_self]
    refine ⟨fun hn => (by cases hn), fun status hstatus => ?_⟩
    have hst : row.status = status := Option.some.inj hstatus
    subst hst
    exact ⟨⟨row, by simp [Db.hold], rfl⟩, hcommitted⟩
  · rw [Function.update_of_ne hk]
    obtain ⟨hnone, hsome⟩ := h ho k'
    have hlocks : (db.hold i k (some row)).locks k' = db.locks k' := by
      simp [Db.hold, Function.update_of_ne hk]
    rw [hlocks]
    exact ⟨hnone, hsome⟩

/-- The committed status of the row a session sees. -/
theorem Holding.committed (h : Holding i held db) (ho : db.isOpen i = true)
    (hother : db.heldByOther i k = false) (hrow : db.visible i k = some row) :
    ∀ r ∈ db.committed.rows k, r.status = row.status := by
  obtain ⟨hnone, hsome⟩ := h.visible ho hother
  cases hk : held k with
  | none =>
      intro r hr
      rw [hnone hk] at hrow
      rw [Option.some.inj ((Option.mem_def.mp hr).symm.trans hrow)]
  | some status =>
      obtain ⟨row', hrow', hstatus⟩ := hsome status hk
      intro r hr
      rw [hrow] at hrow'
      rw [Option.some.inj hrow', hstatus]
      exact ((h ho k).2 status hk).2 r hr

end holding

/-! ### Rules -/

section rules

variable {base : LedgerSnapshot} {sessions : List LedgerSession} {i : ℕ} {β : Type}
  {held : WalletKey → Option WalletStatus} {k : WalletKey}

/-- A part of a session's program, which may fail anywhere. -/
abbrev Keeps (base : LedgerSnapshot) (sessions : List LedgerSession) (i : ℕ) (P : LedgerDb → Prop)
    (p : LedgerCallM β) (Q : β → LedgerDb → Prop) : Prop :=
  Triple (machine ledgerSchema) (frozenDiscipline base sessions) i P p Q fun _ _ => True

theorem keeps_stmt {st : LedgerStmt (Except LedgerFailure β)} {Q : β → LedgerDb → Prop}
    (h : ∀ db, Holding i held db → LocksWhileActive sessions i st () db → ∀ b db',
      exec ledgerSchema i st db = some (b, db') →
      (∀ m, st.entry? db.nextId = some m → m.direction = .debit → db'.isOpen i = true →
        Covers i db m.wallet) ∧ ∀ a, b = .ok a → Q a db') :
    Keeps base sessions i (Holding i held) (stmt st) Q := by
  refine Triple.perform (fun s t hs hr => hs.stable hr) fun db hdb hinv o hcond b db' he => ?_
  have hcond' : LocksWhileActive sessions i st () db := hcond
  have he' : exec ledgerSchema i st db = some (b, db') := he
  obtain ⟨hnew, hQ⟩ := h db hdb hcond' b db' he'
  obtain ⟨hinv', hrely⟩ := frozen_step he' hinv hnew
  refine ⟨trivial, hinv', hrely, ?_⟩
  cases b with
  | ok a => exact hQ a rfl
  | error e => trivial

/-- A statement that inserts nothing, whatever it answers. -/
theorem keeps_any {γ : Type} {st : LedgerStmt γ} (hst : ∀ id, st.entry? id = none)
    (s : LedgerDb) : wp (machine ledgerSchema) (frozenDiscipline base sessions) i
      (Prog.perform st) (fun _ _ => True) s := by
  refine (wp_perform _ _ _ _ _ _).mpr fun db _ hinv _ _ b db' he => ?_
  have he' : exec ledgerSchema i st db = some (b, db') := he
  obtain ⟨hinv', hrely⟩ := frozen_step he' hinv fun m hm => by simp [hst] at hm
  exact ⟨trivial, hinv', hrely, trivial⟩

theorem keeps_find (q : Movement → Bool) :
    Keeps base sessions i (Holding i held) (stmt (.find q)) fun _ => Holding i held := by
  refine keeps_stmt fun db h _ b db' he => ⟨fun m hm => (by cases hm), fun a ha => ?_⟩
  subst ha
  simp only [exec] at he
  split_ifs at he
  · cases he
    exact h
  · cases he

theorem keeps_read :
    Keeps base sessions i (Holding i held) (stmt (.read k)) fun _ => Holding i held := by
  refine keeps_stmt fun db h _ b db' he => ⟨fun m hm => (by cases hm), fun a ha => ?_⟩
  subst ha
  simp only [exec] at he
  split_ifs at he
  · cases he
    exact h
  · cases he

theorem keeps_upsert : Keeps base sessions i (Holding i held) (stmt (.upsert k .fresh))
    fun row => Holding i (Function.update held k (some row.status)) := by
  refine keeps_stmt fun db h _ b db' he => ⟨fun m hm => (by cases hm), fun a ha => ?_⟩
  subst ha
  simp only [exec] at he
  split_ifs at he with ho hother
  · have hfree : db.heldByOther i k = false := by simpa using hother
    cases hv : db.visible i k with
    | some row =>
        rw [hv] at he
        cases he
        exact h.hold (h.committed ho hfree hv)
    | none =>
        rw [hv] at he
        dsimp only at he
        split at he
        · cases he
        · cases he
          obtain ⟨hnone, hsome⟩ := h.visible ho hfree
          refine h.hold fun r hr => ?_
          cases hk : held k with
          | none =>
              rw [← hnone hk, hv] at hr
              cases hr
          | some status =>
              obtain ⟨row, hrow, -⟩ := hsome status hk
              rw [hv] at hrow
              cases hrow
  · cases he

/-- A row lock tells the committed status. -/
theorem keeps_lock : Keeps base sessions i (Holding i held) (stmt (.lock k))
    fun row => Holding i (Function.update held k (some row.status)) := by
  refine keeps_stmt fun db h _ b db' he => ⟨fun m hm => (by cases hm), fun a ha => ?_⟩
  subst ha
  simp only [exec] at he
  split_ifs at he with ho hother
  · have hfree : db.heldByOther i k = false := by simpa using hother
    cases hv : db.visible i k with
    | some row =>
        rw [hv] at he
        cases he
        exact h.hold (h.committed ho hfree hv)
    | none =>
        rw [hv] at he
        cases he
  · cases he

/-- The row lock of an operation that takes money out is taken while the wallet is active. -/
theorem keeps_lock_active {op : LedgerOp} {p : LedgerWriteParams}
    (hsession : sessions[i]? = some (.post op p))
    (hk : ∀ status ∈ held k, status = WalletStatus.active) :
    Keeps base sessions i (Holding i held) (stmt (.lock k))
      fun row db => (op.rule.direction = .debit → row.status = .active) ∧
        Holding i (Function.update held k (some row.status)) db := by
  refine keeps_stmt fun db h hcond b db' he => ⟨fun m hm => (by cases hm), fun a ha => ?_⟩
  subst ha
  have hactive : op.rule.direction = .debit → ActiveAt db.committed k := by
    unfold LocksWhileActive at hcond
    simp only [hsession] at hcond
    exact hcond
  simp only [exec] at he
  split_ifs at he with ho hother
  · have hfree : db.heldByOther i k = false := by simpa using hother
    cases hv : db.visible i k with
    | some row =>
        rw [hv] at he
        cases he
        refine ⟨fun hdir => ?_, h.hold (h.committed ho hfree hv)⟩
        obtain ⟨hnone, hsome⟩ := h.visible ho hfree
        cases hheld : held k with
        | none =>
            rw [hnone hheld] at hv
            exact hactive hdir _ hv
        | some status =>
            obtain ⟨row', hrow', hstatus⟩ := hsome status hheld
            rw [hv] at hrow'
            rw [Option.some.inj hrow', hstatus]
            exact hk status hheld
    | none =>
        rw [hv] at he
        cases he
  · cases he

/-- An update that leaves the status. -/
theorem keeps_update {row : WalletAccount} (hk : held k = some row.status) :
    Keeps base sessions i (Holding i held) (stmt (.update k row)) fun _ => Holding i held := by
  refine keeps_stmt fun db h _ b db' he => ⟨fun m hm => (by cases hm), fun a ha => ?_⟩
  subst ha
  simp only [exec] at he
  split_ifs at he with ho hother
  · split at he
    · split at he
      · cases he
      · cases he
        have hhold : Holding i _ (db.hold i k (some row)) := h.hold ((h ho k).2 _ hk).2
        rwa [← hk, Function.update_eq_self] at hhold
    · cases he
      exact h
  · cases he

/-- An insert of a movement that leaves no wallet, or an active one that is held. -/
theorem keeps_insert {e : ℕ → Movement}
    (hk : ∀ id, (e id).direction = .debit → held (e id).wallet = some .active) :
    Keeps base sessions i (Holding i held) (stmt (.insert e)) fun _ => Holding i held := by
  refine keeps_stmt fun db h _ b db' he => ⟨fun m hm hdir ho' => ?_, fun a ha => ?_⟩
  · obtain rfl : e db.nextId = m := Option.some.inj hm
    have ho : db.isOpen i = true := by
      cases hopen : db.isOpen i with
      | true => rfl
      | false =>
          simp only [exec, hopen, Bool.false_eq_true, if_false] at he
          cases he
          simp at ho'
    obtain ⟨⟨row, hrow, -⟩, hcommitted⟩ := (h ho _).2 _ (hk _ hdir)
    exact ⟨⟨_, hrow⟩, hcommitted⟩
  · subst ha
    simp only [exec] at he
    split at he
    · split at he
      · cases he
      · split at he
        · cases he
        · split at he
          · cases he
          · cases he
            exact h
    · cases he

/-- A transaction of a session that has none open. -/
theorem keeps_transact {body : LedgerCallM β}
    (hbody : Keeps base sessions i (Holding i fun _ => none) body fun _ _ => True) :
    Keeps base sessions i (fun db => db.isOpen i = false) (transact body) fun _ _ => True := by
  unfold transact
  refine Triple.bind (R := fun _ => Holding i fun _ => none) ?_ fun _ => ?_
  · intro s hs
    rw [wpe_lift]
    refine (wp_perform _ _ _ _ _ _).mpr fun db hr hinv _ _ b db' he => ?_
    have he' : exec ledgerSchema i .begin db = some (b, db') := he
    obtain ⟨hinv', hrely⟩ := frozen_step he' hinv fun m hm => by cases hm
    refine ⟨trivial, hinv', hrely, ?_⟩
    have hclosed : db.isOpen i = false := by
      cases ho : db.isOpen i with
      | false => rfl
      | true => exact absurd (hr.isOpen ho) (by simp [hs])
    cases he'
    intro _ k
    refine ⟨fun _ v hv => ?_, fun status hstatus => by cases hstatus⟩
    have := hinv.1.holder_open k i v hv
    simp [hclosed] at this
  · refine Triple.tryCatch (F := fun _ _ => True) ?_ fun e => ?_
    · refine Triple.bind hbody fun b => Triple.bind (R := fun _ _ => True) ?_ fun _ =>
        Triple.pure fun _ _ => trivial
      intro s _
      refine wp_mono (fun r t _ => ?_) _ _ (keeps_any (fun _ => rfl) s)
      cases r <;> trivial
    · refine Triple.bind (R := fun _ _ => True) (fun s _ => ?_) fun _ =>
        Triple.throw fun _ _ => trivial
      rw [wpe_lift]
      exact keeps_any (fun _ => rfl) s

end rules

/-! ### The operations -/

section operations

variable {base : LedgerSnapshot} {sessions : List LedgerSession} {i : ℕ} {β : Type}
  {held : WalletKey → Option WalletStatus}

/-- Some rows are held. -/
def HoldingSome (i : ℕ) (db : LedgerDb) : Prop := ∃ held, Holding i held db

theorem keeps_of_holding {p : LedgerCallM β} {Q : β → LedgerDb → Prop}
    (h : ∀ held, Keeps base sessions i (Holding i held) p Q) :
    Keeps base sessions i (HoldingSome i) p Q := fun s hs => hs.elim fun held hs => h held s hs

theorem keeps_postRow {op : LedgerOp} {p : LedgerWriteParams} (amount : ℚ) {row : WalletAccount}
    (hk : held p.wallet = some row.status)
    (hactive : op.rule.direction = .debit → row.status = .active) :
    Keeps base sessions i (Holding i held) (postRow op.rule p amount row) fun _ _ => True := by
  unfold postRow
  cases op.rule.guard row.read amount with
  | some e => exact Triple.throw fun _ _ => trivial
  | none =>
      refine Triple.bind (keeps_update hk) fun _ => ?_
      refine Triple.bind (keeps_insert fun id hdir => ?_) fun m => Triple.pure fun _ _ => trivial
      rw [← hactive hdir]
      exact hk

/-- An operation on one wallet: the check on the row read first, then the lock. -/
theorem keeps_postSteps {op : LedgerOp} {p : LedgerWriteParams} (amount : ℚ)
    (hsession : sessions[i]? = some (.post op p)) :
    Keeps base sessions i (Holding i fun _ => none) (postSteps op.rule p amount)
      fun _ _ => True := by
  have hlock : ∀ {held : WalletKey → Option WalletStatus},
      (∀ status ∈ held p.wallet, status = WalletStatus.active) →
      Keeps base sessions i (Holding i held)
        (do let row ← stmt (.lock p.wallet); postRow op.rule p amount row) fun _ _ => True := by
    intro held hheld
    refine Triple.bind (keeps_lock_active hsession hheld) fun row => Triple.assume fun hactive => ?_
    exact keeps_postRow amount (Function.update_self _ _ _) hactive
  unfold postSteps
  refine Triple.bind (keeps_find _) fun found => ?_
  cases found with
  | some existing => exact Triple.pure fun _ _ => trivial
  | none =>
      refine Triple.bind keeps_read fun read => ?_
      cases read with
      | some wallet =>
          refine Triple.ite (fun _ => Triple.throw fun _ _ => trivial) fun _ => ?_
          exact hlock (by simp)
      | none =>
          refine Triple.bind keeps_upsert fun wallet => ?_
          refine Triple.ite (fun _ => Triple.throw fun _ _ => trivial) fun hactive => ?_
          refine hlock fun status hstatus => ?_
          rw [Function.update_self] at hstatus
          rw [← Option.some.inj hstatus]
          exact not_not.mp hactive

theorem keeps_postCall {op : LedgerOp} {p : LedgerWriteParams}
    (hsession : sessions[i]? = some (.post op p)) :
    Keeps base sessions i (fun db => db.isOpen i = false) (postCall op.rule p)
      fun _ _ => True := by
  unfold postCall
  cases parseAmount p.amount with
  | error e => exact Triple.throw fun _ _ => trivial
  | ok amount =>
      refine Triple.ite (fun _ => Triple.throw fun _ _ => trivial) fun _ => ?_
      refine Triple.tryCatch (F := fun _ _ => True)
        (keeps_transact (keeps_postSteps amount hsession)) fun e => ?_
      refine Triple.ite (fun _ => ?_) fun _ => Triple.throw fun _ _ => trivial
      refine Triple.bind (R := fun _ _ => True) (fun s _ => ?_) fun found => ?_
      · rw [wpe_lift]
        exact keeps_any (fun _ => rfl) s
      · cases found with
        | some existing => exact Triple.pure fun _ _ => trivial
        | none => exact Triple.throw fun _ _ => trivial

theorem keeps_ensureWallet (k : WalletKey) :
    Keeps base sessions i (HoldingSome i) (ensureWallet k) fun _ => HoldingSome i := by
  refine keeps_of_holding fun held => ?_
  unfold ensureWallet
  refine Triple.bind keeps_read fun read => ?_
  cases read with
  | some wallet => exact Triple.pure fun _ h => ⟨held, h⟩
  | none => exact Triple.mono keeps_upsert (fun _ h => h) (fun _ _ h => ⟨_, h⟩) fun _ _ h => h

/-- Both rows are held, with the status each was locked with. -/
theorem keeps_lockBoth {src dst : WalletKey} (hne : src ≠ dst) (srcFirst : Bool) :
    Keeps base sessions i (HoldingSome i) (lockBoth src dst srcFirst) fun rows db =>
      ∃ held, (held src = some rows.1.status ∧ held dst = some rows.2.status) ∧
        Holding i held db := by
  refine keeps_of_holding fun held => ?_
  unfold lockBoth
  refine Triple.ite (fun _ => ?_) fun _ => ?_
  · refine Triple.bind keeps_lock fun srcRow => Triple.bind keeps_lock fun dstRow => ?_
    refine Triple.pure fun _ h => ⟨_, ⟨?_, Function.update_self _ _ _⟩, h⟩
    rw [Function.update_of_ne hne, Function.update_self]
  · refine Triple.bind keeps_lock fun dstRow => Triple.bind keeps_lock fun srcRow => ?_
    refine Triple.pure fun _ h => ⟨_, ⟨Function.update_self _ _ _, ?_⟩, h⟩
    rw [Function.update_of_ne hne.symm, Function.update_self]

/-- A transfer checks both rows again once they are locked. -/
theorem keeps_transferRows {p : TransferParams} (amount : ℚ) {rows : WalletAccount × WalletAccount}
    (hsrc : held p.sender = some rows.1.status) (hdst : held p.recipient = some rows.2.status) :
    Keeps base sessions i (Holding i held) (transferRows p amount rows.1 rows.2)
      fun _ _ => True := by
  unfold transferRows
  dsimp only
  refine Triple.ite (fun _ => Triple.throw fun _ _ => trivial) fun hactive => ?_
  refine Triple.ite (fun _ => Triple.throw fun _ _ => trivial) fun _ => ?_
  refine Triple.ite (fun _ => Triple.throw fun _ _ => trivial) fun _ => ?_
  refine Triple.bind (keeps_update hsrc) fun _ => Triple.bind (keeps_update hdst) fun _ => ?_
  refine Triple.bind (keeps_insert fun id _ => ?_) fun debit => ?_
  · rw [← not_not.mp hactive]
    exact hsrc
  · refine Triple.bind (keeps_insert fun id hdir => ?_) fun credit =>
      Triple.pure fun _ _ => trivial
    cases hdir

theorem keeps_transferSteps (p : TransferParams) (senderFirst : Bool) :
    Keeps base sessions i (Holding i fun _ => none) (transferSteps p senderFirst)
      fun _ _ => True := by
  unfold transferSteps
  cases parseAmount p.amount with
  | error e => exact Triple.throw fun _ _ => trivial
  | ok amount =>
      dsimp only
      refine Triple.ite (fun _ => Triple.throw fun _ _ => trivial) fun _ => ?_
      refine Triple.ite (fun _ => Triple.throw fun _ _ => trivial) fun horgs => ?_
      have hne : p.sender ≠ p.recipient := fun h => horgs (congrArg WalletKey.orgId h)
      refine Triple.bind (keeps_find _) fun debit => Triple.bind (keeps_find _) fun credit => ?_
      have hwallets : Keeps base sessions i (Holding i fun _ => none)
          (transferWallets p amount senderFirst) fun _ _ => True := by
        refine Triple.mono (P := HoldingSome i) ?_ (fun _ h => ⟨_, h⟩) (fun _ _ h => h)
          fun _ _ h => h
        unfold transferWallets
        refine Triple.bind (keeps_ensureWallet _) fun senderWallet => ?_
        refine Triple.bind (keeps_ensureWallet _) fun recipientWallet => ?_
        refine Triple.ite (fun _ => Triple.throw fun _ _ => trivial) fun _ => ?_
        refine Triple.ite (fun _ => Triple.throw fun _ _ => trivial) fun _ => ?_
        refine Triple.bind (keeps_lockBoth hne senderFirst) fun rows => ?_
        rintro s ⟨held, ⟨hsrc, hdst⟩, hs⟩
        exact keeps_transferRows amount hsrc hdst s hs
      cases debit with
      | some debit =>
          cases credit with
          | some credit => exact Triple.pure fun _ _ => trivial
          | none => exact Triple.throw fun _ _ => trivial
      | none =>
          cases credit with
          | some credit => exact Triple.throw fun _ _ => trivial
          | none => exact hwallets

theorem keeps_setStatus (k : WalletKey) (status : WalletStatus) :
    Keeps base sessions i (fun db => db.isOpen i = false)
      (transact (setStatusSteps k status)) fun _ _ => True := by
  refine keeps_transact ?_
  unfold setStatusSteps
  refine Triple.bind keeps_lock fun row => fun s _ => ?_
  refine wp_mono (fun r t _ => ?_) _ _ (keeps_any (fun _ => rfl) s)
  cases r <;> trivial

/-- Every session keeps the discipline. -/
theorem session_verified {session : LedgerSession} (hsession : sessions[i]? = some session)
    {db : LedgerDb} (hclosed : db.isOpen i = false) :
    wp (machine ledgerSchema) (frozenDiscipline base sessions) i session.program
      (fun _ _ => True) db := by
  cases session with
  | post op p => exact Triple.map_unit (keeps_postCall hsession) db hclosed
  | transfer p senderFirst =>
      exact Triple.map_unit (keeps_transact (keeps_transferSteps p senderFirst)) db hclosed
  | setStatus k status => exact Triple.map_unit (keeps_setStatus k status) db hclosed
  | terminate j => exact keeps_any (fun _ => rfl) db

end operations

/-- **Frozen wallets stay frozen.** In every run of any ledger operations, transfers and status
changes in which no operation on one wallet that takes money out locks it once it is no longer
active, everything that leaves a wallet is committed on an active one. -/
theorem frozen_stays_frozen {db : LedgerDb} (hdb : Unused db) (sessions : List LedgerSession)
    (sched : List (ℕ × Unit))
    (hc : Pool.Along (machine ledgerSchema) (Pool.CondAt (LocksWhileActive sessions))
      ⟨db, sessions.map LedgerSession.program⟩ sched) :
    ∀ c ∈ (Pool.run (machine ledgerSchema) ⟨db, sessions.map LedgerSession.program⟩
      sched).store.wal, LeavesActive c := by
  have hstart : Pool.Verified (machine ledgerSchema) (frozenDiscipline db.committed sessions)
      (fun _ _ _ => True) ⟨db, sessions.map LedgerSession.program⟩ := by
    refine Pool.Verified.start ⟨hdb.sound, fun c hc => ?_, fun i m hm => ?_⟩ fun i p hp => ?_
    · simp [hdb.noWal] at hc
    · simp [Db.own, hdb.noInflight] at hm
    · rw [List.getElem?_map] at hp
      obtain ⟨session, hsession, rfl⟩ := Option.map_eq_some_iff.mp hp
      exact session_verified hsession (hdb.closed i)
  exact (Pool.run_sound hstart sched hc).1.1.2.1

/-- Five USDC to reserve. -/
def fiveLock : LedgerWriteParams := ⟨"org", "test", some 5, none, "key", none, none, none, none⟩

/-- A wallet with ten USDC. -/
def tenUsdc : LedgerDb :=
  { emptyDb with committed :=
      ⟨fun k => if k = fiveLock.wallet then some ⟨.active, ⟨10 ^ 8, 0, 0⟩⟩ else none, []⟩ }

theorem tenUsdc_unused : Unused tenUsdc :=
  ⟨fun _ => rfl, fun _ => rfl, rfl, rfl, List.Pairwise.nil⟩

/-- One session reserves from the wallet, another freezes it. -/
def lockAndFreeze : List LedgerSession :=
  [.post .lockOrgFunds fiveLock, .setStatus fiveLock.wallet .frozen]

/-- The sessions of a schedule, taking turns as listed. -/
def turns (sessions : List ℕ) : List (ℕ × Unit) := sessions.map fun i => (i, ())

/-- The reservation ends before the wallet is frozen: both commit. -/
theorem lock_then_freeze :
    (Pool.run (machine ledgerSchema) ⟨tenUsdc, lockAndFreeze.map LedgerSession.program⟩
      (turns [0, 0, 0, 0, 0, 0, 0, 1, 1, 1, 1])).store.wal.length = 2 ∧
    ∀ c ∈ (Pool.run (machine ledgerSchema) ⟨tenUsdc, lockAndFreeze.map LedgerSession.program⟩
      (turns [0, 0, 0, 0, 0, 0, 0, 1, 1, 1, 1])).store.wal, LeavesActive c :=
  ⟨by decide +kernel, frozen_stays_frozen tenUsdc_unused lockAndFreeze _ (by decide +kernel)⟩

/-- The freeze commits between the check and the lock of the reservation: five USDC are locked on
a frozen wallet. -/
theorem frozen_debit :
    ¬ ∀ c ∈ (Pool.run (machine ledgerSchema) ⟨tenUsdc, lockAndFreeze.map LedgerSession.program⟩
      (turns [0, 0, 0, 1, 1, 1, 1, 0, 0, 0, 0])).store.wal, LeavesActive c := by
  decide +kernel

end DayfiBackend.Infra
