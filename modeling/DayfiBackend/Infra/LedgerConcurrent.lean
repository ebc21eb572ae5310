import DayfiBackend.Found.Transact
import DayfiBackend.Infra.Posting

/-!
# Concurrent calls of a ledger operation

`postProgram` is an operation on one wallet statement by statement, as a program of a database
session: the look-up of the key, the read or creation of the wallet, the status check (on the row
as first read), the row lock, the guard, the update, the insert, the commit, and the second
look-up outside the transaction after a unique violation. Other sessions run any programs at all,
and any transaction may be terminated.

* `postSteps_sound` — what a call commits is nothing, or one posting (`PostRule.posted`) on the
  committed state at that moment: the atomic operation of `Infra.Posting`.
* `exactly_once` — over any number of calls with one key, in any interleaving: at most one
  commit has an effect, all results carry the same movement, and a call that throws commits
  nothing.
-/

namespace DayfiBackend.Infra

open DayfiBackend.Found DayfiBackend.Found.Database DayfiBackend.Found.Keys

/-! ### The program of a call -/

/-- Clashing is symmetric. -/
theorem Movement.clashes_comm (m n : Movement) : m.clashes n = n.clashes m := by
  unfold clashes
  by_cases h1 : m.referenceType = n.referenceType <;>
    by_cases h2 : m.referenceId = n.referenceId <;>
    simp [h1, h2, eq_comm]

/-- The constraints of the ledger's tables.
Source: `infra-wallet-ledger-up.sql`, `infra-ledger-phase2-up.sql`. -/
def ledgerSchema : Schema WalletKey WalletAccount Movement LedgerFailure where
  checkRow k row := if 16 < k.asset.length then .error .valueTooLong else checkRow row.balance
  checkEntry := checkMovement
  clash := Movement.clashes
  clash_symm := Movement.clashes_comm
  uniqueViolation := .uniqueViolation
  noRow := .noData
  terminated := .connectionLost

/-- Statements of a session of the ledger's database. -/
abbrev LedgerStmt := Stmt WalletKey WalletAccount Movement LedgerFailure

/-- The committed tables of the ledger. -/
abbrev LedgerSnapshot := Snapshot WalletKey WalletAccount Movement

/-- The part of an operation that works on the locked row. -/
def postRow (rule : PostRule) (p : LedgerWriteParams) (amount : ℚ) (row : WalletAccount) :
    ExceptT LedgerFailure (Prog LedgerStmt) Posted :=
  match rule.guard row.read amount with
  | some e => throw (.error e)
  | none => do
      stmt (.update p.wallet { row with balance := rule.columns row amount })
      let m ← stmt (.insert (rule.entry p amount row))
      return ⟨m, false⟩

/-- The statements of the transaction of an operation. -/
def postSteps (rule : PostRule) (p : LedgerWriteParams) (amount : ℚ) :
    ExceptT LedgerFailure (Prog LedgerStmt) Posted := do
  match ← stmt (.find (·.idempotencyKey = p.key)) with
  | some existing => return ⟨existing, true⟩
  | none =>
      match ← stmt (.read p.wallet) with
      | some wallet =>
          if wallet.status ≠ .active then throw (.error .walletInactive)
          else do
            let row ← stmt (.lock p.wallet)
            postRow rule p amount row
      | none => do
          let wallet ← stmt (.upsert p.wallet .fresh)
          if wallet.status ≠ .active then throw (.error .walletInactive)
          else do
            let row ← stmt (.lock p.wallet)
            postRow rule p amount row

/-- An operation without an outer transaction.
Source: `infraLedgerService.ts` `creditOrgWallet` to `finalizeLockedDebit`. -/
def postCall (rule : PostRule) (p : LedgerWriteParams) :
    ExceptT LedgerFailure (Prog LedgerStmt) Posted :=
  match parseAmount p.amount with
  | .error e => throw e
  | .ok amount =>
      if p.key = "" then throw (.error .idempotencyRequired)
      else tryCatch (transact (postSteps rule p amount)) fun e =>
        if e = .uniqueViolation then do
          match ← ExceptT.lift (Prog.perform (.select (·.idempotencyKey = p.key))) with
          | some existing => return ⟨existing, true⟩
          | none => throw e
        else throw e

/-- The program of a session that makes one call. -/
def postProgram (rule : PostRule) (p : LedgerWriteParams) :
    Prog LedgerStmt (Except LedgerFailure Posted) :=
  (postCall rule p).run

/-! ### What a call commits -/

/-- The ledger of a committed state. -/
def ledgerOf (s : LedgerSnapshot) (nextMovementId : ℕ) : Ledger := ⟨s.rows, s.log, nextMovementId⟩

/-- The committed state of a ledger. -/
def Ledger.snapshot (l : Ledger) : LedgerSnapshot := ⟨l.wallets, l.movements⟩

/-- A commit of a call: nothing, or one posting on the state it was made on. -/
def PostCommit (rule : PostRule) (p : LedgerWriteParams)
    (c : Commit WalletKey WalletAccount Movement) : Prop :=
  (c.entries = [] ∧ c.after = c.before) ∨
    ∃ amount id, PostsOn rule p amount (ledgerOf c.before id) ∧
      c.entries = [rule.movement p amount (ledgerOf c.before id)] ∧
      c.after = (rule.posted p amount (ledgerOf c.before id)).snapshot

/-- What a returned movement is: committed, under the key of the call. -/
def Returned (p : LedgerWriteParams) (r : Posted)
    (db : Db WalletKey WalletAccount Movement) : Prop :=
  r.movement ∈ db.committed.log ∧ r.movement.idempotencyKey = p.key

/-- How a call ends: it returns a committed movement under its key, or throws having committed
nothing. -/
def CallEnds (p : LedgerWriteParams) (i : ℕ) :
    Except LedgerFailure Posted → Db WalletKey WalletAccount Movement → Prop
  | .ok r, db => Returned p r db
  | .error _, db => Quiet i db

section verification

variable {rule : PostRule} {p : LedgerWriteParams} {amount : ℚ} {i : ℕ} {base : LedgerSnapshot}
  {P : Commit WalletKey WalletAccount Movement → Prop}
  {db : Db WalletKey WalletAccount Movement}

theorem postRow_sound (hp : parseAmount p.amount = .ok amount)
    (hP : ∀ c, PostCommit rule p c → c.session = i → P c) {row : WalletAccount}
    (hs : Holds i p.wallet .fresh row row [] db) :
    Prog.wpe (machine ledgerSchema) (discipline ledgerSchema base P) i (postRow rule p amount row)
      (fun r => Committable ledgerSchema base P i (Returned p r)) (fun _ => Quiet i) db := by
  unfold postRow
  cases hg : rule.guard row.read amount with
  | some e => exact (Prog.wpe_throw _).mpr hs.quiet
  | none =>
      simp only
      rw [Prog.wpe_bind]
      refine wpe_update hs fun db₁ hrow h₁ => ?_
      rw [Prog.wpe_bind]
      refine wpe_insert h₁ fun id db₂ hentry h₂ => ?_
      rw [Prog.wpe_pure]
      refine h₂.committable (fun before hbefore hunique => hP _ (.inr ⟨amount, id, ?_⟩) rfl)
        (fun db' hown => ⟨hown List.mem_cons_self, rfl⟩)
      have hlrow : (ledgerOf before id).row p.wallet = row := hbefore
      have hclash : ∀ n ∈ before.log, (rule.entry p amount row id).clashes n = false :=
        (List.pairwise_cons.mp hunique).1
      have hmove : rule.movement p amount (ledgerOf before id) = rule.entry p amount row id := by
        unfold PostRule.movement
        rw [hlrow]
        rfl
      refine ⟨⟨hp, ?_, ?_, ?_, ?_, ?_⟩, ?_, ?_⟩
      · exact keyFresh_of_noClash (m := rule.entry p amount row id) hclash
      · rw [hlrow]
        exact hg
      · rw [hlrow]
        simp only [ledgerSchema] at hrow
        split_ifs at hrow
        exact checkRow_ok hrow
      · rw [hmove]
        exact checkMovement_ok hentry
      · rw [hmove]
        exact hclash
      · rw [hmove]
      · unfold PostRule.posted Ledger.snapshot
        rw [hmove, hlrow]
        rfl

/-- The transaction of a call commits nothing or one posting, and a result it returns is a
committed movement under the key. -/
theorem postSteps_sound (hp : parseAmount p.amount = .ok amount)
    (hP : ∀ c, PostCommit rule p c → c.session = i → P c) (hs : Started i db) :
    Prog.wpe (machine ledgerSchema) (discipline ledgerSchema base P) i (postSteps rule p amount)
      (fun r => Committable ledgerSchema base P i (Returned p r)) (fun _ => Quiet i) db := by
  unfold postSteps
  rw [Prog.wpe_bind]
  refine wpe_find hs fun db₁ h₁ ho => ?_
  cases hfind : db₁.committed.log.find? (·.idempotencyKey = p.key) with
  | some existing =>
      simp only
      rw [Prog.wpe_pure]
      have hmem := List.mem_of_find?_eq_some hfind
      have hkey : existing.idempotencyKey = p.key := by simpa using List.find?_some hfind
      exact h₁.committable (fun before => hP _ (.inl ⟨rfl, rfl⟩) rfl)
        (fun db' hlog => ⟨hlog.subset hmem, hkey⟩)
  | none =>
      simp only
      rw [Prog.wpe_bind]
      refine wpe_read h₁ fun db₂ h₂ => ?_
      cases db₂.committed.rows p.wallet with
      | some wallet =>
          simp only
          by_cases hactive : wallet.status ≠ .active
          · rw [if_pos hactive]
            exact (Prog.wpe_throw _).mpr h₂.quiet
          · rw [if_neg hactive, Prog.wpe_bind]
            exact wpe_lock_started h₂ fun row db₃ h₃ => postRow_sound hp hP h₃
      | none =>
          simp only
          rw [Prog.wpe_bind]
          refine wpe_upsert h₂ fun wallet db₃ h₃ => ?_
          by_cases hactive : wallet.status ≠ .active
          · rw [if_pos hactive]
            exact (Prog.wpe_throw _).mpr h₃.quiet
          · rw [if_neg hactive, Prog.wpe_bind]
            exact wpe_lock_holds h₃ fun db₄ h₄ => postRow_sound hp hP h₄

/-- A call commits nothing or one posting, and ends as it should. -/
theorem postProgram_sound (hP : ∀ c, PostCommit rule p c → c.session = i → P c)
    (hs : Idle i db) :
    Prog.wp (machine ledgerSchema) (discipline ledgerSchema base P) i (postProgram rule p)
      (CallEnds p i) db := by
  unfold postProgram
  have hcall : Prog.wpe (machine ledgerSchema) (discipline ledgerSchema base P) i
      (postCall rule p) (Returned p) (fun _ => Quiet i) db := by
    unfold postCall
    cases hp : parseAmount p.amount with
    | error e => exact (Prog.wpe_throw _).mpr hs.quiet
    | ok amount =>
        simp only
        by_cases hkey : p.key = ""
        · rw [if_pos hkey]
          exact (Prog.wpe_throw _).mpr hs.quiet
        · rw [if_neg hkey, Prog.wpe_tryCatch]
          refine Prog.wpe_mono (fun _ _ h => h) (fun e db₁ h₁ => ?_)
            (wpe_transact hs fun db₁ h₁ => postSteps_sound hp hP h₁)
          by_cases he : e = .uniqueViolation
          · rw [if_pos he, Prog.wpe_bind]
            refine wpe_select h₁ fun db₂ h₂ => ?_
            cases hfind : db₂.committed.log.find? (·.idempotencyKey = p.key) with
            | some existing =>
                exact (Prog.wpe_pure _).mpr
                  ⟨List.mem_of_find?_eq_some hfind, by simpa using List.find?_some hfind⟩
            | none => exact (Prog.wpe_throw _).mpr h₂
          · rw [if_neg he]
            exact (Prog.wpe_throw _).mpr h₁
  refine Prog.wp_mono ?_ _ _ hcall
  rintro (e | r) t ht <;> exact ht

end verification

/-! ### Any number of calls with one key -/

/-- A database before any transaction: no lock, nothing uncommitted, no clash. -/
structure Unused (db : Db WalletKey WalletAccount Movement) : Prop where
  closed : ∀ i, db.isOpen i = false
  noLocks : ∀ k, db.locks k = none
  noInflight : db.inflight = []
  noWal : db.wal = []
  unique : db.committed.log.Pairwise fun m n => m.clashes n = false

theorem Unused.sound {db : Db WalletKey WalletAccount Movement} (hdb : Unused db) :
    Sound ledgerSchema db.committed db where
  holder_open k i v hk := by simp [hdb.noLocks] at hk
  inflight_open x hx := by simp [hdb.noInflight] at hx
  unique := by
    rw [hdb.noInflight]
    exact hdb.unique
  linked := by
    rw [hdb.noWal]
    rfl

section calls

variable {rule : PostRule} {p : LedgerWriteParams} {db : Db WalletKey WalletAccount Movement}
  {ps : List (Prog LedgerStmt (Except LedgerFailure Posted))} {T : List ℕ}

/-- Every run keeps the discipline: the calls of `T` commit postings only. -/
theorem calls_verified (hdb : Unused db) (hT : ∀ i ∈ T, ps[i]? = some (postProgram rule p))
    (sched : List (ℕ × Unit)) :
    Pool.Verified (machine ledgerSchema)
      (discipline ledgerSchema db.committed fun c => c.session ∈ T → PostCommit rule p c)
      (fun i r db => i ∈ T → CallEnds p i r db)
      (Pool.run (machine ledgerSchema) ⟨db, ps⟩ sched) := by
  refine Pool.run_verified (fun _ _ _ _ => trivial) (Pool.Verified.start ?_ fun i q hq => ?_) sched
  · refine ⟨hdb.sound, fun c hc => ?_⟩
    simp [hdb.noWal] at hc
  · by_cases hi : i ∈ T
    · rw [hT i hi] at hq
      cases hq
      refine Prog.wp_mono (fun _ _ h _ => h) _ _
        (postProgram_sound (fun c hc _ _ => hc) ⟨?_, hdb.closed i⟩)
      simp [Quiet, hdb.noWal]
    · exact Prog.wp_mono (fun _ _ _ hi' => absurd hi' hi) _ _
        (wp_any (fun c hc hc' => absurd (hc ▸ hc') hi) q db)

/-- A commit with an effect inserts one movement, under the key. -/
theorem PostCommit.entries_eq {c : Commit WalletKey WalletAccount Movement}
    (h : PostCommit rule p c) (hc : c.after ≠ c.before) :
    ∃ m, c.entries = [m] ∧ m.idempotencyKey = p.key := by
  rcases h with ⟨-, heq⟩ | ⟨amount, id, -, hentries, -⟩
  · exact absurd heq hc
  · exact ⟨_, hentries, rfl⟩

/-- Two commits of these calls cannot both have an effect: their movements would share the key. -/
theorem effects_pairwise {base s : LedgerSnapshot}
    {cs : List (Commit WalletKey WalletAccount Movement)} (hlinked : Linked base cs s)
    (hunique : s.log.Pairwise fun m n => m.clashes n = false)
    (hpost : ∀ c ∈ cs, c.session ∈ T → PostCommit rule p c) :
    (cs.filter (·.session ∈ T)).Pairwise fun c d => c.after = c.before ∨ d.after = d.before := by
  rw [hlinked.log_eq] at hunique
  have hpair := (List.pairwise_flatMap.mp (List.pairwise_append.mp hunique).1).2
  refine (hpair.filter _).imp_of_mem fun {c d} hc hd hcd => ?_
  obtain ⟨hc, hcT⟩ := List.mem_filter.mp hc
  obtain ⟨hd, hdT⟩ := List.mem_filter.mp hd
  by_contra hno
  obtain ⟨hc', hd'⟩ := not_or.mp hno
  obtain ⟨m, hm, hmkey⟩ := (hpost c hc (by simpa using hcT)).entries_eq hc'
  obtain ⟨n, hn, hnkey⟩ := (hpost d hd (by simpa using hdT)).entries_eq hd'
  have hclash := hcd m (by simp [hm]) n (by simp [hn])
  simp [Movement.clashes, hmkey, hnkey] at hclash

/-- Two committed movements under one key are the same. -/
theorem eq_of_same_key {log : List Movement}
    (hunique : log.Pairwise fun m n => m.clashes n = false) {m n : Movement} (hm : m ∈ log)
    (hn : n ∈ log) (hkey : m.idempotencyKey = n.idempotencyKey) : m = n := by
  by_contra hne
  have : Std.Symm fun m n : Movement => m.clashes n = false :=
    ⟨fun x y h => by rwa [Movement.clashes_comm]⟩
  have hclash := hunique.forall hm hn hne
  simp [Movement.clashes, hkey] at hclash

/-- **Exactly-once posting.** In every run of a pool of sessions in which those of `T` make the
same call of an operation and the others do anything: the committed ledger changes by the commits
of the log only; at most one commit of the calls has an effect, and it is one posting of the
operation; the calls that returned carry one movement, which is committed; and a call that threw
has committed nothing. -/
theorem exactly_once (op : LedgerOp) (hdb : Unused db)
    (hT : ∀ i ∈ T, ps[i]? = some (postProgram op.rule p)) (sched : List (ℕ × Unit)) :
    let P := Pool.run (machine ledgerSchema) ⟨db, ps⟩ sched
    Linked db.committed P.store.wal P.store.committed ∧
      (∀ c ∈ P.store.wal, c.session ∈ T → PostCommit op.rule p c) ∧
      ((P.store.wal.filter (·.session ∈ T)).Pairwise fun c d =>
        c.after = c.before ∨ d.after = d.before) ∧
      (∀ i ∈ T, ∀ r, P.procs[i]? = some (.ret (.ok r)) →
        r.movement ∈ P.store.committed.log ∧ ∀ j ∈ T, ∀ r', P.procs[j]? = some (.ret (.ok r')) →
          r.movement.id = r'.movement.id) ∧
      (∀ i ∈ T, ∀ e, P.procs[i]? = some (.ret (.error e)) → ∀ c ∈ P.store.wal, c.session ≠ i) := by
  intro P
  have hv := calls_verified hdb hT sched
  obtain ⟨hsound, hpost⟩ := hv.1
  have hunique : P.store.committed.log.Pairwise fun m n => m.clashes n = false :=
    (List.pairwise_append.mp hsound.unique).2.1
  have hreturned : ∀ i ∈ T, ∀ r, P.procs[i]? = some (.ret (.ok r)) →
      Returned p r P.store := by
    intro i hi r hr
    obtain ⟨s, hs, hrely⟩ := hv.result hr
    have hret : Returned p r s := hs hi
    exact ⟨hrely.log.subset hret.1, hret.2⟩
  refine ⟨hsound.linked, hpost, effects_pairwise hsound.linked hunique hpost, ?_, ?_⟩
  · intro i hi r hr
    refine ⟨(hreturned i hi r hr).1, fun j hj r' hr' => ?_⟩
    obtain ⟨hm, hmkey⟩ := hreturned i hi r hr
    obtain ⟨hn, hnkey⟩ := hreturned j hj r' hr'
    rw [eq_of_same_key hunique hm hn (hmkey.trans hnkey.symm)]
  · intro i hi e he c hc hci
    obtain ⟨s, hs, hrely⟩ := hv.result he
    have hquiet : Quiet i P.store := Quiet.stable (hs hi) hrely
    have hmem : c ∈ P.store.wal.filter (·.session = i) := by simp [hc, hci]
    rw [hquiet] at hmem
    cases hmem

end calls

/-- A database with no wallet and no movement. -/
def emptyDb : Db WalletKey WalletAccount Movement :=
  ⟨⟨fun _ => none, []⟩, fun _ => none, [], fun _ => false, 0, []⟩

theorem emptyDb_unused : Unused emptyDb :=
  ⟨fun _ => rfl, fun _ => rfl, rfl, rfl, List.Pairwise.nil⟩

/-- A credit of five USDC. -/
def fiveCredit : LedgerWriteParams := ⟨"org", "test", some 5, none, "key", none, none, none, none⟩

/-- Two sessions making it, taking turns. -/
def creditingTwice : Pool LedgerStmt (Except LedgerFailure Posted)
    (Db WalletKey WalletAccount Movement) :=
  Pool.run (machine ledgerSchema)
    ⟨emptyDb, List.replicate 2 (postProgram LedgerOp.creditOrgWallet.rule fiveCredit)⟩
    ((List.range 20).map fun n => (n % 2, ()))

/-- Two sessions crediting under one key: one credit. -/
theorem exactly_once_creditingTwice :
    (creditingTwice.store.wal.filter (·.session ∈ [0, 1])).Pairwise fun c d =>
      c.after = c.before ∨ d.after = d.before := by
  have hT : ∀ i ∈ [0, 1],
      (List.replicate 2 (postProgram LedgerOp.creditOrgWallet.rule fiveCredit))[i]? =
        some (postProgram LedgerOp.creditOrgWallet.rule fiveCredit) := by
    intro i hi
    rcases List.mem_cons.mp hi with rfl | hi
    · rfl
    · rw [List.mem_singleton.mp hi]
      rfl
  unfold creditingTwice
  exact (exactly_once .creditOrgWallet emptyDb_unused hT _).2.2.1

end DayfiBackend.Infra
