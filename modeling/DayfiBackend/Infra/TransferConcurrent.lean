import DayfiBackend.Found.Exclusive
import DayfiBackend.Found.History
import DayfiBackend.Found.Solo
import DayfiBackend.Infra.FrozenWallets

/-!
# Concurrent calls of a transfer

`TransferCall.program` is `transferAvailableBalance` without an outer transaction: `transferSteps`
between `begin` and `commit`. The recovery from a unique violation stands in a `catch` around a
promise that is returned without being awaited, so a call that loses the race throws
(`lost_race_throws`).

As long as a look-up finds nothing only while no other call is past such a look-up with its
transaction open, the calls follow one another: the money moves once and they all return one pair
(`transferred_once`).
-/

namespace DayfiBackend.Infra

open DayfiBackend.Found DayfiBackend.Found.Database DayfiBackend.Found.Keys DayfiBackend.Found.Tx

/-! ### Calls and what they should do -/

/-- A call, and whether the sender's row has the smaller id. -/
structure TransferCall where
  params : TransferParams
  senderFirst : Bool
  deriving DecidableEq, Repr

/-- The program of a session that makes the call. The `catch` of the source does not see how the
transaction ends: `db.tx` is returned, not awaited.
Source: `infraLedgerService.ts` `transferAvailableBalance`. -/
def TransferCall.program (c : TransferCall) : Prog LedgerStmt (Except LedgerFailure PostedPair) :=
  (transact (transferSteps c.params c.senderFirst)).run

/-- Sessions that make transfers. -/
abbrev TransferPool := Pool LedgerStmt (Except LedgerFailure PostedPair) LedgerDb

/-- The legs and the ledger one of the calls makes alone. -/
def MadeAlone (calls : List TransferCall) (l₀ l : Ledger) (debit credit : Movement) : Prop :=
  ∃ c ∈ calls, ∃ dup, (transferBody c.params).run l₀ = .ok (⟨debit, credit, dup⟩, l)

/-- The money moves once, and every call that has returned returned the same two movements. -/
structure TransferredOnce (calls : List TransferCall) (l₀ : Ledger) (P : TransferPool) : Prop where
  /-- The committed ledger is the one at the start, or what one call alone makes of it. -/
  once : P.store.committed = l₀.snapshot ∨
    ∃ l debit credit, MadeAlone calls l₀ l debit credit ∧ P.store.committed = l.snapshot
  /-- No call fails, and what a call returns is what is committed. -/
  returned : ∀ (i : ℕ) r, P.procs[i]? = some (.ret r) → ∃ pair l, r = .ok pair ∧
    MadeAlone calls l₀ l pair.debit pair.credit ∧ P.store.committed = l.snapshot
  same : ∀ (i j : ℕ) r r', P.procs[i]? = some (.ret (.ok r)) →
    P.procs[j]? = some (.ret (.ok r')) → r.debit = r'.debit ∧ r.credit = r'.credit

/-! ### The condition -/

/-- The calls past a look-up that found nothing, their transactions open. -/
def searching {β : Type} (i : ℕ) (st : LedgerStmt β) (_ : Unit) (_ : LedgerDb) (b : β)
    (t : LedgerDb) (js : List ℕ) : List ℕ :=
  if t.isOpen i = false then js.filter (· ≠ i)
  else
    match st, b with
    | .find _, .ok none => js.insert i
    | _, _ => js

/-- A look-up that finds nothing is made while no other call is past one with its transaction
open. -/
def LooksUpAlone {β : Type} (i : ℕ) (st : LedgerStmt β) (_ : Unit) (s : LedgerDb × List ℕ) :
    Prop :=
  match st with
  | .find q => (s.1.own i ++ s.1.committed.log).find? q = none → ∀ j ∈ s.2, j = i
  | _ => True

instance {β : Type} (i : ℕ) (st : LedgerStmt β) (o : Unit) (s : LedgerDb × List ℕ) :
    Decidable (LooksUpAlone i st o s) :=
  decidable_of_bool (match st with
    | .find q => decide ((s.1.own i ++ s.1.committed.log).find? q = none → ∀ j ∈ s.2, j = i)
    | _ => true) (by
      cases st <;> first | exact decide_eq_true_iff | exact iff_of_true rfl trivial)

/-- Sessions beside the list of those that search. -/
abbrev transferMachine : Machine LedgerStmt Unit (LedgerDb × List ℕ) :=
  (machine ledgerSchema).keeping searching

/-! ### What a transfer that succeeds alone has checked -/

/-- What holds when a new transfer succeeds, the constraints of the tables included. -/
structure Admits (p : TransferParams) (amount : ℚ) (l : Ledger) : Prop
    extends Transfers p amount l where
  srcRow : checkRow ((p.move amount).srcRow l).balance = .ok ()
  dstRow : checkRow ((p.move amount).dstRow l).balance = .ok ()
  debit : checkMovement ((p.move amount).debit l) = .ok ()
  credit : checkMovement ((p.move amount).credit l) = .ok ()
  asset : (l.wallets p.sender = none ∨ l.wallets p.recipient = none) → p.sender.asset.length ≤ 16

section admits

variable {l l' : Ledger} {k : WalletKey} {row : WalletAccount} {m : Movement}

theorem ensureWalletAccount_asset (h : (ensureWalletAccount k).run l = .ok (row, l')) :
    l.wallets k = none → k.asset.length ≤ 16 := by
  intro hk
  unfold ensureWalletAccount at h
  obtain ⟨t, s, ht, h⟩ := bind_ok.mp h
  obtain ⟨rfl, rfl⟩ := get_ok.mp ht
  rw [hk] at h
  obtain ⟨_, s, hs, h⟩ := bind_ok.mp h
  obtain ⟨hasset, -⟩ := throwIf_ok.mp hs
  omega

theorem updateWallet_check {balance : Buckets ℤ} {u : Unit}
    (h : (updateWallet k row balance).run l = .ok (u, l')) : checkRow balance = .ok () := by
  unfold updateWallet at h
  obtain ⟨_, s, hs, h⟩ := bind_ok.mp h
  exact (lift_ok.mp hs).1

theorem insertMovement_check {direction : Direction} {amount : ℚ} {text : MovementText}
    {after : Buckets ℚ} {posting : Posting}
    (h : (insertMovement k direction amount text after posting).run l = .ok (m, l')) :
    checkMovement m = .ok () := by
  obtain ⟨rfl, -⟩ := insertMovement_ok h
  unfold insertMovement at h
  obtain ⟨t, s, ht, h⟩ := bind_ok.mp h
  obtain ⟨rfl, rfl⟩ := get_ok.mp ht
  obtain ⟨_, s, hs, h⟩ := bind_ok.mp h
  exact (lift_ok.mp hs).1

end admits

/-- A transfer that succeeds has a valid amount, both keys and two organisations. -/
theorem transferBody_valid {p : TransferParams} {l l' : Ledger} {r : PostedPair}
    (h : (transferBody p).run l = .ok (r, l')) :
    (∃ amount, parseAmount p.amount = .ok amount) ∧
      ¬ (trim p.debitIdempotencyKey = "" ∨ trim p.creditIdempotencyKey = "") ∧
      p.senderOrgId ≠ p.recipientOrgId := by
  unfold transferBody at h
  obtain ⟨amount, s, hs, h⟩ := bind_ok.mp h
  obtain ⟨hp, rfl⟩ := lift_ok.mp hs
  obtain ⟨_, s, hs, h⟩ := bind_ok.mp h
  obtain ⟨hkeys, rfl⟩ := throwIf_ok.mp hs
  obtain ⟨_, s, hs, -⟩ := bind_ok.mp h
  exact ⟨⟨amount, hp⟩, hkeys, (throwIf_ok.mp hs).1⟩

/-- A transfer that succeeds and does not find its debit key moves the money. -/
theorem transferBody_new {p : TransferParams} {l l' : Ledger} {r : PostedPair}
    (h : (transferBody p).run l = .ok (r, l'))
    (hfresh : findMovementByIdempotency l (trim p.debitIdempotencyKey) = none) :
    ∃ amount, Admits p amount l ∧
      r = ⟨(p.move amount).debit l, (p.move amount).credit l, false⟩ ∧
      l' = (p.move amount).moved l := by
  rcases transferBody_ok h with ⟨hd, -⟩ | ⟨amount, ht, hr, hl⟩
  · rw [hfresh] at hd
    cases hd
  refine ⟨amount, ?_, hr, hl⟩
  unfold transferBody at h
  obtain ⟨amount', s, hs, h⟩ := bind_ok.mp h
  obtain ⟨hp, rfl⟩ := lift_ok.mp hs
  obtain rfl : amount' = amount := Except.ok.inj (hp.symm.trans ht.parsed)
  obtain ⟨_, s, hs, h⟩ := bind_ok.mp h
  obtain ⟨-, rfl⟩ := throwIf_ok.mp hs
  obtain ⟨_, s, hs, h⟩ := bind_ok.mp h
  obtain ⟨horgs, rfl⟩ := throwIf_ok.mp hs
  obtain ⟨_, s, hs, h⟩ := bind_ok.mp h
  obtain ⟨rfl, rfl⟩ := get_ok.mp hs
  simp only [ht.debitKeyFresh, ht.creditKeyFresh] at h
  obtain ⟨senderRow, s, hs, h⟩ := bind_ok.mp h
  have hsender := ensureWalletAccount_asset hs
  obtain ⟨rfl, rfl⟩ := ensureWalletAccount_ok hs
  obtain ⟨recipientRow, s, hs, h⟩ := bind_ok.mp h
  have hrecipient := ensureWalletAccount_asset hs
  obtain ⟨rfl, rfl⟩ := ensureWalletAccount_ok hs
  obtain ⟨_, s, hs, h⟩ := bind_ok.mp h
  obtain ⟨-, rfl⟩ := throwIf_ok.mp hs
  obtain ⟨_, s, hs, h⟩ := bind_ok.mp h
  obtain ⟨-, rfl⟩ := throwIf_ok.mp hs
  obtain ⟨_, s, hs, h⟩ := bind_ok.mp h
  obtain ⟨-, rfl⟩ := throwIf_ok.mp hs
  obtain ⟨_, s, hs, -⟩ := bind_ok.mp h
  rw [Ledger.row_setRow_row] at hs
  unfold moveAvailable at hs
  obtain ⟨_, s, hsrc, hs⟩ := bind_ok.mp hs
  have hsrcRow := updateWallet_check hsrc
  obtain ⟨-, rfl⟩ := updateWallet_ok hsrc
  obtain ⟨_, s, hdst, hs⟩ := bind_ok.mp hs
  have hdstRow := updateWallet_check hdst
  obtain ⟨-, rfl⟩ := updateWallet_ok hdst
  obtain ⟨debit, s, hd, hs⟩ := bind_ok.mp hs
  have hdebit := insertMovement_check hd
  obtain ⟨rfl, -, -, rfl⟩ := insertMovement_ok hd
  obtain ⟨credit, s, hc, -⟩ := bind_ok.mp hs
  have hcredit := insertMovement_check hc
  obtain ⟨rfl, -⟩ := insertMovement_ok hc
  refine ⟨ht, hsrcRow, hdstRow, hdebit, hcredit, ?_⟩
  rintro (hnone | hnone)
  · exact hsender hnone
  · have hne : p.recipient ≠ p.sender := fun heq => horgs (congrArg WalletKey.orgId heq).symm
    refine hrecipient ?_
    simpa [Ledger.setRow, Function.update_of_ne hne] using hnone

/-! ### The discipline -/

/-- The ledger of a database. -/
def ledgerNow (db : LedgerDb) : Ledger := ledgerOf db.committed db.nextId

/-- The calls carry one pair of keys, and each of them alone would succeed. -/
structure Replays (calls : List TransferCall) (debitKey creditKey : String) (l₀ : Ledger) :
    Prop where
  debitKey : ∀ c ∈ calls, trim c.params.debitIdempotencyKey = debitKey
  creditKey : ∀ c ∈ calls, trim c.params.creditIdempotencyKey = creditKey
  succeeds : ∀ c ∈ calls, ∃ r l, (transferBody c.params).run l₀ = .ok (r, l)
  /-- The column `asset` is `VARCHAR(16)`. -/
  asset : ∀ k, l₀.wallets k ≠ none → k.asset.length ≤ 16

/-- The invariant: at most one call searches, it holds every lock, and until it ends the ledger is
the one at the start. -/
structure TransferInv (calls : List TransferCall) (debitKey : String) (l₀ : Ledger)
    (s : LedgerDb × List ℕ) : Prop where
  one : ∀ j ∈ s.2, s.2 = [j]
  isOpen : ∀ j ∈ s.2, s.1.isOpen j = true
  start : s.2 ≠ [] → s.1.committed = l₀.snapshot ∧ findMovementByIdempotency l₀ debitKey = none
  locks : ∀ k j w, s.1.locks k = some (j, w) → j ∈ s.2
  inflight : ∀ x ∈ s.1.inflight, x.1 ∈ s.2
  idle : s.2 = [] → ledgerNow s.1 = l₀ ∨
    ∃ l debit credit, MadeAlone calls l₀ l debit credit ∧ s.1.committed = l.snapshot

/-- What a session may count on while the others move. -/
structure Undisturbed (debitKey : String) (i : ℕ) (s t : LedgerDb × List ℕ) : Prop where
  isOpen : t.1.isOpen i = s.1.isOpen i
  mem : i ∈ t.2 ↔ i ∈ s.2
  committed : i ∈ s.2 → t.1.committed = s.1.committed
  locks : i ∈ s.2 → t.1.locks = s.1.locks
  inflight : i ∈ s.2 → t.1.inflight = s.1.inflight
  nextId : i ∈ s.2 → t.1.nextId = s.1.nextId
  list : i ∈ s.2 → t.2 = s.2
  done : s.1.committed.log.find? (·.idempotencyKey = debitKey) ≠ none →
    t.1.committed = s.1.committed

section discipline

variable {debitKey : String} {i : ℕ} {s t u : LedgerDb × List ℕ}

theorem Undisturbed.refl (debitKey : String) (i : ℕ) (s : LedgerDb × List ℕ) :
    Undisturbed debitKey i s s :=
  ⟨rfl, Iff.rfl, fun _ => rfl, fun _ => rfl, fun _ => rfl, fun _ => rfl, fun _ => rfl, fun _ => rfl⟩

theorem Undisturbed.trans (h : Undisturbed debitKey i s t) (h' : Undisturbed debitKey i t u) :
    Undisturbed debitKey i s u where
  isOpen := h'.isOpen.trans h.isOpen
  mem := h'.mem.trans h.mem
  committed hi := (h'.committed (h.mem.mpr hi)).trans (h.committed hi)
  locks hi := (h'.locks (h.mem.mpr hi)).trans (h.locks hi)
  inflight hi := (h'.inflight (h.mem.mpr hi)).trans (h.inflight hi)
  nextId hi := (h'.nextId (h.mem.mpr hi)).trans (h.nextId hi)
  list hi := (h'.list (h.mem.mpr hi)).trans (h.list hi)
  done hd := by
    have hcommitted := h.done hd
    rw [← hcommitted] at hd
    exact (h'.done hd).trans hcommitted

/-- What a session that does not search notices of a step: its transaction is as open as before. -/
theorem Undisturbed.beside (hs : i ∉ s.2) (ht : i ∉ t.2) (ho : t.1.isOpen i = s.1.isOpen i)
    (hdone : s.1.committed.log.find? (·.idempotencyKey = debitKey) ≠ none →
      t.1.committed = s.1.committed) : Undisturbed debitKey i s t where
  isOpen := ho
  mem := iff_of_false ht hs
  committed hi := absurd hi hs
  locks hi := absurd hi hs
  inflight hi := absurd hi hs
  nextId hi := absurd hi hs
  list hi := absurd hi hs
  done := hdone

/-- The discipline of calls that look up alone. -/
def transferDiscipline (calls : List TransferCall) (debitKey : String) (l₀ : Ledger) :
    Discipline LedgerStmt Unit (LedgerDb × List ℕ) where
  inv := TransferInv calls debitKey l₀
  rely := Undisturbed debitKey
  cond := LooksUpAlone
  good _ _ _ _ _ _ := True
  rely_refl := Undisturbed.refl debitKey
  rely_trans _ _ _ _ h h' := h.trans h'

/-- The session searches: it alone, on the ledger `l` of its own. -/
structure Searching (l₀ l : Ledger) (i : ℕ) (s : LedgerDb × List ℕ) : Prop where
  list : s.2 = [i]
  inside : Inside i l₀.snapshot l.snapshot l.nextMovementId s.1

/-- The session has found the keys in the committed ledger `l`. -/
structure KeysFound (l : Ledger) (i : ℕ) (s : LedgerDb × List ℕ) : Prop where
  isOpen : s.1.isOpen i = true
  notSearching : i ∉ s.2
  committed : s.1.committed = l.snapshot

theorem Searching.mem {l₀ l : Ledger} (h : Searching l₀ l i s) : i ∈ s.2 := by
  rw [h.list]
  exact List.mem_singleton_self i

theorem Searching.stable {l₀ l : Ledger} (h : Searching l₀ l i s)
    (hr : Undisturbed debitKey i s t) : Searching l₀ l i t where
  list := (hr.list h.mem).trans h.list
  inside := h.inside.congr hr.isOpen (hr.committed h.mem) (hr.locks h.mem) (hr.inflight h.mem)
    (hr.nextId h.mem)

theorem Searching.inv {calls : List TransferCall} {l₀ l : Ledger} (h : Searching l₀ l i s)
    (hfresh : findMovementByIdempotency l₀ debitKey = none) : TransferInv calls debitKey l₀ s where
  one j hj := by
    rw [h.list] at hj ⊢
    rw [List.mem_singleton.mp hj]
  isOpen j hj := by
    rw [h.list] at hj
    rw [List.mem_singleton.mp hj]
    exact h.inside.isOpen
  start _ := ⟨h.inside.committed, hfresh⟩
  locks k j w hk := by
    rw [h.list]
    exact List.mem_singleton.mpr (h.inside.locks k j w hk)
  inflight x hx := by
    rw [h.list]
    exact List.mem_singleton.mpr (h.inside.inflight x hx)
  idle hnil := by simp [h.list] at hnil

theorem Searching.not_mem {l₀ l : Ledger} {j : ℕ} (h : Searching l₀ l i s) (hj : j ≠ i) :
    j ∉ s.2 := by
  rw [h.list]
  exact fun hmem => hj (List.mem_singleton.mp hmem)

theorem KeysFound.stable {l : Ledger} (h : KeysFound l i s)
    (hkey : findMovementByIdempotency l debitKey ≠ none) (hr : Undisturbed debitKey i s t) :
    KeysFound l i t where
  isOpen := hr.isOpen.trans h.isOpen
  notSearching := fun hmem => h.notSearching (hr.mem.mp hmem)
  committed := by
    refine (hr.done ?_).trans h.committed
    rw [h.committed]
    exact hkey

end discipline

/-! ### The keys in the ledger a call makes -/

section keys

variable {calls : List TransferCall} {debitKey creditKey : String} {l₀ l : Ledger}
  {debit credit : Movement}

/-- The legs of a transfer are found under their keys. -/
theorem MadeAlone.found (h : MadeAlone calls l₀ l debit credit)
    (hr : Replays calls debitKey creditKey l₀) :
    findMovementByIdempotency l debitKey = some debit ∧
      findMovementByIdempotency l creditKey = some credit := by
  obtain ⟨c, hc, dup, hrun⟩ := h
  rw [← hr.debitKey c hc, ← hr.creditKey c hc]
  rcases transferBody_ok hrun with ⟨hd, hcr, rfl⟩ | ⟨amount, ht, hpair, rfl⟩
  · exact ⟨hd, hcr⟩
  · cases hpair
    have hclash := ht.moves.creditFresh _ List.mem_cons_self
    simp only [Movement.clashes, Bool.or_eq_false_iff, decide_eq_false_iff_not] at hclash
    have hdebitKey : ((c.params.move amount).debit l₀).idempotencyKey =
        trim c.params.debitIdempotencyKey := rfl
    rw [hdebitKey] at hclash
    constructor
    · unfold findMovementByIdempotency AvailableMove.moved
      simp only [Ledger.insert_movements]
      rw [List.find?_cons_of_neg (by simpa using hclash.1), List.find?_cons_of_pos (by simp; rfl)]
    · unfold findMovementByIdempotency AvailableMove.moved
      simp only [Ledger.insert_movements]
      rw [List.find?_cons_of_pos (by simp; rfl)]

end keys

/-! ### The call of one session -/

section call

variable {calls : List TransferCall} {debitKey creditKey : String} {l₀ l l' : Ledger} {i : ℕ}
  {β : Type}

/-- A session that searches goes on in its own ledger, and nobody notices. -/
theorem triple_searching {st : LedgerStmt (Except LedgerFailure β)} {b : β}
    (h : Yields ledgerSchema st l.snapshot l.nextMovementId b l'.snapshot l'.nextMovementId) :
    Prog.Triple transferMachine (transferDiscipline calls debitKey l₀) i (Searching l₀ l i)
      (stmt st) (fun a s => a = b ∧ Searching l₀ l' i s) fun _ _ => False := by
  refine Prog.Triple.perform (fun s t hs hr => hs.stable hr) fun s hs hinv _ _ r t he => ?_
  obtain ⟨hexec, hlist⟩ := Machine.keeping_exec he
  obtain ⟨db', hexec', hinside, ho⟩ := h i _ s.1 hs.inside
  have heq := Option.some.inj (hexec.symm.trans hexec')
  obtain rfl : r = .ok b := congrArg Prod.fst heq
  obtain rfl : t.1 = db' := congrArg Prod.snd heq
  have hopen : t.1.isOpen i = true := hinside.isOpen
  have ht : t.2 = [i] := by
    rw [hlist, hs.list]
    unfold searching
    rw [if_neg (by simp [hopen])]
    split
    · simp
    · rfl
  have hsearching : Searching l₀ l' i t := ⟨ht, hinside⟩
  have hfresh := (hinv.start (by simp [hs.list])).2
  refine ⟨trivial, hsearching.inv hfresh, fun j hj => ?_, rfl, hsearching⟩
  exact .beside (hs.not_mem hj) (hsearching.not_mem hj) (congrFun ho j) fun _ =>
    hinside.committed.trans hs.inside.committed.symm

/-- A row that is there may be set to itself. -/
theorem Ledger.setRow_of_eq {k : WalletKey} {row : WalletAccount} (h : l.wallets k = some row) :
    l.setRow k row = l := by
  rw [Ledger.setRow, ← h, Function.update_eq_self]

theorem triple_ensure {k : WalletKey} (hasset : l.wallets k = none → k.asset.length ≤ 16) :
    Prog.Triple transferMachine (transferDiscipline calls debitKey l₀) i (Searching l₀ l i)
      (ensureWallet k) (fun row s => row = l.row k ∧ Searching l₀ (l.setRow k (l.row k)) i s)
      fun _ _ => False := by
  unfold ensureWallet
  refine Prog.Triple.bind (triple_searching yields_read) fun b => Prog.Triple.assume fun hb => ?_
  have hb' : b = l.wallets k := hb
  subst hb'
  cases hk : l.wallets k with
  | some row =>
      have hrow : l.row k = row := by simp [Ledger.row, hk]
      refine Prog.Triple.pure fun s hs => ⟨hrow.symm, ?_⟩
      rw [hrow, Ledger.setRow_of_eq hk]
      exact hs
  | none =>
      have hrow : l.row k = .fresh := by simp [Ledger.row, hk]
      have hcheck : ledgerSchema.checkRow k .fresh = .ok () := by
        have hfresh : checkRow WalletAccount.fresh.balance = .ok () := by decide +kernel
        simp only [ledgerSchema, if_neg (not_lt.mpr (hasset hk)), hfresh]
      have hy : Yields ledgerSchema (.upsert k .fresh) l.snapshot l.nextMovementId .fresh
          (l.setRow k .fresh).snapshot (l.setRow k .fresh).nextMovementId :=
        yields_upsert hk hcheck
      rw [hrow]
      exact triple_searching hy

theorem triple_lockBoth {src dst : WalletKey} {srcFirst : Bool} {srcRow dstRow : WalletAccount}
    (hs : l.wallets src = some srcRow) (hr : l.wallets dst = some dstRow) :
    Prog.Triple transferMachine (transferDiscipline calls debitKey l₀) i (Searching l₀ l i)
      (lockBoth src dst srcFirst) (fun rows s => rows = (srcRow, dstRow) ∧ Searching l₀ l i s)
      fun _ _ => False := by
  unfold lockBoth
  refine Prog.Triple.ite (fun _ => ?_) fun _ => ?_
  · refine Prog.Triple.bind (triple_searching (yields_lock hs)) fun a => ?_
    refine Prog.Triple.assume fun ha => ?_
    refine Prog.Triple.bind (triple_searching (yields_lock hr)) fun b => ?_
    refine Prog.Triple.assume fun hb => Prog.Triple.pure fun s h => ⟨?_, h⟩
    rw [ha, hb]
  · refine Prog.Triple.bind (triple_searching (yields_lock hr)) fun b => ?_
    refine Prog.Triple.assume fun hb => ?_
    refine Prog.Triple.bind (triple_searching (yields_lock hs)) fun a => ?_
    refine Prog.Triple.assume fun ha => Prog.Triple.pure fun s h => ⟨?_, h⟩
    rw [ha, hb]

/-- The rows and movements of an admitted transfer go through the constraints. -/
theorem triple_transferRows {p : TransferParams} {amount : ℚ} (h : Admits p amount l₀)
    (hasset : p.sender.asset.length ≤ 16) :
    Prog.Triple transferMachine (transferDiscipline calls debitKey l₀) i
      (Searching l₀ ((l₀.setRow p.sender (l₀.row p.sender)).setRow p.recipient
        (l₀.row p.recipient)) i)
      (transferRows p amount (l₀.row p.sender) (l₀.row p.recipient))
      (fun r s => r = ⟨(p.move amount).debit l₀, (p.move amount).credit l₀, false⟩ ∧
        Searching l₀ ((p.move amount).moved l₀) i s) fun _ _ => False := by
  have hne : p.recipient ≠ p.sender := fun heq => h.orgs (congrArg WalletKey.orgId heq).symm
  have hcheck : ∀ (k : WalletKey) (row : WalletAccount), k.asset.length ≤ 16 →
      checkRow row.balance = .ok () → ledgerSchema.checkRow k row = .ok () := by
    intro k row hk hrow
    simp only [ledgerSchema, if_neg (not_lt.mpr hk), hrow]
  -- the tables the four statements leave, one after another
  let l₁ := (l₀.setRow p.sender (l₀.row p.sender)).setRow p.recipient (l₀.row p.recipient)
  let l₂ := l₁.setRow p.sender ((p.move amount).srcRow l₀)
  let l₃ := l₂.setRow p.recipient ((p.move amount).dstRow l₀)
  have hmoved : (l₃.insert ((p.move amount).debit l₀)).insert ((p.move amount).credit l₀) =
      (p.move amount).moved l₀ := by
    unfold AvailableMove.moved
    exact congrArg (fun l => (Ledger.insert l _).insert _) Ledger.setRow_after_ensure
  have hsrc : Yields ledgerSchema (.update p.sender ((p.move amount).srcRow l₀)) l₁.snapshot
      l₁.nextMovementId () l₂.snapshot l₂.nextMovementId := by
    have hrow : l₁.snapshot.rows p.sender = some (l₀.row p.sender) := by
      simp [l₁, Ledger.snapshot, Ledger.setRow, Function.update_of_ne hne.symm]
    exact yields_update hrow (hcheck _ _ hasset h.srcRow)
  have hdst : Yields ledgerSchema (.update p.recipient ((p.move amount).dstRow l₀)) l₂.snapshot
      l₂.nextMovementId () l₃.snapshot l₃.nextMovementId := by
    have hrow : l₂.snapshot.rows p.recipient = some (l₀.row p.recipient) := by
      simp [l₁, l₂, Ledger.snapshot, Ledger.setRow, Function.update_of_ne hne]
    exact yields_update hrow (hcheck _ _ hasset h.dstRow)
  have hdebit : Yields ledgerSchema (.insert ((p.move amount).debitEntry (l₀.row p.sender)))
      l₃.snapshot l₃.nextMovementId ((p.move amount).debit l₀)
      (l₃.insert ((p.move amount).debit l₀)).snapshot
      (l₃.insert ((p.move amount).debit l₀)).nextMovementId :=
    yields_insert h.debit h.moves.debitFresh
  have hcredit : Yields ledgerSchema (.insert ((p.move amount).creditEntry (l₀.row p.recipient)))
      (l₃.insert ((p.move amount).debit l₀)).snapshot
      (l₃.insert ((p.move amount).debit l₀)).nextMovementId ((p.move amount).credit l₀)
      ((l₃.insert ((p.move amount).debit l₀)).insert ((p.move amount).credit l₀)).snapshot
      ((l₃.insert ((p.move amount).debit l₀)).insert ((p.move amount).credit l₀)).nextMovementId :=
    yields_insert h.credit h.moves.creditFresh
  have hsender : (l₀.row p.sender).status = .active := h.moves.srcActive
  have hrecipient : (l₀.row p.recipient).status = .active := h.moves.dstActive
  have hguard : ¬ (l₀.row p.sender).read.available < amount := h.moves.guarded
  unfold transferRows
  dsimp only
  rw [if_neg (not_not.mpr hsender), if_neg (not_not.mpr hrecipient), if_neg hguard]
  refine Prog.Triple.bind (triple_searching hsrc) fun _ => Prog.Triple.assume fun _ => ?_
  refine Prog.Triple.bind (triple_searching hdst) fun _ => Prog.Triple.assume fun _ => ?_
  refine Prog.Triple.bind (triple_searching hdebit) fun debit => Prog.Triple.assume fun hd => ?_
  refine Prog.Triple.bind (triple_searching hcredit) fun credit => Prog.Triple.assume fun hc => ?_
  refine Prog.Triple.pure fun s hs => ⟨by rw [hd, hc], ?_⟩
  rw [← hmoved]
  exact hs

/-- The statements after neither key was found move the money. -/
theorem triple_transferWallets {p : TransferParams} {senderFirst : Bool} {amount : ℚ}
    (h : Admits p amount l₀) (hasset : p.sender.asset.length ≤ 16) :
    Prog.Triple transferMachine (transferDiscipline calls debitKey l₀) i (Searching l₀ l₀ i)
      (transferWallets p amount senderFirst)
      (fun r s => r = ⟨(p.move amount).debit l₀, (p.move amount).credit l₀, false⟩ ∧
        Searching l₀ ((p.move amount).moved l₀) i s) fun _ _ => False := by
  have hne : p.recipient ≠ p.sender := fun heq =>
    h.orgs (congrArg WalletKey.orgId heq).symm
  have hsender : (l₀.row p.sender).status = .active := h.moves.srcActive
  have hrecipient : (l₀.row p.recipient).status = .active := h.moves.dstActive
  unfold transferWallets
  refine Prog.Triple.bind (triple_ensure fun _ => hasset) fun a => Prog.Triple.assume fun ha => ?_
  refine Prog.Triple.bind (triple_ensure fun _ => hasset) fun b => Prog.Triple.assume fun hb => ?_
  rw [Ledger.row_setRow_row] at hb
  rw [Ledger.row_setRow_row, ha, hb, if_neg (not_not.mpr hsender), if_neg (not_not.mpr hrecipient)]
  have hsrc : ((l₀.setRow p.sender (l₀.row p.sender)).setRow p.recipient
      (l₀.row p.recipient)).wallets p.sender = some (l₀.row p.sender) := by
    simp [Ledger.setRow, Function.update_of_ne hne.symm]
  have hdst : ((l₀.setRow p.sender (l₀.row p.sender)).setRow p.recipient
      (l₀.row p.recipient)).wallets p.recipient =
        some (l₀.row p.recipient) := by
    simp [Ledger.setRow]
  refine Prog.Triple.bind (triple_lockBoth hsrc hdst) fun rows => ?_
  refine Prog.Triple.assume fun hrows => ?_
  rw [hrows]
  exact triple_transferRows h hasset

/-! ### Looking the keys up -/

/-- The session's transaction is open and has looked nothing up. -/
structure Begun (i : ℕ) (s : LedgerDb × List ℕ) : Prop where
  isOpen : s.1.isOpen i = true
  notSearching : i ∉ s.2

/-- The session is not in a transaction. -/
structure Closed (i : ℕ) (s : LedgerDb × List ℕ) : Prop where
  isOpen : s.1.isOpen i = false
  notSearching : i ∉ s.2

/-- What a call has done when it has returned `pair`: it is in the committed ledger. -/
def Ended (calls : List TransferCall) (l₀ : Ledger) (pair : PostedPair)
    (s : LedgerDb × List ℕ) : Prop :=
  ∃ l, MadeAlone calls l₀ l pair.debit pair.credit ∧ s.1.committed = l.snapshot

/-- What a call is about to commit when its body returns `pair`. -/
def Committing (calls : List TransferCall) (l₀ : Ledger) (i : ℕ) (pair : PostedPair)
    (s : LedgerDb × List ℕ) : Prop :=
  ∃ l, MadeAlone calls l₀ l pair.debit pair.credit ∧ (Searching l₀ l i s ∨ KeysFound l i s)

/-- Nobody searches in a database whose committed ledger has the keys. -/
theorem TransferInv.quiet {s : LedgerDb × List ℕ} (h : TransferInv calls debitKey l₀ s)
    (hcommitted : s.1.committed = l.snapshot) (hkey : findMovementByIdempotency l debitKey ≠ none) :
    s.2 = [] := by
  by_contra hne
  obtain ⟨hstart, hfresh⟩ := h.start hne
  have hlog : l.movements = l₀.movements := congrArg Snapshot.log (hcommitted.symm.trans hstart)
  unfold findMovementByIdempotency at hkey hfresh
  rw [hlog] at hkey
  exact hkey hfresh

theorem TransferInv.free {s : LedgerDb × List ℕ} (h : TransferInv calls debitKey l₀ s)
    (hnil : s.2 = []) : Free s.1 where
  locks k := by
    cases hk : s.1.locks k with
    | none => rfl
    | some x =>
        have hmem := h.locks k x.1 x.2 hk
        simp [hnil] at hmem
  inflight := by
    refine List.eq_nil_iff_forall_not_mem.mpr fun x hx => ?_
    have hmem := h.inflight x hx
    simp [hnil] at hmem

/-- The first look-up: the call found its debit, or it searches alone. -/
theorem triple_findDebit (hr : Replays calls debitKey creditKey l₀) {c : TransferCall}
    (hc : c ∈ calls) :
    Prog.Triple transferMachine (transferDiscipline calls debitKey l₀) i (Begun i)
      (stmt (.find (·.idempotencyKey = debitKey)))
      (fun found s => match found with
        | none => findMovementByIdempotency l₀ debitKey = none ∧ Searching l₀ l₀ i s
        | some debit => ∃ l credit, MadeAlone calls l₀ l debit credit ∧ KeysFound l i s)
      fun _ _ => False := by
  have hstable : ∀ s t, Begun i s → Undisturbed debitKey i s t → Begun i t := fun s t hs hu =>
    ⟨hu.isOpen.trans hs.isOpen, fun hmem => hs.notSearching (hu.mem.mp hmem)⟩
  refine Prog.Triple.perform hstable fun s hs hinv _ hcond r t he => ?_
  obtain ⟨hexec, hlist⟩ := Machine.keeping_exec he
  have hown : s.1.own i = [] := by
    refine List.eq_nil_iff_forall_not_mem.mpr fun e he' => ?_
    exact hs.notSearching (hinv.inflight _ (mem_own.mp he'))
  have hexec' : some ((.ok (s.1.committed.log.find? (·.idempotencyKey = debitKey)), s.1) :
      Except LedgerFailure (Option Movement) × LedgerDb) = some (r, t.1) := by
    rw [← hexec]
    simp [machine, exec, hs.isOpen, hown]
  obtain ⟨rfl, hdb⟩ := Prod.mk.inj (Option.some.inj hexec')
  cases hfind : s.1.committed.log.find? (·.idempotencyKey = debitKey) with
  | none =>
      have halone : ∀ j ∈ s.2, j = i := hcond (by rw [hown]; exact hfind)
      have hnil : s.2 = [] := by
        refine List.eq_nil_iff_forall_not_mem.mpr fun j hj => ?_
        exact hs.notSearching (halone j hj ▸ hj)
      -- a ledger some call has made has the key
      have hnow : ledgerNow s.1 = l₀ := by
        rcases hinv.idle hnil with h | ⟨l, debit, credit, hmade, hcommitted⟩
        · exact h
        · have hfound : l.snapshot.log.find? (·.idempotencyKey = debitKey) = some debit :=
            (hmade.found hr).1
          rw [hcommitted, hfound] at hfind
          cases hfind
      have hfresh : findMovementByIdempotency l₀ debitKey = none := by
        rw [← hnow]
        exact hfind
      have hsearching : Searching l₀ l₀ i t := by
        refine ⟨?_, ?_⟩
        · rw [hlist, hnil, hfind, ← hdb]
          unfold searching
          rw [if_neg (by simp [hs.isOpen])]
          rfl
        · rw [← hdb, ← hnow]
          exact (hinv.free hnil).inside hs.isOpen
      refine ⟨trivial, hsearching.inv hfresh, fun j hj => ?_, hfresh, hsearching⟩
      exact .beside (by simp [hnil]) (hsearching.not_mem hj) (by rw [hdb]) fun _ => by rw [hdb]
  | some debit =>
      have hsame : t = s := by
        refine Prod.ext hdb.symm ?_
        rw [hlist, hfind, ← hdb]
        unfold searching
        rw [if_neg (by simp [hs.isOpen])]
      have hnil : s.2 = [] := by
        by_contra hne
        obtain ⟨hstart, hfresh⟩ := hinv.start hne
        have hnone : l₀.snapshot.log.find? (·.idempotencyKey = debitKey) = none := hfresh
        rw [hstart, hnone] at hfind
        cases hfind
      subst hsame
      refine ⟨trivial, hinv, fun j _ => .refl debitKey j t, ?_⟩
      rcases hinv.idle hnil with h | ⟨l, debit', credit, hmade, hcommitted⟩
      · obtain ⟨pair, l, hrun⟩ := hr.succeeds c hc
        have hkey : findMovementByIdempotency l₀ (trim c.params.debitIdempotencyKey) =
            some debit := by
          rw [hr.debitKey c hc, ← h]
          exact hfind
        rcases transferBody_ok hrun with ⟨hd, -, rfl⟩ | ⟨amount, ht, -⟩
        · obtain rfl : debit = pair.debit := Option.some.inj (hkey.symm.trans hd)
          refine ⟨l, pair.credit, ⟨c, hc, pair.duplicate, hrun⟩, hs.isOpen, hs.notSearching, ?_⟩
          rw [← h]
          rfl
        · rw [ht.debitKeyFresh] at hkey
          cases hkey
      · have hfound : l.snapshot.log.find? (·.idempotencyKey = debitKey) = some debit' :=
          (hmade.found hr).1
        obtain rfl : debit = debit' := by
          rw [hcommitted, hfound] at hfind
          exact (Option.some.inj hfind).symm
        exact ⟨l, credit, hmade, hs.isOpen, hs.notSearching, hcommitted⟩

/-- The second look-up of a call that found its debit finds its credit. -/
theorem triple_findCredit (hr : Replays calls debitKey creditKey l₀) {debit credit : Movement}
    (hmade : MadeAlone calls l₀ l debit credit) :
    Prog.Triple transferMachine (transferDiscipline calls debitKey l₀) i (KeysFound l i)
      (stmt (.find (·.idempotencyKey = creditKey)))
      (fun found s => found = some credit ∧ KeysFound l i s) fun _ _ => False := by
  have hkey : findMovementByIdempotency l debitKey ≠ none := by simp [(hmade.found hr).1]
  refine Prog.Triple.perform (fun s t hs hu => hs.stable hkey hu) fun s hs hinv _ _ r t he => ?_
  obtain ⟨hexec, hlist⟩ := Machine.keeping_exec he
  have hfree := hinv.free (hinv.quiet hs.committed hkey)
  have hfind : s.1.committed.log.find? (·.idempotencyKey = creditKey) = some credit := by
    rw [hs.committed]
    exact (hmade.found hr).2
  have hexec' : some ((.ok (some credit), s.1) :
      Except LedgerFailure (Option Movement) × LedgerDb) = some (r, t.1) := by
    rw [← hexec]
    simp [machine, exec, hs.isOpen, Db.own, hfree.inflight, hfind]
  obtain ⟨rfl, hdb⟩ := Prod.mk.inj (Option.some.inj hexec')
  have hsame : t = s := by
    refine Prod.ext hdb.symm ?_
    rw [hlist, ← hdb]
    unfold searching
    rw [if_neg (by simp [hs.isOpen])]
  subst hsame
  exact ⟨trivial, hinv, fun j _ => .refl debitKey j t, rfl, hs⟩

/-- The body of a call that succeeds alone. -/
theorem triple_steps (hr : Replays calls debitKey creditKey l₀) {c : TransferCall}
    (hc : c ∈ calls) :
    Prog.Triple transferMachine (transferDiscipline calls debitKey l₀) i (Begun i)
      (transferSteps c.params c.senderFirst) (Committing calls l₀ i) fun _ _ => False := by
  obtain ⟨r, l, hrun⟩ := hr.succeeds c hc
  obtain ⟨⟨amount, hp⟩, hkeys, horgs⟩ := transferBody_valid hrun
  unfold transferSteps
  rw [hp]
  dsimp only
  rw [if_neg hkeys, if_neg horgs, hr.debitKey c hc, hr.creditKey c hc]
  refine Prog.Triple.bind (triple_findDebit hr hc) fun found => ?_
  cases found with
  | none =>
      refine Prog.Triple.assume fun hfresh => ?_
      rw [← hr.debitKey c hc] at hfresh
      obtain ⟨amount', hadmits, rfl, rfl⟩ := transferBody_new hrun hfresh
      obtain rfl : amount' = amount := Except.ok.inj (hadmits.parsed.symm.trans hp)
      have hasset : c.params.sender.asset.length ≤ 16 := by
        by_cases hnone : l₀.wallets c.params.sender = none
        · exact hadmits.asset (.inl hnone)
        · exact hr.asset _ hnone
      refine Prog.Triple.bind (triple_searching (yields_find _)) fun found => ?_
      refine Prog.Triple.assume fun hfound => ?_
      have hnone : found = none := by
        rw [hfound, ← hr.creditKey c hc]
        exact hadmits.creditKeyFresh
      subst hnone
      refine (triple_transferWallets hadmits hasset).mono (fun _ h => h) ?_ fun _ _ h => h
      rintro pair s ⟨rfl, hs⟩
      exact ⟨_, ⟨c, hc, false, hrun⟩, .inl hs⟩
  | some debit =>
      rintro s ⟨l', credit, hmade, hs⟩
      refine Prog.Triple.bind (triple_findCredit hr hmade) (fun found => ?_) s hs
      refine Prog.Triple.assume fun hfound => ?_
      subst hfound
      exact Prog.Triple.pure fun t ht => ⟨l', hmade, .inr ht⟩

/-- Committing publishes the ledger the call made. -/
theorem triple_commit (hr : Replays calls debitKey creditKey l₀) (pair : PostedPair) :
    Prog.Triple transferMachine (transferDiscipline calls debitKey l₀) i
      (Committing calls l₀ i pair) (stmt .commit) (fun _ s => Ended calls l₀ pair s)
      fun _ _ => False := by
  have hfound : ∀ l, MadeAlone calls l₀ l pair.debit pair.credit →
      findMovementByIdempotency l debitKey ≠ none := by
    intro l hmade
    simp [(hmade.found hr).1]
  refine Prog.Triple.perform ?_ fun s hs hinv _ _ r t he => ?_
  · rintro s t ⟨l, hmade, hs | hs⟩ hu
    · exact ⟨l, hmade, .inl (hs.stable hu)⟩
    · exact ⟨l, hmade, .inr (hs.stable (hfound l hmade) hu)⟩
  obtain ⟨hexec, hlist⟩ := Machine.keeping_exec he
  obtain ⟨l, hmade, hs⟩ := hs
  -- either way the session is alone in the database, and sees `l`
  have hinside : ∃ n, Inside i s.1.committed l.snapshot n s.1 ∧ (∀ j ∈ s.2, j = i) ∧
      (s.1.committed.log.find? (·.idempotencyKey = debitKey) ≠ none →
        l.snapshot = s.1.committed) := by
    rcases hs with hs | hs
    · refine ⟨_, hs.inside.committed ▸ hs.inside, fun j hj => ?_, fun hkey => ?_⟩
      · rw [hs.list] at hj
        exact List.mem_singleton.mp hj
      · rw [hs.inside.committed] at hkey
        exact absurd (hinv.start (by simp [hs.list])).2 hkey
    · have hnil := hinv.quiet hs.committed (hfound l hmade)
      refine ⟨s.1.nextId, ?_, fun j hj => ?_, fun _ => ?_⟩
      · rw [← hs.committed]
        exact (hinv.free hnil).inside hs.isOpen
      · simp [hnil] at hj
      · exact hs.committed.symm
  obtain ⟨n, hinside, hlone, hdone⟩ := hinside
  obtain ⟨hexec', hcommitted, -, hfree⟩ := hinside.commit (S := ledgerSchema)
  obtain ⟨rfl, hdb⟩ := Prod.mk.inj (Option.some.inj (hexec.symm.trans hexec'))
  have hopen : t.1.isOpen i = false := by
    rw [hdb]
    simp [Db.finish, Db.abort]
  have hnil : t.2 = [] := by
    rw [hlist]
    unfold searching
    rw [if_pos hopen, List.filter_eq_nil_iff]
    intro j hj
    simp [hlone j hj]
  have hafter : t.1.committed = l.snapshot := by
    rw [hdb]
    exact hcommitted
  refine ⟨trivial, ⟨?_, ?_, ?_, ?_, ?_, ?_⟩, fun j hj => ?_, l, hmade, hafter⟩
  · simp [hnil]
  · simp [hnil]
  · simp [hnil]
  · intro k j w hk
    rw [hdb, hfree.locks k] at hk
    cases hk
  · intro x hx
    rw [hdb, hfree.inflight] at hx
    cases hx
  · exact fun _ => .inr ⟨l, _, _, hmade, hafter⟩
  · refine .beside (fun hmem => hj (hlone j hmem)) (by simp [hnil]) ?_ fun hkey => ?_
    · rw [hdb]
      simp [Db.finish, Db.abort, Function.update_of_ne hj]
    · rw [hafter]
      exact hdone hkey

theorem triple_begin :
    Prog.Triple transferMachine (transferDiscipline calls debitKey l₀) i (Closed i)
      (ExceptT.lift (Prog.perform .begin) : ExceptT LedgerFailure (Prog LedgerStmt) Unit)
      (fun _ => Begun i) fun _ _ => False := by
  intro s hs
  rw [Prog.wpe_lift]
  refine (Prog.wp_perform _ _ _ _ _ _).mpr fun t hu hinv _ _ r u he => ?_
  obtain ⟨hexec, hlist⟩ := Machine.keeping_exec he
  have ht : Closed i t := ⟨hu.isOpen.trans hs.isOpen, fun hmem => hs.notSearching (hu.mem.mp hmem)⟩
  have hdb : u.1 = { t.1 with isOpen := Function.update t.1.isOpen i true } := by
    exact (congrArg Prod.snd (Option.some.inj hexec)).symm
  have hopen : u.1.isOpen i = true := by simp [hdb]
  have hsame : u.2 = t.2 := by
    rw [hlist]
    unfold searching
    rw [if_neg (by simp [hopen])]
  have hnow : ledgerNow u.1 = ledgerNow t.1 := by rw [hdb]; rfl
  have hcommitted : u.1.committed = t.1.committed := by rw [hdb]
  refine ⟨trivial, ⟨?_, fun j hj => ?_, ?_, ?_, ?_, ?_⟩, fun j hj => ?_, hopen, ?_⟩
  · rw [hsame]
    exact hinv.one
  · rw [hsame] at hj
    have hne : j ≠ i := fun hji => ht.notSearching (hji ▸ hj)
    simpa [hdb, Function.update_of_ne hne] using hinv.isOpen j hj
  · rw [hsame, hcommitted]
    exact hinv.start
  · rw [hsame, hdb]
    exact hinv.locks
  · rw [hsame, hdb]
    exact hinv.inflight
  · rw [hsame, hnow, hcommitted]
    exact hinv.idle
  · refine ⟨by simp [hdb, Function.update_of_ne hj], by rw [hsame], ?_, ?_, ?_, ?_, ?_, ?_⟩
    · exact fun _ => hcommitted
    · exact fun _ => by rw [hdb]
    · exact fun _ => by rw [hdb]
    · exact fun _ => by rw [hdb]
    · exact fun _ => hsame
    · exact fun _ => hcommitted
  · rw [hsame]
    exact ht.notSearching

/-- A call that succeeds alone succeeds, and returns what is committed. -/
theorem wp_program (hr : Replays calls debitKey creditKey l₀) {c : TransferCall} (hc : c ∈ calls)
    {s : LedgerDb × List ℕ} (hs : Closed i s) :
    Prog.wp transferMachine (transferDiscipline calls debitKey l₀) i c.program
      (fun r t => ∃ pair, r = .ok pair ∧ Ended calls l₀ pair t) s := by
  have hcall : Prog.Triple transferMachine (transferDiscipline calls debitKey l₀) i (Closed i)
      (transact (transferSteps c.params c.senderFirst)) (Ended calls l₀) fun _ _ => False := by
    unfold transact
    refine Prog.Triple.bind triple_begin fun _ => ?_
    refine Prog.Triple.tryCatch (F := fun _ _ => False) ?_ fun e s hs => hs.elim
    refine Prog.Triple.bind (triple_steps hr hc) fun pair => ?_
    refine Prog.Triple.bind (triple_commit hr pair) fun _ => ?_
    exact Prog.Triple.pure fun _ ht => ht
  refine Prog.wp_mono (fun r t ht => ?_) _ _ (hcall s hs)
  cases r with
  | ok pair => exact ⟨pair, rfl, ht⟩
  | error e => exact ht.elim

end call

/-! ### Every run -/

/-- **Replayed transfers.** In every run of calls with one pair of keys, each of which alone would
succeed, the money moves once and every call returns the same two movements, as long as each
look-up that finds nothing is made while no other call is past such a look-up with its transaction
open. -/
theorem transferred_once (calls : List TransferCall) (debitKey creditKey : String) (db : LedgerDb)
    (hdb : Unused db) (hr : Replays calls debitKey creditKey (ledgerNow db))
    (sched : List (ℕ × Unit))
    (hcond : Pool.Along transferMachine (Pool.CondAt LooksUpAlone)
      (Pool.beside ⟨db, calls.map TransferCall.program⟩ []) sched) :
    TransferredOnce calls (ledgerNow db)
      (Pool.run (machine ledgerSchema) ⟨db, calls.map TransferCall.program⟩ sched) := by
  have hstart : Pool.Verified transferMachine (transferDiscipline calls debitKey (ledgerNow db))
      (fun _ r t => ∃ pair, r = .ok pair ∧ Ended calls (ledgerNow db) pair t)
      (Pool.beside ⟨db, calls.map TransferCall.program⟩ []) := by
    refine Pool.Verified.start ⟨?_, ?_, ?_, ?_, ?_, ?_⟩ fun i q hq => ?_
    · simp
    · simp
    · simp
    · intro k j w hk
      simp [hdb.noLocks] at hk
    · intro x hx
      simp [hdb.noInflight] at hx
    · exact fun _ => .inl rfl
    · rw [List.getElem?_map] at hq
      obtain ⟨c, hc, rfl⟩ := Option.map_eq_some_iff.mp hq
      exact wp_program hr (List.mem_of_getElem? hc) ⟨hdb.closed i, List.not_mem_nil⟩
  obtain ⟨hv, -⟩ := Pool.run_sound hstart sched hcond
  have hrun : (Pool.run transferMachine (Pool.beside ⟨db, calls.map TransferCall.program⟩ [])
      sched).bare = Pool.run (machine ledgerSchema) ⟨db, calls.map TransferCall.program⟩ sched :=
    Pool.keeping_run _ sched
  rw [← hrun]
  have hreturned : ∀ (i : ℕ) r,
      (Pool.run transferMachine (Pool.beside ⟨db, calls.map TransferCall.program⟩ [])
        sched).procs[i]? = some (.ret r) →
      ∃ pair l, r = .ok pair ∧ MadeAlone calls (ledgerNow db) l pair.debit pair.credit ∧
        (Pool.run transferMachine (Pool.beside ⟨db, calls.map TransferCall.program⟩ [])
          sched).store.1.committed = l.snapshot := by
    intro i r hi
    obtain ⟨s, ⟨pair, hpair, l, hmade, hcommitted⟩, hu⟩ := hv.result hi
    refine ⟨pair, l, hpair, hmade, (hu.done ?_).trans hcommitted⟩
    have hfound := (hmade.found hr).1
    rw [hcommitted]
    change findMovementByIdempotency l debitKey ≠ none
    simp [hfound]
  refine ⟨?_, hreturned, fun i j r r' hi hj => ?_⟩
  · by_cases hnil : (Pool.run transferMachine
        (Pool.beside ⟨db, calls.map TransferCall.program⟩ []) sched).store.2 = []
    · rcases hv.1.idle hnil with h | h
      · exact .inl (congrArg Ledger.snapshot h)
      · exact .inr h
    · exact .inl (hv.1.start hnil).1
  · obtain ⟨pair, l, hpair, hmade, hl⟩ := hreturned i _ hi
    obtain ⟨pair', l', hpair', hmade', hl'⟩ := hreturned j _ hj
    cases hpair
    cases hpair'
    have hlog : l.movements = l'.movements := congrArg Snapshot.log (hl.symm.trans hl')
    obtain ⟨hd, hc⟩ := hmade.found hr
    obtain ⟨hd', hc'⟩ := hmade'.found hr
    unfold findMovementByIdempotency at hd hc hd' hc'
    rw [hlog] at hd hc
    exact ⟨Option.some.inj (hd.symm.trans hd'), Option.some.inj (hc.symm.trans hc')⟩

/-- Five USDC from one organisation to another. -/
def fiveTransfer : TransferParams :=
  ⟨"sender", "recipient", "test", some 5, none, "group", "debit", "credit", "out", "in"⟩

/-- The sender has ten USDC, the recipient no wallet yet. -/
def richSender : LedgerDb :=
  { emptyDb with committed :=
    ⟨fun k => if k = fiveTransfer.sender then some ⟨.active, ⟨10 ^ 8, 0, 0⟩⟩ else none, []⟩ }

/-- The call, made twice. -/
def fiveTwice : List TransferCall := [⟨fiveTransfer, true⟩, ⟨fiveTransfer, true⟩]

theorem richSender_unused : Unused richSender :=
  ⟨fun _ => rfl, fun _ => rfl, rfl, rfl, List.Pairwise.nil⟩

theorem fiveTwice_replays : Replays fiveTwice "debit" "credit" (ledgerNow richSender) where
  debitKey c hc := by
    simp only [fiveTwice, List.mem_cons, or_self, List.not_mem_nil, or_false] at hc
    rw [hc]
    decide +kernel
  creditKey c hc := by
    simp only [fiveTwice, List.mem_cons, or_self, List.not_mem_nil, or_false] at hc
    rw [hc]
    decide +kernel
  succeeds c hc := by
    simp only [fiveTwice, List.mem_cons, or_self, List.not_mem_nil, or_false] at hc
    rw [hc]
    have hok : ((transferBody fiveTransfer).run (ledgerNow richSender)).toBool = true := by
      decide +kernel
    cases hrun : (transferBody fiveTransfer).run (ledgerNow richSender) with
    | ok r => exact ⟨r.1, r.2, rfl⟩
    | error e =>
        rw [hrun] at hok
        cases hok
  asset k hk := by
    have hsender : k = fiveTransfer.sender := by
      by_contra hne
      exact hk (if_neg hne)
    rw [hsender]
    decide +kernel

/-- The second call has begun when the first is made, and looks the keys up after it. -/
theorem transferred_once_after :
    TransferredOnce fiveTwice (ledgerNow richSender)
      (Pool.run (machine ledgerSchema) ⟨richSender, fiveTwice.map TransferCall.program⟩
        ((1 :: List.replicate 13 0 ++ List.replicate 12 1).map (·, ()))) :=
  transferred_once fiveTwice "debit" "credit" richSender richSender_unused fiveTwice_replays _
    (by decide +kernel)

/-- The second call looks the keys up before the first is made, and fails on the unique index. -/
theorem lost_race_throws :
    Unused richSender ∧ Replays fiveTwice "debit" "credit" (ledgerNow richSender) ∧
      ¬ TransferredOnce fiveTwice (ledgerNow richSender)
        (Pool.run (machine ledgerSchema) ⟨richSender, fiveTwice.map TransferCall.program⟩
          ((List.replicate 3 1 ++ List.replicate 13 0 ++ List.replicate 12 1).map (·, ()))) := by
  refine ⟨richSender_unused, fiveTwice_replays, fun h => ?_⟩
  have hthrown : ((Pool.run (machine ledgerSchema) ⟨richSender, fiveTwice.map TransferCall.program⟩
      ((List.replicate 3 1 ++ List.replicate 13 0 ++ List.replicate 12 1).map (·, ()))).procs[1]?
      ).bind Prog.thrown? = some .uniqueViolation := by
    decide +kernel
  obtain ⟨q, hq, he⟩ := Option.bind_eq_some_iff.mp hthrown
  rw [Prog.eq_ret_of_thrown he] at hq
  obtain ⟨pair, l, hpair, -⟩ := h.returned 1 _ hq
  cases hpair

end DayfiBackend.Infra
