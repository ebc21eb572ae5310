import DayfiBackend.Found.Backend
import DayfiBackend.Infra.CreatePayout
import Mathlib.Data.List.Sort

/-!
# Bulk batches

A bulk batch is a list of items, each of which becomes a payout of its own when the batch is
confirmed. `confirmBulkBatch` checks the batch, marks it as processing and creates the payouts one
by one, each under the key of its item; `cancelBulkBatch` checks the batch and marks it as
cancelled. The batch itself never touches the ledger: the payouts and their settlement are the
programs of `CreatePayout` and `Lifecycle`, embedded statement by statement.

* A batch is identified by its uuid, and found under it and its organisation.
* Labels, codes, the preflight report, instructions and time stamps are left out; the columns of a
  failed item hold what it failed with.
-/

namespace DayfiBackend.Infra.Bulk

open DayfiBackend.Found DayfiBackend.Found.Binary64

/-! ### Tables -/

inductive BatchStatus where
  | draft
  | validating
  | ready
  | processing
  | partiallyCompleted
  | completed
  | failed
  | cancelled
  deriving DecidableEq, Repr

inductive ItemStatus where
  | pending
  | invalid
  | ready
  | processing
  | completed
  | failed
  | cancelled
  | skipped
  deriving DecidableEq, Repr

/-- What the service throws. -/
inductive BulkError where
  | database
  | payout (e : Err)
  | notFound
  | notReady
  | emptyReady
  | insufficientBalance
  | invalidState
  deriving DecidableEq, Repr

/-- What `refreshBatchAggregates` sums up; amounts in USDC. -/
structure Aggregate where
  completedUsdc : ℚ := 0
  releasedUsdc : ℚ := 0
  lockedUsdc : ℚ := 0
  completedCount : ℕ := 0
  failedCount : ℕ := 0
  processingCount : ℕ := 0
  deriving DecidableEq, Repr

/-- A row of `infra_bulk_batches`. -/
structure BatchRow where
  orgId : String
  environment : String
  status : BatchStatus
  totals : Aggregate := {}
  deriving DecidableEq, Repr

/-- A row of `infra_bulk_items`, amounts as the decimals of their columns. -/
structure ItemRow where
  id : String
  batchId : String
  lineNumber : ℕ
  recipientId : Option String
  destinationId : Option String := none
  amount : ℚ
  currency : String
  usdcAmount : Option ℚ := none
  status : ItemStatus
  validationErrors : List BulkError := []
  simulateError : Option BulkError := none
  payoutTransactionId : Option ℕ := none
  deriving DecidableEq, Repr

/-- The tables: the batches and items, beside those of the payouts. -/
structure Tables where
  payouts : Store
  batches : String → Option BatchRow
  items : List ItemRow

/-- `Number(v || 0)`, zero when it is not finite. -/
def numOr0 (v : Option ℚ) : ℚ := nearest (v.getD 0)

/-- A number bound to a `NUMERIC(20,7)` column, as the decimal it stores. -/
def column (x : ℚ) : ℚ := usdc (toNumeric x)

/-! ### Statements -/

/-- The answer of a statement. -/
abbrev Ans (α : Type) := Except BulkError α

/-- The statements on batches and items. -/
inductive BatchSql : Type → Type
  | loadBatch (batchId orgId : String) : BatchSql (Ans (Option BatchRow))
  | listItems (batchId : String) : BatchSql (Ans (List ItemRow))
  /-- `SET status = 'processing', confirmed_at = …`. -/
  | beginBatch (batchId : String) : BatchSql (Ans Unit)
  /-- `SET status = 'cancelled'`. -/
  | cancelBatch (batchId : String) : BatchSql (Ans Unit)
  | cancelItems (batchId : String) : BatchSql (Ans Unit)
  | recordTotals (batchId : String) (status : BatchStatus) (totals : Aggregate) :
      BatchSql (Ans Unit)
  | updateItem (id : String) (f : ItemRow → ItemRow) : BatchSql (Ans Unit)

/-- The statements of the service, with those of the payouts and their settlement. -/
inductive Query (β : Type) : Type
  | payouts (st : Sql β)
  | batch (st : BatchSql β)

/-- Set the columns of one batch. -/
def Tables.setBatch (s : Tables) (batchId : String) (f : BatchRow → BatchRow) : Tables :=
  { s with batches := Function.update s.batches batchId ((s.batches batchId).map f) }

/-- Set the columns of some items. -/
def Tables.setItems (s : Tables) (which : ItemRow → Bool) (f : ItemRow → ItemRow) : Tables :=
  { s with items := s.items.map fun item => if which item then f item else item }

/-- One statement on the batches. -/
def BatchSql.run {β : Type} (st : BatchSql β) (s : Tables) : β × Tables :=
  match st with
  | .loadBatch batchId orgId => (.ok ((s.batches batchId).filter (·.orgId = orgId)), s)
  | .listItems batchId =>
      (.ok ((s.items.filter (·.batchId = batchId)).insertionSort fun a b =>
        a.lineNumber ≤ b.lineNumber), s)
  | .beginBatch batchId => (.ok (), s.setBatch batchId fun b => { b with status := .processing })
  | .cancelBatch batchId => (.ok (), s.setBatch batchId fun b => { b with status := .cancelled })
  | .cancelItems batchId =>
      (.ok (), s.setItems
        (fun item => item.batchId = batchId && item.status ∈ [.pending, .ready, .invalid])
        fun item => { item with status := .cancelled })
  | .recordTotals batchId status totals =>
      (.ok (), s.setBatch batchId fun b =>
        { b with
          status
          totals := { totals with
            completedUsdc := column totals.completedUsdc
            releasedUsdc := column totals.releasedUsdc
            lockedUsdc := column totals.lockedUsdc } })
  | .updateItem id f => (.ok (), s.setItems (·.id = id) f)

/-- The answer of a statement that fails. -/
def BatchSql.fail {β : Type} (st : BatchSql β) (e : BulkError) : β :=
  match st with
  | .loadBatch .. | .listItems .. | .beginBatch .. | .cancelBatch .. => .error e
  | .cancelItems .. | .recordTotals .. | .updateItem .. => .error e

/-- One statement of process `i`, when it gets there. -/
def Query.run {β : Type} (i : ℕ) (st : Query β) (o : Outside) (s : Tables) : β × Tables :=
  match st with
  | .payouts st =>
      if o.fault then (st.failed, s)
      else ((st.run i o s.payouts).1, { s with payouts := (st.run i o s.payouts).2 })
  | .batch st => st.run s

def Query.fail {β : Type} (st : Query β) (e : BulkError) : β :=
  match st with
  | .payouts st => st.failed
  | .batch st => st.fail e

/-- The database of the batches. -/
def backend : Backend Query Outside BulkError Tables where
  run i st o s := st.run i o s
  fail st e := st.fail e

/-- A call of the service. -/
abbrev BulkCall := ExceptT BulkError (Prog Query)

/-- One statement on the batches; its failure is thrown. -/
def sql {β : Type} (st : BatchSql (Ans β)) : BulkCall β := Backend.call (Query.batch st)

/-- A call of the payouts. -/
def payouts {β : Type} (p : Call β) : BulkCall β := embedCall Query.payouts BulkError.payout p

/-! ### Reading a batch -/

/-- Source: `infraBulkService.ts` `loadBatch`. -/
def loadBatch (orgId batchId : String) : BulkCall BatchRow := do
  match ← sql (.loadBatch batchId orgId) with
  | none => throw .notFound
  | some batch => pure batch

/-- Source: `infraBulkService.ts` `getBatchWithItems`. -/
def getBatchWithItems (orgId batchId : String) : BulkCall (BatchRow × List ItemRow) := do
  let batch ← loadBatch orgId batchId
  let items ← sql (.listItems batchId)
  pure (batch, items)

/-! ### Totals -/

namespace Aggregate

/-- One more item without a payout. -/
def addUnpaid (a : Aggregate) (status : ItemStatus) : Aggregate :=
  if status = .failed ∨ status = .invalid then { a with failedCount := a.failedCount + 1 } else a

/-- One more payout, by the status of its transaction. -/
def addPayout (a : Aggregate) (status : String) (usdc : ℚ) : ItemStatus × Aggregate :=
  if status.toLower ∈ ["settled", "completed", "success", "successful"] then
    (.completed, { a with
      completedUsdc := nearest (a.completedUsdc + usdc), completedCount := a.completedCount + 1 })
  else if status.toLower ∈ ["failed", "cancelled", "expired", "rejected"] then
    (.failed, { a with
      releasedUsdc := nearest (a.releasedUsdc + usdc), failedCount := a.failedCount + 1 })
  else
    (.processing, { a with
      lockedUsdc := nearest (a.lockedUsdc + usdc), processingCount := a.processingCount + 1 })

/-- The status of the batch. -/
def parentStatus (a : Aggregate) : BatchStatus :=
  if 0 < a.processingCount then .processing
  else if 0 < a.completedCount ∧ a.failedCount = 0 then .completed
  else if 0 < a.completedCount ∧ 0 < a.failedCount then .partiallyCompleted
  else if a.completedCount = 0 ∧ 0 < a.failedCount then .failed
  else .processing

end Aggregate

/-- The loop over the items of a batch. -/
def aggregateItems (orgId : String) : List ItemRow → Aggregate → BulkCall Aggregate
  | [], a => pure a
  | item :: items, a =>
      match item.payoutTransactionId with
      | none => aggregateItems orgId items (a.addUnpaid item.status)
      | some id => do
          match ← payouts (Infra.sql (.loadTx id (some orgId))) with
          | none => aggregateItems orgId items a
          | some tx => do
              let usdc := numOr0 (tx.metadata.usdcAmount <|> item.usdcAmount)
              let r := a.addPayout tx.status usdc
              if r.1 ≠ item.status then do
                sql (.updateItem item.id fun row => { row with status := r.1 })
                aggregateItems orgId items r.2
              else aggregateItems orgId items r.2

/-- Source: `infraBulkService.ts` `refreshBatchAggregates`. -/
def refreshBatchAggregates (orgId batchId : String) : BulkCall (BatchRow × List ItemRow) := do
  let current ← loadBatch orgId batchId
  if current.status = .cancelled then getBatchWithItems orgId batchId
  else do
    let items ← sql (.listItems batchId)
    let totals ← aggregateItems orgId items {}
    sql (.recordTotals batchId totals.parentStatus totals)
    getBatchWithItems orgId batchId

/-! ### Confirming -/

/-- The idempotency key of an item's payout. -/
def itemKey (batchId itemId : String) : String := "bulk:" ++ batchId ++ ":item:" ++ itemId

/-- The payout of an item. -/
def ItemRow.payoutInput (item : ItemRow) (orgId environment batchId : String) :
    CreatePayoutInput where
  orgId := orgId
  env := asEnv environment
  amount := some (numOr0 (some item.amount))
  currency := item.currency
  recipientId := item.recipientId
  destinationId := item.destinationId
  bulkItemId := item.id
  idempotencyKey := itemKey batchId item.id

/-- Settle the payout of an item of a test batch. -/
def simulateItem (orgId : String) (item : ItemRow) (payoutId : ℕ) : BulkCall Unit :=
  tryCatch (do
    let _ ← payouts (simulateSettlement orgId "test" payoutId)
    sql (.updateItem item.id fun row => { row with status := .completed })) fun e =>
  sql (.updateItem item.id fun row => { row with status := .failed, simulateError := some e })

/-- One item of a confirmed batch. -/
def confirmItem (orgId batchId : String) (batch : BatchRow) (autoSimulate : Bool)
    (item : ItemRow) : BulkCall Unit :=
  tryCatch (do
    let payout ← payouts (createPayout (item.payoutInput orgId batch.environment batchId))
    sql (.updateItem item.id fun row =>
      { row with
        payoutTransactionId := some payout.row.id
        status := .processing
        usdcAmount := payout.usdcAmount.map column <|> row.usdcAmount })
    if autoSimulate then simulateItem orgId item payout.row.id else pure ()) fun e =>
  sql (.updateItem item.id fun row => { row with status := .failed, validationErrors := [e] })

/-- The items of a confirmed batch, one by one. -/
def confirmItems (orgId batchId : String) (batch : BatchRow) (autoSimulate : Bool) :
    List ItemRow → BulkCall Unit
  | [] => pure ()
  | item :: items => do
      confirmItem orgId batchId batch autoSimulate item
      confirmItems orgId batchId batch autoSimulate items

/-- Source: `infraBulkService.ts` `confirmBulkBatch`. -/
def confirmBulkBatch (orgId batchId : String) (autoSimulateTest : Bool) :
    BulkCall (BatchRow × List ItemRow) := do
  let batch ← loadBatch orgId batchId
  if batch.status ≠ .ready then throw .notReady
  else do
    let all ← sql (.listItems batchId)
    let items := all.filter (·.status = .ready)
    if items = [] then throw .emptyReady
    else do
      let required := items.foldl (fun sum item => nearest (sum + numOr0 item.usdcAmount)) 0
      let balance ← payouts (Infra.sql (.getOrgBalance orgId (asEnv batch.environment)))
      if nearest (balance.available + nearest (1 / 10 ^ 9)) < required then
        throw .insufficientBalance
      else do
        sql (.beginBatch batchId)
        let autoSimulate := autoSimulateTest && asEnv batch.environment = "test"
        confirmItems orgId batchId batch autoSimulate items
        refreshBatchAggregates orgId batchId

/-! ### Cancelling -/

/-- Source: `infraBulkService.ts` `cancelBulkBatch`. -/
def cancelBulkBatch (orgId batchId : String) : BulkCall (BatchRow × List ItemRow) := do
  let batch ← loadBatch orgId batchId
  if batch.status ∉ [.draft, .ready, .validating] then throw .invalidState
  else do
    sql (.cancelBatch batchId)
    sql (.cancelItems batchId)
    getBatchWithItems orgId batchId

end DayfiBackend.Infra.Bulk
