import DayfiBackend.Consumer.Transfers
import DayfiBackend.Found.Beside

/-!
# Wallet-funded sends over Yellow Card

`walletFundedYellowCardSend` debits the sender's USD wallet, asks Yellow Card for the payout, and
records the send in `wallet_transactions`; whatever fails after the debit credits it back. Webhooks,
a status sync and two repair jobs read and rewrite the recorded rows and credit debits back as
well, all through `reverseYellowCardWalletDebit`. The ledger is that of the consumer services; the
rows, the provider and the requests are tables beside it.

The columns of `wallet_transactions` that hold texts for display, and the rows of `beneficiaries`
and `source`, are left out; their statements may fail, and are `lookUp` and, for a send that is
being recorded, `noteParty`.
-/

namespace DayfiBackend.Consumer.YellowCard

open DayfiBackend.Found DayfiBackend.Found.Prog DayfiBackend.Found.Keys

/-! ### Identifiers and statuses -/

/-- The two UUIDs drawn for a send, `collectionSequenceId` and `paymentSequenceId`. -/
inductive Uuid where
  | collection (send : ℕ)
  | payment (send : ℕ)
  deriving DecidableEq, Repr

/-- The text of a UUID. -/
def Uuid.text : Uuid → String
  | collection send => "c" ++ toString send
  | payment send => "p" ++ toString send

/-- The status of a row, without its `-payment`. -/
inductive PaymentStatus where
  | pending
  | success
  | failed
  deriving DecidableEq, Repr

/-- Source: `yellowCardStatus.ts` `mapYellowCardProviderStatus`. -/
def mapYellowCardProviderStatus (status : Option String) : PaymentStatus :=
  let s := ((trim (status.getD "")).toLower).map fun c => if c = '_' then '-' else c
  if s = "" then .pending
  else if s = "complete" ∨ s = "completed" ∨ includes s "settlement-complete" ∨
      includes s "settlement_complete" then .success
  else if ["fail", "reject", "cancel", "declin", "expired", "refund-failed"].any (includes s) then
    .failed
  else if ["complete", "success", "settled"].any (includes s) ∨ s = "paid" then .success
  else .pending

/-- The places of a provider's answer that may hold its status. -/
structure ProviderPayment where
  status : Option String := none
  state : Option String := none
  paymentStatus : Option String := none
  nestedStatus : Option String := none
  nestedState : Option String := none
  deriving DecidableEq, Repr

/-- Source: `yellowCardStatus.ts` `resolveYellowCardPaymentStatus`. -/
def resolveYellowCardPaymentStatus : Option ProviderPayment → PaymentStatus
  | none => .pending
  | some p => mapYellowCardProviderStatus
      (p.status <|> p.state <|> p.paymentStatus <|> p.nestedStatus <|> p.nestedState)

/-! ### Limits -/

inductive PaymentMethod where
  | bankTransfer
  | mobileMoney
  deriving DecidableEq, Repr

structure YellowCardSendLimitRow where
  country : String
  currency : String
  paymentMethod : PaymentMethod
  min : ℚ
  max : ℚ
  deriving DecidableEq, Repr

/-- Source: `yellowCardSendLimits.ts` `YELLOW_CARD_SEND_LIMITS`. -/
def yellowCardSendLimits : List YellowCardSendLimitRow :=
  [⟨"BJ", "XOF", .mobileMoney, 500, 1500000⟩,
    ⟨"BW", "BWP", .bankTransfer, 150, 1000000⟩,
    ⟨"BW", "BWP", .mobileMoney, 150, 10000⟩,
    ⟨"BF", "XOF", .mobileMoney, 500, 1500000⟩,
    ⟨"CM", "XAF", .mobileMoney, 1000, 1000000⟩,
    ⟨"CG", "XAF", .bankTransfer, 1000, 1500000⟩,
    ⟨"CD", "CDF", .mobileMoney, 1000, 5000000⟩,
    ⟨"CI", "XOF", .mobileMoney, 500, 1500000⟩,
    ⟨"GA", "XAF", .bankTransfer, 1000, 10000000⟩,
    ⟨"KE", "KES", .bankTransfer, 500, 999999⟩,
    ⟨"KE", "KES", .mobileMoney, 150, 250000⟩,
    ⟨"MW", "MWK", .bankTransfer, 5000, 20000000⟩,
    ⟨"MW", "MWK", .mobileMoney, 5000, 750000⟩,
    ⟨"ML", "XOF", .mobileMoney, 500, 1500000⟩,
    ⟨"NG", "NGN", .bankTransfer, 1800, 30000000⟩,
    ⟨"NG", "NGN", .mobileMoney, 1800, 30000000⟩,
    ⟨"RW", "RWF", .bankTransfer, 1500, 10000000⟩,
    ⟨"RW", "RWF", .mobileMoney, 1500, 10000000⟩,
    ⟨"SN", "XOF", .mobileMoney, 1000, 200000⟩,
    ⟨"ZA", "ZAR", .bankTransfer, 200, 500000⟩,
    ⟨"TZ", "TZS", .bankTransfer, 2500, 150000000⟩,
    ⟨"TZ", "TZS", .mobileMoney, 2500, 10000000⟩,
    ⟨"TG", "XOF", .mobileMoney, 500, 1500000⟩,
    ⟨"UG", "UGX", .bankTransfer, 15000, 36000000⟩,
    ⟨"UG", "UGX", .mobileMoney, 15000, 3000000⟩,
    ⟨"ZM", "ZMW", .bankTransfer, 100, 15000000⟩,
    ⟨"ZM", "ZMW", .mobileMoney, 100, 20000⟩]

/-- Source: `yellowCardSendLimits.ts` `resolveYellowCardSendLimit`. -/
def resolveYellowCardSendLimit (country receiveCurrency channelId networkId : String) :
    Option YellowCardSendLimitRow :=
  let country := currencyCode country
  let currency := currencyCode receiveCurrency
  if country = "" ∨ currency = "" then none
  else
    let channel := (channelId ++ " " ++ networkId).toLower
    let method := if includes channel "momo" ∨ includes channel "mobile" then
      PaymentMethod.mobileMoney else .bankTransfer
    let exact := yellowCardSendLimits.find? fun row =>
      row.country = country ∧ row.currency = currency ∧ row.paymentMethod = method
    match exact with
    | some row => some row
    | none =>
        if country = "NG" ∧ currency = "NGN" then
          yellowCardSendLimits.find? fun row =>
            row.country = "NG" ∧ row.paymentMethod = .bankTransfer
        else none

/-- Whether `assertYellowCardSendWithinLimits` lets an amount pass.
Source: `yellowCardSendLimits.ts` `assertYellowCardSendWithinLimits`. -/
def withinLimits (country receiveCurrency : String) (receiveAmount : ℚ)
    (channelId networkId : String) : Bool :=
  match resolveYellowCardSendLimit country receiveCurrency channelId networkId with
  | none => true
  | some limit => decide (0 < receiveAmount ∧ limit.min ≤ receiveAmount ∧ receiveAmount ≤ limit.max)

/-! ### Tables -/

/-- What the service reads of its configuration; a minimum that is not a number is none. -/
structure Settings where
  configured : Bool := true
  ycMinSendUsd : Option ℚ := some 1
  deriving DecidableEq, Repr

/-- Source: `services.ts` `walletFundedYellowCardSend`, its parameters. -/
structure SendParams where
  userId : String
  sendAmount : ℚ
  payWithCurrency : String
  feeUsd : ℚ
  receiveAmount : ℚ
  receiveCurrency : String
  country : String
  channelId : String
  networkId : String
  accountNumber : String
  accountName : String
  accountType : String
  reason : String
  deriving DecidableEq, Repr

/-- What the provider is asked for. -/
structure Payload where
  sequenceId : Uuid
  collectionSequenceId : Uuid
  customerUID : String
  channelId : String
  currency : String
  country : String
  localAmount : ℚ
  reason : String
  accountNumber : String
  accountName : String
  accountType : String
  deriving DecidableEq, Repr

/-- Source: table `wallet_transactions`, the withdrawals to a bank that the sends record. The id of
a row is `wt-` and the collection's UUID of its send. -/
structure SendRow where
  send : ℕ
  userId : String
  status : PaymentStatus
  sendAmount : ℤ
  ledgerCurrency : String
  externalReference : Uuid
  paymentSequenceId : Option Uuid
  collectionSequenceId : Option Uuid
  timestamp : ℚ
  deriving DecidableEq, Repr

/-- The tables beside the ledger. `createdAt` is the time of a movement, by its id, and `fails`
the final outcome of a send's payout at the provider; `issued` says who drew the UUIDs of a send,
`requests` are those that reached the provider and `accepted` the sends it took. Times are in
minutes. -/
structure Sends where
  settings : Settings := {}
  createdAt : ℕ → ℚ := fun _ => 0
  fails : ℕ → Bool := fun _ => false
  issued : List ℕ := []
  requests : List (ℕ × Payload) := []
  accepted : List ℕ := []
  rows : List SendRow := []

/-- All tables. -/
abbrev Store := Accounts × Sends

/-- What the services throw. -/
inductive SendError where
  | ledger (e : Err)
  | database
  | provider
  | notConfigured
  | invalidSendAmount
  | invalidReceiveAmount
  | belowMinimum
  | outsideLimits
  | uniqueViolation
  | walletNotFound
  | insufficientBalance
  deriving DecidableEq, Repr

/-- What becomes of a request to the provider. -/
inductive CreateOutcome where
  | answered (payment : Option ProviderPayment)
  | acceptedThenFailed
  | refused
  deriving DecidableEq, Repr

/-- The outside at a step. -/
structure Outside where
  ledger : Consumer.Outside := {}
  create : CreateOutcome := .answered none
  payment : Option ProviderPayment := none
  now : ℚ := 0
  deriving DecidableEq, Repr

/-! ### Statements -/

abbrev Ans (α : Type) := Except SendError α

/-- What a text that comes in may name: a UUID, or the id of a row. -/
inductive Ref where
  | uuid (u : Uuid)
  | row (send : ℕ)
  deriving DecidableEq, Repr

/-- The statements of the sends. -/
inductive SendSql : Type → Type
  | settings : SendSql (Ans Settings)
  /-- The two UUIDs of a send. -/
  | newSend : SendSql (Ans ℕ)
  /-- A read or write elsewhere. -/
  | lookUp : SendSql (Ans Unit)
  | createPaymentRequest (send : ℕ) (payload : Payload) : SendSql (Ans (Option ProviderPayment))
  | findRow (send : ℕ) : SendSql (Ans (Option SendRow))
  /-- The beneficiary or the account of a send. -/
  | noteParty (send : ℕ) : SendSql (Ans Unit)
  | rowByReference (userId : String) (reference : Uuid) (currency : String) :
      SendSql (Ans (Option SendRow))
  | insertRow (row : SendRow) : SendSql (Ans Unit)
  | setStatus (send : ℕ) (status : PaymentStatus) : SendSql (Ans Unit)
  | getWalletTransactionById (id : Ref) : SendSql (Ans (Option SendRow))
  | updateWalletTransactionPayment (id : Ref) (status : PaymentStatus) :
      SendSql (Ans (Option SendRow))
  | updateWalletTransactionPaymentByRef (id : Ref) (status : PaymentStatus) :
      SendSql (Ans (Option SendRow))
  | reversalByReference (userId reference : String) : SendSql (Ans (Option MovementRow))
  | debitByReference (userId reference : String) : SendSql (Ans (Option MovementRow))
  | rowsToSync (userId : String) : SendSql (Ans (List SendRow))
  | fetchPaymentBySequenceId (sequenceId : Uuid) : SendSql (Ans (Option ProviderPayment))
  | failedRows (userId : String) : SendSql (Ans (List SendRow))
  | repairStatuses (userId : String) : SendSql (Ans Unit)

/-- The key of a send's debit. -/
def debitKey (send : ℕ) : String := buildIdempotencyKey "yc_send" (Uuid.collection send).text

/-- The key of its reversal. -/
def reversalKey (send : ℕ) : String := debitKey send ++ "-reversal"

/-- The external reference of a reversal. -/
def reversalReference (send : ℕ) : String := (Uuid.collection send).text ++ "-reversal"

/-- The movement is a reversal of a debit with a reference. The credits whose source is
`yellowcard` are those that carry `metadata.reversal`. -/
def isReversalOf (m : MovementRow) (reference : String) : Bool :=
  decide (m.direction = .credit ∧ m.source = .yellowcard ∧
    m.externalReference = some (reference ++ "-reversal"))

namespace Sends

/-- `WHERE payment_sequence_id = …`. -/
def paymentIs (id : Ref) (row : SendRow) : Bool := row.paymentSequenceId.map Ref.uuid = some id

/-- `WHERE external_reference = … OR id = … OR collection_sequence_id = …`. -/
def referenceIs (id : Ref) (row : SendRow) : Bool :=
  decide (.uuid row.externalReference = id ∨ .row row.send = id ∨
    row.collectionSequenceId.map Ref.uuid = some id)

/-- The rows after an update of the statuses of some. -/
def setStatuses (T : Sends) (which : SendRow → Bool) (status : PaymentStatus)
    (now : Option ℚ) : Sends :=
  { T with rows := T.rows.map fun row =>
      if which row then { row with status := status, timestamp := now.getD row.timestamp }
      else row }

/-- A reversed debit that a row is taken for, by the row's own id or by amount and time. -/
def matchesReversed (T : Sends) (movements : List MovementRow) (row : SendRow)
    (m : MovementRow) : Bool :=
  decide (m.userId = row.userId ∧ m.direction = .debit ∧
      (m.source = .yellowcard ∨ m.source = .billPay)) &&
    (m.externalReference.any fun reference => movements.any fun r =>
      decide (r.userId = m.userId) && isReversalOf r reference) &&
    (decide (m.externalReference = some (Uuid.collection row.send).text) ||
      decide (|m.amount - row.sendAmount| < 2 ∧ row.timestamp - 15 ≤ T.createdAt m.id ∧
        T.createdAt m.id ≤ row.timestamp + 15))

/-- The rows that `repairFailedWalletTransactionStatuses` marks. -/
def marked (T : Sends) (movements : List MovementRow) (userId : String) (row : SendRow) : Bool :=
  decide (row.userId = userId ∧ row.status ≠ .failed) &&
    movements.any (T.matchesReversed movements row)

end Sends

/-- One statement, when it gets there. -/
def SendSql.run {β : Type} (i : ℕ) (st : SendSql β) (o : Outside) (s : Store) : β × Store :=
  match st with
  | .settings => (.ok s.2.settings, s)
  | .newSend => (.ok s.2.issued.length, s.1, { s.2 with issued := s.2.issued ++ [i] })
  | .lookUp => (.ok (), s)
  | .noteParty _ => (.ok (), s)
  | .createPaymentRequest send payload =>
      let T := { s.2 with requests := (send, payload) :: s.2.requests }
      match o.create with
      | .answered payment => (.ok payment, s.1, { T with accepted := send :: T.accepted })
      | .acceptedThenFailed => (.error .provider, s.1, { T with accepted := send :: T.accepted })
      | .refused => (.error .provider, s.1, T)
  | .findRow send => (.ok (s.2.rows.find? (·.send = send)), s)
  | .rowByReference userId reference currency =>
      (.ok (s.2.rows.find? fun row => row.userId = userId ∧ row.externalReference = reference ∧
        row.ledgerCurrency = currency), s)
  | .insertRow row =>
      if s.2.rows.any (·.send = row.send) then (.error .uniqueViolation, s)
      else (.ok (), s.1, { s.2 with rows := { row with timestamp := o.now } :: s.2.rows })
  | .setStatus send status => (.ok (), s.1, s.2.setStatuses (·.send = send) status none)
  | .getWalletTransactionById id => (.ok (s.2.rows.find? fun row => .row row.send = id), s)
  | .updateWalletTransactionPayment id status =>
      (.ok (s.2.rows.find? (Sends.paymentIs id)), s.1,
        s.2.setStatuses (Sends.paymentIs id) status (some o.now))
  | .updateWalletTransactionPaymentByRef id status =>
      (.ok (s.2.rows.find? (Sends.referenceIs id)), s.1,
        s.2.setStatuses (Sends.referenceIs id) status (some o.now))
  | .reversalByReference userId reference =>
      (.ok (s.1.movements.find? fun m => m.userId = userId && isReversalOf m reference), s)
  | .debitByReference userId reference =>
      (.ok (s.1.movements.find? fun m => m.userId = userId ∧ m.direction = .debit ∧
        m.source = .yellowcard ∧ m.externalReference = some reference), s)
  | .rowsToSync userId =>
      (.ok (s.2.rows.filter fun row => row.userId = userId ∧
        o.now - 30 * 24 * 60 < row.timestamp), s)
  | .fetchPaymentBySequenceId _ => (.ok o.payment, s)
  | .failedRows userId =>
      (.ok (s.2.rows.filter fun row => row.userId = userId ∧ row.status = .failed), s)
  | .repairStatuses userId =>
      (.ok (), s.1, s.2.setStatuses (s.2.marked s.1.movements userId) .failed none)

/-- The answer of a statement that fails. -/
def SendSql.fail {β : Type} (st : SendSql β) (e : SendError) : β :=
  match st with
  | .settings | .newSend | .lookUp | .createPaymentRequest .. | .findRow _ => .error e
  | .noteParty _ | .rowByReference .. | .insertRow _ | .setStatus ..
  | .getWalletTransactionById _ => .error e
  | .updateWalletTransactionPayment .. | .updateWalletTransactionPaymentByRef .. => .error e
  | .reversalByReference .. | .debitByReference .. | .rowsToSync _ => .error e
  | .fetchPaymentBySequenceId _ | .failedRows _ | .repairStatuses _ => .error e

/-- The statements of the sends over all tables. -/
def sends : Backend SendSql Outside SendError Store where
  run i st o s := st.run i o s
  fail st e := st.fail e

/-- The sends beside the ledger. -/
def server : Backend (Beside Query SendSql) Outside SendError Store :=
  accounts.beside sends Outside.ledger .database

/-- A call of the sends. -/
abbrev SendCall := ExceptT SendError (Prog (Beside Query SendSql))

/-- A call of the ledger. -/
def ledger {β : Type} (p : Call β) : SendCall β := inside SendError.ledger p

/-- One statement of the sends; its failure is thrown. -/
def sql {β : Type} (st : SendSql (Ans β)) : SendCall β := ownCall st

/-! ### Reversals -/

/-- The credit of a reversal. -/
def reversalCredit (userId : String) (walletId send : ℕ) (amount : ℚ) : BalanceParams where
  userId := userId
  walletId := walletId
  amount := amount
  source := .yellowcard
  idempotencyKey := reversalKey send
  externalReference := some (reversalReference send)

/-- Source: `balanceService.ts` `reverseYellowCardWalletDebit`. A text that is not the collection
of a send finds no debit. -/
def reverseYellowCardWalletDebit (userId : String) (send : ℕ) : SendCall Unit := do
  if trim userId = "" then pure ()
  else
    match ← ledger (Consumer.sql (.findMovementByKey (reversalKey send))) with
    | some _ => pure ()
    | none =>
        match ← sql (.reversalByReference (trim userId) (Uuid.collection send).text) with
        | some _ => pure ()
        | none =>
            match ← sql (.debitByReference (trim userId) (Uuid.collection send).text) with
            | none => pure ()
            | some debit =>
                if debit.usdEquivalent ≤ 0 then pure ()
                else do
                  let _ ← ledger (creditUsdBalance (reversalCredit (trim userId) debit.walletId send
                    (decimal debit.usdEquivalent)))

/-! ### The history -/

/-- What is recorded of a send. -/
structure Activity where
  userId : String
  send : ℕ
  amount : ℚ
  currency : String
  status : PaymentStatus
  accountName : String
  accountNumber : String
  /-- Whether the two sequence ids are recorded. -/
  withIds : Bool
  deriving DecidableEq, Repr

/-- The row of a send. -/
def Activity.row (a : Activity) : SendRow where
  send := a.send
  userId := trim a.userId
  status := a.status
  sendAmount := cents a.amount
  ledgerCurrency := a.currency.toUpper
  externalReference := .payment a.send
  paymentSequenceId := if a.withIds then some (.payment a.send) else none
  collectionSequenceId := if a.withIds then some (.collection a.send) else none
  timestamp := 0

/-- Source: `walletActivityService.ts` `recordWalletActivity`, of a send. -/
def recordWalletActivity (a : Activity) : SendCall Unit := do
  if trim a.userId = "" ∨ a.amount ≤ 0 then pure ()
  else
    match ← sql (.findRow a.send) with
    | some _ => do
        sql (.setStatus a.send a.status)
        -- the beneficiary's name
        if trim a.accountName ≠ "" then do
          sql (.noteParty a.send)
          sql (.noteParty a.send)
    | none =>
        match ← sql (.rowByReference (trim a.userId) (.payment a.send) a.currency.toUpper) with
        | some _ => pure ()
        | none => do
            -- the beneficiary and the account
            sql (.noteParty a.send)
            if trim a.accountNumber ≠ "" then sql (.noteParty a.send)
            sql (.insertRow a.row)

/-! ### Sends -/

/-- `payWithCurrency || PRIMARY_CURRENCY`, in capitals. -/
def SendParams.payWith (p : SendParams) : String :=
  currencyCode (orDefault (some p.payWithCurrency) primaryCurrency)

/-- `totalUsd`. -/
def SendParams.totalUsd (p : SendParams) (sendUsd : ℚ) : ℚ := toFixed8 (sendUsd + p.feeUsd)

/-- The debit of a send. -/
def SendParams.debit (p : SendParams) (walletId send : ℕ) (sendUsd : ℚ) : BalanceParams where
  userId := p.userId
  walletId := walletId
  amount := p.totalUsd sendUsd
  source := .yellowcard
  idempotencyKey := debitKey send
  externalReference := some (Uuid.collection send).text

/-- The request to the provider. -/
def SendParams.payload (p : SendParams) (send : ℕ) : Payload where
  sequenceId := .payment send
  collectionSequenceId := .collection send
  customerUID := p.userId
  channelId := p.channelId
  currency := currencyCode p.receiveCurrency
  country := p.country
  localAmount := p.receiveAmount
  reason := (orDefault (some p.reason) "other").toLower
  accountNumber := p.accountNumber
  accountName := p.accountName
  accountType := p.accountType

/-- The history of a send. -/
def SendParams.activity (p : SendParams) (send : ℕ) (sendUsd : ℚ) (status : PaymentStatus)
    (withIds : Bool) : Activity where
  userId := p.userId
  send := send
  amount := sendUsd
  currency := p.payWith
  status := status
  accountName := p.accountName
  accountNumber := p.accountNumber
  withIds := withIds

/-- The amount is above the provider's minimum. -/
def Settings.meetsMinimum (settings : Settings) (sendUsd : ℚ) : Bool :=
  !settings.ycMinSendUsd.any fun least => decide (0 < least ∧ sendUsd < least)

/-- A failure that is swallowed. -/
def swallow (p : SendCall Unit) : SendCall Unit := tryCatch p fun _ => pure ()

/-- From the request to the provider on. Source: `services.ts` `walletFundedYellowCardSend`. -/
def submitSend (p : SendParams) (walletId send : ℕ) (sendUsd : ℚ) : SendCall Unit :=
  tryCatch (do
      let payment ← sql (.createPaymentRequest send (p.payload send))
      let txStatus := resolveYellowCardPaymentStatus payment
      recordWalletActivity (p.activity send sendUsd txStatus true)
      if txStatus = .failed then swallow (reverseYellowCardWalletDebit p.userId send))
    fun e => do
      swallow (do
        let _ ← ledger (creditUsdBalance
          (reversalCredit p.userId walletId send (p.totalUsd sendUsd))))
      swallow (recordWalletActivity (p.activity send sendUsd .failed false))
      throw e

/-- Source: `services.ts` `ensureUsdWallet`. -/
def ensureUsdWallet (userId : String) : Call WalletRow :=
  ensureWalletForCurrency userId primaryCurrency

/-- Source: `services.ts` `walletFundedYellowCardSend`. -/
def walletFundedYellowCardSend (p : SendParams) : SendCall Unit := do
  let settings ← sql .settings
  if !settings.configured then throw .notConfigured
  else if p.sendAmount ≤ 0 then throw .invalidSendAmount
  else if p.receiveAmount ≤ 0 then throw .invalidReceiveAmount
  else do
    let sendUsd ← ledger (convertAmountToUsd p.sendAmount p.payWith)
    if !settings.meetsMinimum sendUsd then throw .belowMinimum
    else if !withinLimits p.country p.receiveCurrency p.receiveAmount p.channelId p.networkId then
      throw .outsideLimits
    else do
      let usdWallet ← ledger (ensureUsdWallet p.userId)
      let send ← sql .newSend
      -- the network, the bank's name and the sender's profile
      sql .lookUp
      sql .lookUp
      sql .lookUp
      let _ ← ledger (debitUsdBalance (p.debit usdWallet.walletId send sendUsd))
      submitSend p usdWallet.walletId send sendUsd

/-! ### Statuses -/

/-- The send whose debit a row names. -/
def SendRow.collectionOf (row : SendRow) : Uuid :=
  row.collectionSequenceId.getD (.collection row.send)

/-- The reversal of the debit a row names; only the collection of a send has one. -/
def reverseRow (userId : String) (row : SendRow) : SendCall Unit :=
  match row.collectionOf with
  | .collection send => reverseYellowCardWalletDebit userId send
  | .payment _ => pure ()

/-- The row that a text names, its status set.
Source: `services.ts` `updateTransactionPaymentStatus`. -/
def updatedRow (id : Ref) (status : PaymentStatus) : SendCall (Option SendRow) := do
  match ← sql (.updateWalletTransactionPayment id status) with
  | some row => pure (some row)
  | none => sql (.updateWalletTransactionPaymentByRef id status)

/-- Source: `services.ts` `updateTransactionPaymentStatus`. -/
def updateTransactionPaymentStatus (id : Ref) (status : PaymentStatus) : SendCall Unit := do
  let tx ← sql (.getWalletTransactionById id)
  if tx.any (·.status = status) then pure ()
  else do
    match ← updatedRow id status with
    | none => pure ()
    | some row =>
        if status = .failed then swallow (reverseRow row.userId row) else pure ()

/-- One row of the sync. -/
def syncRow (userId : String) (row : SendRow) : SendCall Unit :=
  swallow (do
    let payment ← sql (.fetchPaymentBySequenceId
      (row.paymentSequenceId.getD row.externalReference))
    let mapped := resolveYellowCardPaymentStatus payment
    if mapped = row.status then pure ()
    else do
      sql (.setStatus row.send mapped)
      if mapped = .failed then swallow (reverseRow userId row) else pure ())

/-- A loop over rows. -/
def forRows (f : SendRow → SendCall Unit) : List SendRow → SendCall Unit
  | [] => pure ()
  | row :: rows => do
      f row
      forRows f rows

/-- Source: `walletActivityService.ts` `syncYellowCardPaymentStatusesForUser`. -/
def syncYellowCardPaymentStatusesForUser (userId : String) : SendCall Unit := do
  let settings ← sql .settings
  if !settings.configured then pure ()
  else do
    let rows ← sql (.rowsToSync userId)
    forRows (syncRow userId) rows

/-- Source: `walletActivityService.ts` `repairFailedWalletTransactionStatuses`. -/
def repairFailedWalletTransactionStatuses (userId : String) : SendCall Unit :=
  sql (.repairStatuses userId)

/-- Source: `walletActivityService.ts` `repairUnreversedFailedYellowCardDebits`. -/
def repairUnreversedFailedYellowCardDebits (userId : String) : SendCall Unit := do
  let rows ← sql (.failedRows userId)
  forRows (reverseRow userId) rows

end DayfiBackend.Consumer.YellowCard
