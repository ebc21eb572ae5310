import DayfiBackend.Consumer.Balance

/-!
# Transfers of two legs

`transferByDayfiTag` debits the sender's USD wallet and credits the recipient's, `swapCurrency`
debits a user's wallet in one currency and credits it in another. In both the two legs are two
transactions, each behind a search for its own key, with reads of balances and rates between them.
The records they write at the end (the transfer row, the activity rows, the swap log) touch no
balance; each is one statement that may fail. The notifications, whose failures are swallowed, are
left out.
-/

namespace DayfiBackend.Consumer

open DayfiBackend.Found DayfiBackend.Found.Binary64 DayfiBackend.Found.Keys

/-! ### Exchange rates -/

/-- `Number(x.toFixed(8))`. -/
def toFixed8 (x : ℚ) : ℚ := roundHalfAway (x * 10 ^ 8) / 10 ^ 8

/-- Source: `fxService.ts` `fetchDirectRate`. -/
def fetchDirectRate (base target : String) : Call (Option ℚ) := do
  let row ← sql (.fetchRate base target)
  pure (row.filter (0 < ·))

/-- Source: `fxService.ts` `resolveExchangeRate`, the rate through USD. -/
def crossRate (from' to' : String) : Call ℚ := do
  let fromUsd ← fetchDirectRate from' primaryCurrency
  let usdTo ← fetchDirectRate primaryCurrency to'
  match fromUsd, usdTo with
  | some a, some b => pure (toFixed8 (a * b))
  | _, _ => throw .noRate

/-- Source: `fxService.ts` `resolveExchangeRate`. A pair with USD on one side is looked up twice. -/
def resolveExchangeRate (fromCurrency toCurrency : String) : Call ℚ :=
  let from' := currencyCode fromCurrency
  let to' := currencyCode toCurrency
  if from' = to' then pure 1
  else do
    let direct ← fetchDirectRate from' to'
    match direct with
    | some rate => pure rate
    | none =>
        let again ← if from' = primaryCurrency ∨ to' = primaryCurrency
          then fetchDirectRate from' to' else pure none
        match again with
        | some rate => pure rate
        | none => crossRate from' to'

/-- Source: `fxService.ts` `convertAmountBetween`. -/
def convertAmountBetween (amount : ℚ) (fromCurrency toCurrency : String) : Call ℚ :=
  if amount < 0 then throw .invalidAmount
  else if currencyCode fromCurrency = currencyCode toCurrency then pure amount
  else if amount = 0 then pure 0
  else do
    let rate ← resolveExchangeRate fromCurrency toCurrency
    pure (toFixed2 (amount * rate))

/-! ### Transfers by tag -/

/-- Source: `p2pService.ts` `transferByDayfiTag`, its parameters. -/
structure TransferParams where
  senderUserId : String
  senderWalletId : ℕ
  recipientDayfiId : String
  amount : ℚ
  currency : String := primaryCurrency
  deriving DecidableEq, Repr

structure TransferResult where
  reference : String
  recipientUserId : String
  newBalance : ℚ
  deriving DecidableEq, Repr

/-- Source: `socialAuth.ts` `normalizeDayfiId`. -/
def normalizeDayfiId (raw : String) : String :=
  (String.ofList ((trim raw).toList.dropWhile (· = '@'))).toLower

/-- Source: `balanceService.ts` `buildIdempotencyKey`. -/
def buildIdempotencyKey (source externalRef : String) : String := source ++ ":" ++ externalRef

/-- Source: `p2pService.ts` `resolveRecipientUsdWallet`, of a tag already normalized. -/
def resolveRecipientUsdWallet (tag : String) : Call WalletRow := do
  match ← sql (.tagOwner tag) with
  | none => throw .tagNotFound
  | some owner =>
      match ← sql (.userWallet owner primaryCurrency) with
      | none => throw .walletNotFound
      | some wallet => pure wallet

/-- The debit of a transfer. -/
def TransferParams.debit (p : TransferParams) (usd : ℚ) (reference : String) : BalanceParams where
  userId := p.senderUserId
  walletId := p.senderWalletId
  amount := usd
  source := .p2p
  idempotencyKey := buildIdempotencyKey "p2p-debit" reference
  externalReference := some reference

/-- The credit of a transfer. -/
def transferCredit (recipient : WalletRow) (usd : ℚ) (reference : String) : BalanceParams where
  userId := recipient.userId
  walletId := recipient.walletId
  amount := usd
  source := .p2p
  idempotencyKey := buildIdempotencyKey "p2p-credit" reference
  externalReference := some reference

/-- What `transferByDayfiTag` records once both legs are done: the transfer row, the sender's
label, the two activities. -/
def recordTransfer (p : TransferParams) (recipient : WalletRow) (reference : String) :
    Call TransferResult := do
  sql .aside
  sql .aside
  sql .aside
  sql .aside
  let balance ← sql (.balanceOf p.senderWalletId)
  pure ⟨reference, recipient.userId, balance⟩

/-- Source: `p2pService.ts` `transferByDayfiTag`. -/
def transferByDayfiTag (p : TransferParams) : Call TransferResult :=
  let tag := normalizeDayfiId p.recipientDayfiId
  if p.amount ≤ 0 then throw .invalidAmount
  else if tag = "" then throw .invalidTag
  else do
    let recipient ← resolveRecipientUsdWallet tag
    -- the recipient's name
    sql .aside
    if recipient.userId = p.senderUserId then throw .ownTag
    else do
      let reference ← sql (.newReference "p2p")
      let usd ← convertAmountToUsd p.amount p.currency.toUpper
      let _ ← debitUsdBalance (p.debit usd reference)
      let _ ← creditUsdBalance (transferCredit recipient usd reference)
      recordTransfer p recipient reference

/-! ### Swaps -/

/-- Source: `services.ts` `swapCurrency`, its parameters. -/
structure SwapParams where
  userId : String
  fromCurrency : String
  toCurrency : String
  amount : ℚ
  deriving DecidableEq, Repr

structure SwapResult where
  rate : ℚ
  convertedAmount : ℚ
  reference : String
  deriving DecidableEq, Repr

/-- Source: `services.ts` `ensureWalletForCurrency`. -/
def ensureWalletForCurrency (userId currency : String) : Call WalletRow := do
  match ← sql (.userWallet userId currency.toUpper) with
  | some wallet => pure wallet
  | none => sql (.createWallet userId currency.toUpper)

/-- The debit of a swap. -/
def SwapParams.debit (p : SwapParams) (wallet : WalletRow) (converted : ℚ) (reference : String) :
    BalanceParams where
  userId := p.userId
  walletId := wallet.walletId
  amount := p.amount
  currency := currencyCode p.fromCurrency
  source := .swap
  idempotencyKey := buildIdempotencyKey "swap-debit" reference
  externalReference := some reference
  convertedAmount := some converted

/-- The credit of a swap. -/
def SwapParams.credit (p : SwapParams) (wallet : WalletRow) (converted usd : ℚ)
    (reference : String) : BalanceParams where
  userId := p.userId
  walletId := wallet.walletId
  amount := converted
  currency := currencyCode p.toCurrency
  usdEquivalent := usd
  source := .swap
  idempotencyKey := buildIdempotencyKey "swap-credit" reference
  externalReference := some reference
  convertedAmount := some converted

/-- Source: `services.ts` `swapCurrency`, from the two wallets on. -/
def swapBetween (p : SwapParams) (fromWallet toWallet : WalletRow) : Call SwapResult :=
  if decimal fromWallet.balance < p.amount then throw .insufficientBalance
  else do
    let rate ← resolveExchangeRate p.fromCurrency p.toCurrency
    let converted ← convertAmountBetween p.amount p.fromCurrency p.toCurrency
    let reference ← sql (.newReference "swap")
    let _ ← debitWalletBalance (p.debit fromWallet converted reference)
    let usd ← convertAmountToUsd converted (currencyCode p.toCurrency)
    let _ ← creditWalletBalance (p.credit toWallet converted usd reference)
    -- the swap log
    sql .aside
    pure ⟨rate, converted, reference⟩

/-- Source: `services.ts` `swapCurrency`. -/
def swapCurrency (p : SwapParams) : Call SwapResult :=
  let from' := currencyCode p.fromCurrency
  let to' := currencyCode p.toCurrency
  if from' = to' then throw .sameCurrency
  else do
    let _ ← ensureWalletForCurrency p.userId from'
    let _ ← ensureWalletForCurrency p.userId to'
    let fromWallet ← sql (.userWallet p.userId from')
    let toWallet ← sql (.userWallet p.userId to')
    match fromWallet, toWallet with
    | some fromWallet, some toWallet => swapBetween p fromWallet toWallet
    | _, _ => throw .walletNotFound

end DayfiBackend.Consumer
