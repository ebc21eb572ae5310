import DayfiBackend.Consumer.LedgerCalls
import DayfiBackend.Found.Rows

/-!
# Locked investments

A user locks an amount of dollars for one of four periods. `depositToInvestment` debits the
wallet, in a transaction of the ledger, and then inserts the position and raises the user's pocket,
in a transaction of its own; `claimInvestmentPosition` reads the position, and then pays it out, in
one transaction over both the ledger and the pocket. `refreshMaturedPositions` marks the positions
whose time has come.

Time is a number of milliseconds. Every statement of the service may find that some time has
passed. The amounts are those of the ledger; the sums that the code computes in floating point are
rounded where it rounds them. What the listing of the positions shows of them is left out, and so
is what the record in the wallet's history holds.
-/

namespace DayfiBackend.Consumer.Investments

open DayfiBackend.Found DayfiBackend.Found.Binary64 DayfiBackend.Found.Keys
  DayfiBackend.Found.Rows

/-! ### Plans -/

/-- Source: `investmentPlans.ts` `InvestmentPlanTier`. -/
structure InvestmentPlanTier where
  lockDays : ℕ
  maxApyPercent : ℚ
  deriving DecidableEq, Repr

/-- Source: `investmentPlans.ts` `INVESTMENT_PLAN_TIERS`. -/
def investmentPlanTiers : List InvestmentPlanTier := [⟨30, 4⟩, ⟨90, 6⟩, ⟨180, 8⟩, ⟨365, 10⟩]

/-- Source: `investmentPlans.ts` `LOCK_QUOTED_APY`. -/
def lockQuotedApy (lockDays : ℕ) : Option ℚ :=
  match lockDays with
  | 30 => some (3 / 2)
  | 90 => some (7 / 2)
  | 180 => some (11 / 2)
  | 365 => some 8
  | _ => none

/-- Source: `investmentPlans.ts` `findPlanByLockDays`. -/
def findPlanByLockDays (lockDays : ℕ) : Option InvestmentPlanTier :=
  investmentPlanTiers.find? (·.lockDays = lockDays)

/-- `Math.round(x * scale) / scale`. -/
def roundTo (scale x : ℚ) : ℚ := nearest ((round (nearest (x * scale)) : ℤ) / scale)

/-- Source: `investmentService.ts` `roundMoney`. -/
def roundMoney (x : ℚ) : ℚ := roundTo 100 x

/-- Source: `investmentTreasuryService.ts` `getEffectiveApyPercent`. -/
def getEffectiveApyPercent (tierMaxApy : ℚ) (lockDays : ℕ) : ℚ :=
  min tierMaxApy (roundTo 1000 ((lockQuotedApy lockDays).getD 3))

/-- Source: `investmentTreasuryService.ts` `resolveApyForDeposit`. -/
def resolveApyForDeposit (tier : InvestmentPlanTier) : ℚ :=
  getEffectiveApyPercent tier.maxApyPercent tier.lockDays

/-- Source: `investmentTreasuryService.ts` `calculateMaturityInterest`. -/
def calculateMaturityInterest (principal apyPercent : ℚ) (lockDays : ℕ) : ℚ :=
  roundTo 10000 (nearest (nearest (principal * nearest (apyPercent / 100)) *
    nearest ((lockDays : ℚ) / 365)))

/-- A day, in milliseconds. -/
def day : ℕ := 24 * 60 * 60 * 1000

/-! ### Tables -/

inductive PositionStatus where
  | active
  | matured
  | claimed
  deriving DecidableEq, Repr

/-- The key of a position. -/
def positionKey (reference : String) : String :=
  buildIdempotencyKey "investment-position" reference

/-- The key of the debit of a position. -/
def debitKey (reference : String) : String := buildIdempotencyKey "investment-debit" reference

/-- The key of the deposit of a position in its user's pocket. -/
def pocketKey (reference : String) : String := buildIdempotencyKey "investment-pocket" reference

/-- The key of a claim. -/
def claimKey (reference : String) : String := buildIdempotencyKey "investment-claim" reference

/-- The key of what a claim pays. -/
def yieldKey (reference : String) : String :=
  buildIdempotencyKey "investment-yield-credit" reference

/-- Source: table `investment_positions`. `depositReference` is held without the cut of its
column, and the column `idempotency_key` is the `positionKey` of it. `principal` is in cents, and
`interestEarned` in hundredths of a cent. -/
structure Position where
  id : ℕ
  userId : String
  name : String
  principal : ℤ
  apyPercent : ℚ
  lockDays : ℕ
  interestEarned : ℤ := 0
  status : PositionStatus := .active
  maturesAt : ℕ
  depositReference : String
  deriving DecidableEq, Repr

/-- Source: table `investment_pockets`, a row of it; the amounts are in cents. -/
structure Pocket where
  balance : ℤ := 0
  totalDeposited : ℤ := 0
  totalWithdrawn : ℤ := 0
  riskAccepted : Bool := false
  deriving DecidableEq, Repr

inductive InvestmentDirection where
  | deposit
  | withdraw
  deriving DecidableEq, Repr

/-- Source: table `investment_movements`. -/
structure InvestmentMovement where
  userId : String
  direction : InvestmentDirection
  amount : ℤ
  idempotencyKey : String
  positionId : ℕ
  createdAt : ℕ
  deriving DecidableEq, Repr

/-- The tables beside the ledger, and the time. -/
structure Tables where
  positions : List Position := []
  pockets : String → Option Pocket := fun _ => none
  movements : List InvestmentMovement := []
  time : ℕ := 0

/-- All tables. -/
abbrev Store := Accounts × Tables

/-- What the services throw. -/
inductive InvestmentError where
  | ledger (e : Err)
  | database
  | checkViolation
  | uniqueViolation
  | outOfRange
  | noRow
  | notAvailable
  | invalidLockPeriod
  | minimumInvestment
  | nameRequired
  | riskNotAccepted
  | poolAtCapacity
  | userMaximum
  | positionNotFound
  | alreadyClaimed
  | notMatured
  | insufficientInvestment
  deriving DecidableEq, Repr

/-- Source: `investmentTreasuryService.ts` `getMaxTvlUsd`, `getMaxUserLockedUsd`. -/
structure Limits where
  maxTvlUsd : ℚ := 100000
  maxUserLockedUsd : ℚ := 10000
  deriving DecidableEq, Repr

/-- The outside at a step: whether the table of positions is there, the limits the environment
sets, and the time that has passed. -/
structure Outside where
  ledger : Consumer.Outside := {}
  ready : Bool := true
  limits : Limits := {}
  elapsed : ℕ := 0
  deriving DecidableEq, Repr

abbrev Ans (α : Type) := Except InvestmentError α

/-- What the transaction of a deposit inserts. -/
structure NewPosition where
  userId : String
  name : String
  amount : ℚ
  apyPercent : ℚ
  lockDays : ℕ
  maturesAt : ℕ
  reference : String
  deriving DecidableEq, Repr

/-- What the transaction of a claim pays. -/
structure Payout where
  userId : String
  walletId : ℕ
  positionId : ℕ
  principal : ℤ
  interest : ℚ
  totalPaid : ℚ
  reference : String
  deriving DecidableEq, Repr

/-- The statements of the service. -/
inductive InvestmentSql : Type → Type
  | investmentPositionsReady : InvestmentSql (Ans Bool)
  /-- The update of `refreshMaturedPositions`, of one user's positions or of all. -/
  | setMatured (userId : Option String) : InvestmentSql (Ans Unit)
  | acceptInvestmentRisk (userId : String) : InvestmentSql (Ans Unit)
  | pocketOf (userId : String) : InvestmentSql (Ans (Option Pocket))
  /-- The sum of `getTotalLockedPrincipalUsd` and `getUserLockedPrincipalUsd`. -/
  | lockedPrincipal (userId : Option String) : InvestmentSql (Ans ℤ)
  | limits : InvestmentSql (Ans Limits)
  | now : InvestmentSql (Ans ℕ)
  | newReference (label : String) : InvestmentSql (Ans String)
  | positionByKey (key : String) : InvestmentSql (Ans (Option ℕ))
  | positionsOf (userId : String) : InvestmentSql (Ans (List Position))
  | positionOf (positionId : ℕ) (userId : String) : InvestmentSql (Ans (Option Position))
  | movementByKey (key : String) : InvestmentSql (Ans Bool)
  | depositTx (d : NewPosition) : InvestmentSql (Ans ℕ)
  | claimTx (c : Payout) : InvestmentSql (Ans Unit)
  /-- The sums of `getInvestmentSummary`. -/
  | aggregates : InvestmentSql (Ans Unit)
  | recordWalletActivity : InvestmentSql (Ans Unit)

namespace Tables

/-- Some time passes. -/
def tick (T : Tables) (elapsed : ℕ) : Tables := { T with time := T.time + elapsed }

/-- What a user's position counts for, while it is not claimed. -/
def held (userId : String) (p : Position) : ℤ :=
  if p.userId = userId ∧ p.status ≠ .claimed then p.principal else 0

/-- The principal a user has locked. -/
def locked (T : Tables) (userId : String) : ℤ := (T.positions.map (held userId)).sum

/-- The balance of a user's pocket. -/
def balance (T : Tables) (userId : String) : ℤ := ((T.pockets userId).getD {}).balance

/-- One user's positions, or all. -/
def concerns (userId : Option String) (p : Position) : Bool := userId.all (p.userId = ·)

/-- The principal that is locked, of one user or of all. -/
def lockedPrincipal (T : Tables) (userId : Option String) : ℤ :=
  ((T.positions.filter fun p => concerns userId p && p.status ≠ .claimed).map (·.principal)).sum

/-- `SET status = 'matured'` of the positions whose time has come. -/
def setMatured (T : Tables) (userId : Option String) : Tables :=
  { T with positions := T.positions.map fun p =>
      if concerns userId p && p.status = .active && p.maturesAt ≤ T.time then
        { p with status := .matured }
      else p }

/-- Source: `investmentService.ts` `acceptInvestmentRisk`. -/
def acceptRisk (T : Tables) (userId : String) : Tables :=
  let pocket := (T.pockets userId).getD {}
  { T with pockets := Function.update T.pockets userId (some { pocket with riskAccepted := true }) }

/-- The position a deposit inserts. -/
def newPosition (T : Tables) (d : NewPosition) : Position where
  id := T.positions.length
  userId := d.userId
  name := d.name
  principal := cents d.amount
  apyPercent := d.apyPercent
  lockDays := d.lockDays
  maturesAt := d.maturesAt
  depositReference := d.reference

/-- The insert of a movement of a pocket, unless there is one under its key. -/
def insertMovement (T : Tables) (m : InvestmentMovement) : List InvestmentMovement :=
  if T.movements.any (·.idempotencyKey = m.idempotencyKey) then T.movements
  else m :: T.movements

/-- The tables with a new position. -/
def opened (T : Tables) (d : NewPosition) : Tables where
  positions := T.newPosition d :: T.positions
  pockets := Function.update T.pockets d.userId
    (let pocket := (T.pockets d.userId).getD {}
    some { pocket with
      balance := pocket.balance + cents d.amount
      totalDeposited := pocket.totalDeposited + cents d.amount })
  movements := T.insertMovement {
      userId := d.userId
      direction := .deposit
      amount := cents d.amount
      idempotencyKey := pocketKey d.reference
      positionId := T.positions.length
      createdAt := T.time }
  time := T.time

/-- The transaction of a deposit.
Source: `investmentService.ts` `depositToInvestment`. -/
def depositTx (T : Tables) (d : NewPosition) : Ans ℕ × Tables :=
  let pocket := (T.pockets d.userId).getD {}
  if !fitsVarchar 64 d.reference || centsLimit ≤ |cents d.amount| then (.error .outOfRange, T)
  else if cents d.amount ≤ 0 ∨ d.apyPercent ≤ 0 ∨ 100 < d.apyPercent ∨ d.lockDays = 0 then
    (.error .checkViolation, T)
  else if T.positions.any (fun p => positionKey p.depositReference = positionKey d.reference) then
    (.error .uniqueViolation, T)
  else if centsLimit ≤ |pocket.balance + cents d.amount| ∨
      centsLimit ≤ |pocket.totalDeposited + cents d.amount| then (.error .outOfRange, T)
  else (.ok T.positions.length, T.opened d)

/-- The position of a payout is claimed, if it is not yet. -/
def claimOne (c : Payout) (p : Position) : Position :=
  if p.id = c.positionId ∧ p.status ≠ .claimed then
    { p with
      status := .claimed
      interestEarned := roundHalfAway (toDecimal c.interest * 10 ^ 4) }
  else p

/-- The tables with a position paid out. -/
def paid (T : Tables) (c : Payout) (pocket : Pocket) : Tables where
  positions := T.positions.map (claimOne c)
  pockets := Function.update T.pockets c.userId
    (some { pocket with
      balance := pocket.balance - c.principal
      totalWithdrawn := pocket.totalWithdrawn + cents (toDecimal c.totalPaid) })
  movements :=
    { userId := c.userId
      direction := .withdraw
      amount := cents (toDecimal c.totalPaid)
      idempotencyKey := claimKey c.reference
      positionId := c.positionId
      createdAt := T.time } :: T.movements
  time := T.time

end Tables

/-- What a claim pays into the wallet. -/
def Payout.credit (c : Payout) : BalanceParams where
  userId := c.userId
  walletId := c.walletId
  amount := toDecimal c.totalPaid
  usdEquivalent := toDecimal c.totalPaid
  source := .investment
  idempotencyKey := yieldKey c.reference
  externalReference := some c.reference

/-- The transaction of a claim.
Source: `investmentService.ts` `claimInvestmentPosition`. -/
def Payout.tx (c : Payout) (s : Store) : Ans Unit × Store :=
  match s.2.pockets c.userId with
  | none => (.error .insufficientInvestment, s)
  | some pocket =>
      if pocket.balance < c.principal then (.error .insufficientInvestment, s)
      else if centsLimit ≤ |pocket.totalWithdrawn + cents (toDecimal c.totalPaid)| then
        (.error .outOfRange, s)
      else
        match s.1.wallets.find? (·.walletId = c.walletId) with
        | none => (.error .noRow, s)
        | some w =>
            if s.2.movements.any (·.idempotencyKey = claimKey c.reference) then
              (.error .uniqueViolation, s)
            else
              match s.1.record (cents (decimal w.balance + c.credit.amount))
                  (c.credit.movement .credit primaryCurrency c.credit.usdEquivalent s.1.nextId)
                with
              | (.error e, _) => (.error (.ledger e), s)
              | (.ok _, A) => (.ok (), A, s.2.paid c pocket)

/-- One statement, once the time has passed. -/
def InvestmentSql.act {β : Type} (st : InvestmentSql β) (o : Outside) (s : Store) : β × Store :=
  match st with
  | .investmentPositionsReady => (.ok o.ready, s)
  | .setMatured userId => (.ok (), s.1, s.2.setMatured userId)
  | .acceptInvestmentRisk userId => (.ok (), s.1, s.2.acceptRisk userId)
  | .pocketOf userId => (.ok (s.2.pockets userId), s)
  | .lockedPrincipal userId => (.ok (s.2.lockedPrincipal userId), s)
  | .limits => (.ok o.limits, s)
  | .now => (.ok s.2.time, s)
  | .newReference label => (.ok (label ++ "-" ++ o.ledger.token), s)
  | .positionByKey key =>
      (.ok ((s.2.positions.find? fun p => positionKey p.depositReference = key).map (·.id)), s)
  | .positionsOf userId => (.ok (s.2.positions.filter (·.userId = userId)), s)
  | .positionOf positionId userId =>
      (.ok (s.2.positions.find? fun p => p.id = positionId && p.userId = userId), s)
  | .movementByKey key => (.ok (s.2.movements.any (·.idempotencyKey = key)), s)
  | .depositTx d => ((s.2.depositTx d).1, s.1, (s.2.depositTx d).2)
  | .claimTx c => c.tx s
  | .aggregates => (.ok (), s)
  | .recordWalletActivity => (.ok (), s)

/-- One statement, when it gets there. -/
def InvestmentSql.run {β : Type} (st : InvestmentSql β) (o : Outside) (s : Store) : β × Store :=
  st.act o (s.1, s.2.tick o.elapsed)

/-- The answer of a statement that fails. -/
def InvestmentSql.fail {β : Type} (st : InvestmentSql β) (e : InvestmentError) : β :=
  match st with
  | .investmentPositionsReady | .setMatured _ | .acceptInvestmentRisk _ | .pocketOf _ => .error e
  | .lockedPrincipal _ | .limits | .now | .newReference _ | .positionByKey _ => .error e
  | .positionsOf _ | .positionOf .. | .movementByKey _ | .depositTx _ | .claimTx _ => .error e
  | .aggregates | .recordWalletActivity => .error e

/-- The statements of the service over all tables. -/
def investments : Backend InvestmentSql Outside InvestmentError Store where
  run _ st o s := st.run o s
  fail st e := st.fail e

/-- The service beside the ledger. -/
def server : Backend (Beside Query InvestmentSql) Outside InvestmentError Store :=
  accounts.beside investments Outside.ledger .database

/-- A call of the service. -/
abbrev InvestmentCall := ExceptT InvestmentError (Prog (Beside Query InvestmentSql))

/-- A call of the ledger. -/
def ledger {β : Type} (p : Call β) : InvestmentCall β := inside InvestmentError.ledger p

/-- One statement of the service; its failure is thrown. -/
def sql {β : Type} (st : InvestmentSql (Ans β)) : InvestmentCall β := ownCall st

/-! ### Operations -/

/-- Source: `investmentService.ts` `refreshMaturedPositions`. -/
def refreshMaturedPositions (userId : Option String) : InvestmentCall Unit := do
  if ← sql .investmentPositionsReady then sql (.setMatured userId)

/-- Source: `investmentService.ts` `listInvestmentPositions`. -/
def listInvestmentPositions (userId : String) : InvestmentCall (List Position) := do
  if ← sql .investmentPositionsReady then
    refreshMaturedPositions (some userId)
    sql (.positionsOf userId)
  else pure []

/-- The sums of a summary. Source: `investmentService.ts` `getInvestmentSummary`. -/
def aggregates : InvestmentCall Unit := do
  if ← sql .investmentPositionsReady then sql .aggregates

/-- A summary: the balance of the pocket, and the positions.
Source: `investmentService.ts` `getInvestmentSummary`. -/
def getInvestmentSummary (userId : String) : InvestmentCall (ℤ × List Position) := do
  refreshMaturedPositions (some userId)
  let pocket ← sql (.pocketOf userId)
  aggregates
  let positions ← listInvestmentPositions userId
  pure ((pocket.getD {}).balance, positions)

/-- Source: `investmentTreasuryService.ts` `getTotalLockedPrincipalUsd`,
`getUserLockedPrincipalUsd`. -/
def lockedPrincipalUsd (userId : Option String) : InvestmentCall ℚ := do
  if ← sql .investmentPositionsReady then
    let total ← sql (.lockedPrincipal userId)
    pure (nearest (decimal total))
  else pure 0

/-- `params.idempotencyKey ?? newReference(label)`. -/
def referenceOr (key : Option String) (label : String) : InvestmentCall String :=
  match key with
  | some key => pure key
  | none => sql (.newReference label)

/-- The parameters of a deposit. Source: `investmentService.ts` `depositToInvestment`. -/
structure DepositParams where
  userId : String
  usdWalletId : ℕ
  amount : ℚ
  lockDays : ℕ
  name : String
  idempotencyKey : Option String := none
  deriving DecidableEq, Repr

structure DepositResult where
  reference : String
  positionId : ℕ
  investmentBalance : ℤ
  apyPercent : ℚ
  maturesAt : ℕ
  deriving DecidableEq, Repr

/-- The debit of a deposit. -/
def DepositParams.debit (p : DepositParams) (reference : String) : BalanceParams where
  userId := p.userId
  walletId := p.usdWalletId
  amount := p.amount
  source := .investment
  idempotencyKey := debitKey reference
  externalReference := some reference

/-- The position of a deposit. -/
def DepositParams.position (p : DepositParams) (apyPercent : ℚ) (maturesAt : ℕ)
    (reference : String) : NewPosition where
  userId := p.userId
  name := trim p.name
  amount := p.amount
  apyPercent := apyPercent
  lockDays := p.lockDays
  maturesAt := maturesAt
  reference := reference

/-- A deposit whose position there is. Source: `investmentService.ts` `depositToInvestment`. -/
def existingDeposit (p : DepositParams) (apyPercent : ℚ) (reference : String) (positionId : ℕ) :
    InvestmentCall DepositResult := do
  let summary ← getInvestmentSummary p.userId
  match summary.2.find? (·.id = positionId) with
  | some row => pure ⟨reference, positionId, summary.1, apyPercent, row.maturesAt⟩
  | none => do
      let now ← sql .now
      pure ⟨reference, positionId, summary.1, apyPercent, now⟩

/-- From the debit on. Source: `investmentService.ts` `depositToInvestment`. -/
def lockFunds (p : DepositParams) (apyPercent : ℚ) (reference : String) :
    InvestmentCall DepositResult := do
  let _ ← ledger (debitUsdBalance (p.debit reference))
  tryCatch (sql .recordWalletActivity) fun _ => pure ()
  let now ← sql .now
  let maturesAt := now + p.lockDays * day
  let positionId ← sql (.depositTx (p.position apyPercent maturesAt reference))
  let summary ← getInvestmentSummary p.userId
  pure ⟨reference, positionId, summary.1, apyPercent, maturesAt⟩

/-- From the reference on. Source: `investmentService.ts` `depositToInvestment`. -/
def depositUnder (p : DepositParams) (apyPercent : ℚ) (reference : String) :
    InvestmentCall DepositResult := do
  match ← sql (.positionByKey (positionKey reference)) with
  | some positionId => existingDeposit p apyPercent reference positionId
  | none => lockFunds p apyPercent reference

/-- The limits of a deposit. Source: `investmentService.ts` `depositToInvestment`. -/
def checkLimits (p : DepositParams) : InvestmentCall Unit := do
  let totalLocked ← lockedPrincipalUsd none
  let userLocked ← lockedPrincipalUsd (some p.userId)
  let limits ← sql .limits
  if limits.maxTvlUsd < nearest (totalLocked + nearest p.amount) then throw .poolAtCapacity
  else if limits.maxUserLockedUsd < nearest (userLocked + nearest p.amount) then
    throw .userMaximum
  else pure ()

/-- From the plan on. Source: `investmentService.ts` `depositToInvestment`. -/
def depositInto (p : DepositParams) (tier : InvestmentPlanTier) : InvestmentCall DepositResult :=
  if p.amount < 1 then throw .minimumInvestment
  else if trim p.name = "" ∨ 120 < codeUnits (trim p.name) then throw .nameRequired
  else do
    let pocket ← sql (.pocketOf p.userId)
    if pocket.all (!·.riskAccepted) then throw .riskNotAccepted
    else do
      checkLimits p
      let reference ← referenceOr p.idempotencyKey "inv-dep"
      depositUnder p (resolveApyForDeposit tier) reference

/-- Source: `investmentService.ts` `depositToInvestment`. -/
def depositToInvestment (p : DepositParams) : InvestmentCall DepositResult := do
  if ← sql .investmentPositionsReady then
    match findPlanByLockDays p.lockDays with
    | none => throw .invalidLockPeriod
    | some tier => depositInto p tier
  else throw .notAvailable

/-- The parameters of a claim. Source: `investmentService.ts` `claimInvestmentPosition`. -/
structure ClaimParams where
  userId : String
  usdWalletId : ℕ
  positionId : ℕ
  idempotencyKey : Option String := none
  deriving DecidableEq, Repr

structure ClaimResult where
  reference : String
  principal : ℚ
  interest : ℚ
  totalPaid : ℚ
  usdBalance : ℚ
  deriving DecidableEq, Repr

/-- What a claim pays for a position. -/
def ClaimParams.payout (p : ClaimParams) (row : Position) (reference : String) : Payout :=
  let principal := nearest (decimal row.principal)
  let interest := calculateMaturityInterest principal row.apyPercent row.lockDays
  { userId := p.userId
    walletId := p.usdWalletId
    positionId := p.positionId
    principal := row.principal
    interest := interest
    totalPaid := roundMoney (nearest (principal + interest))
    reference := reference }

/-- From the position on. Source: `investmentService.ts` `claimInvestmentPosition`. -/
def payOut (p : ClaimParams) (reference : String) (row : Position) : InvestmentCall ClaimResult :=
  if row.status = .claimed then throw .alreadyClaimed
  else do
    let now ← sql .now
    if now < row.maturesAt then throw .notMatured
    else do
      let payout := p.payout row reference
      sql (.claimTx payout)
      let usdBalance ← ledger (Consumer.sql (.balanceOf p.usdWalletId))
      pure ⟨reference, nearest (decimal row.principal), roundMoney payout.interest,
        payout.totalPaid, usdBalance⟩

/-- From the reference on. Source: `investmentService.ts` `claimInvestmentPosition`. -/
def claimUnder (p : ClaimParams) (reference : String) : InvestmentCall ClaimResult := do
  if ← sql (.movementByKey (claimKey reference)) then
    let usdBalance ← ledger (Consumer.sql (.balanceOf p.usdWalletId))
    pure ⟨reference, 0, 0, 0, usdBalance⟩
  else
    match ← sql (.positionOf p.positionId p.userId) with
    | none => throw .positionNotFound
    | some row => payOut p reference row

/-- Source: `investmentService.ts` `claimInvestmentPosition`. -/
def claimInvestmentPosition (p : ClaimParams) : InvestmentCall ClaimResult := do
  refreshMaturedPositions (some p.userId)
  let reference ← referenceOr p.idempotencyKey "inv-claim"
  claimUnder p reference

/-- A request. -/
inductive Request where
  | acceptInvestmentRisk (userId : String)
  | depositToInvestment (p : DepositParams)
  | claimInvestmentPosition (p : ClaimParams)
  | refreshMaturedPositions (userId : Option String)
  deriving DecidableEq, Repr

/-- What a request runs. -/
def Request.call : Request → InvestmentCall Unit
  | acceptInvestmentRisk userId => sql (.acceptInvestmentRisk userId)
  | depositToInvestment p => do
      let _ ← Investments.depositToInvestment p
  | claimInvestmentPosition p => do
      let _ ← Investments.claimInvestmentPosition p
  | refreshMaturedPositions userId => Investments.refreshMaturedPositions userId

/-- What a request comes to. -/
abbrev Outcome := Except InvestmentError Unit

/-- The requests, before any has begun: nothing is invested. -/
def begun (A : Accounts) (requests : List Request) :
    Pool (Beside Query InvestmentSql) Outcome Store :=
  ⟨(A, {}), requests.map fun r => r.call.run⟩

end DayfiBackend.Consumer.Investments
