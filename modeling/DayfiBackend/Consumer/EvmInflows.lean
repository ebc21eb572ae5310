import DayfiBackend.Consumer.LedgerCalls

/-!
# Deposits on EVM chains

USDC that arrives at a user's deposit address is mirrored in the USD wallet of the ledger. A sync
asks each chain for the transfers to the address in its last blocks and credits each of them under
a key of its own; what cannot be credited is noted, and the next sync tries again. Syncs of one
user may run side by side, and beside them all other calls of the ledger.

What a chain holds is given, and so is the block that it has got to at every step. The ledger has
the address of a user from the start.
-/

namespace DayfiBackend.Consumer.Evm

open DayfiBackend.Found DayfiBackend.Found.Binary64 DayfiBackend.Found.Keys

/-! ### Chains -/

/-- A transfer that a chain has logged. -/
structure Log where
  transactionHash : String
  index : ℕ
  blockNumber : ℕ
  contract : String
  sender : String
  recipient : String
  value : ℕ
  hash_ok : ':' ∉ transactionHash.toList
  deriving DecidableEq

/-- What the chains hold: their transfers, each with a place of its own, and the decimals of their
tokens. -/
structure Network where
  logs : String → List Log
  decimals : String → ℕ
  unique : ∀ key, ((logs key).map fun l => (l.transactionHash, l.index)).Nodup

/-- What is read of the environment. -/
structure Config where
  stellarTestnet : Bool := false
  ethTestnet : Bool := false
  /-- The endpoint of a chain looks like one of a test network. -/
  nonMainnetRpc : String → Bool := fun _ => false
  usdcAddress : String → Option String := fun _ => none

/-- Source: `evmChains.ts` `MAINNET_CHAINS`. -/
def mainnetChains : List (String × String) :=
  [("ethereum", "0xA0b86991c6218b36c1d19D4a2e9Eb0cE3606eB48"),
   ("bsc", "0x8AC76a51cc950d9822D68b83fE1Ad97B32Cd580d"),
   ("arbitrum", "0xaf88d065e77c8cC2239327C5EDb3A432268e5831"),
   ("mantle", "0x09bc4E0D864854c596aCbF0AACf13857FF43CDE0"),
   ("sonic", "0x29219dd4000522a3657810310865e8346be66025"),
   ("xdc", "0xD4C8aDbCE8BDAECa60A8768d06455A87972608f9")]

/-- Source: `evmChains.ts` `EvmChainConfig`. -/
structure EvmChainConfig where
  key : String
  usdc : String
  deriving DecidableEq, Repr

/-- What a sync throws or notes. -/
inductive InflowError where
  | nonMainnetRpc (key : String)
  | noChain
  | invalidAddress
  | rpc
  | database
  | ledger (e : Err)
  deriving DecidableEq, Repr

/-- Source: `evmChains.ts` `resolveEvmChainConfig`. -/
def resolveEvmChainConfig (cfg : Config) (chainKey : String) :
    Except InflowError (Option EvmChainConfig) :=
  if cfg.stellarTestnet then .ok none
  else if cfg.ethTestnet then .ok none
  else
    match mainnetChains.find? (·.1 = chainKey.toLower) with
    | none => .ok none
    | some (key, usdc) =>
        if cfg.nonMainnetRpc key then .error (.nonMainnetRpc key)
        else .ok (some ⟨key, orDefault ((cfg.usdcAddress key).map trim) usdc⟩)

/-- The chains with a configuration; the first without one stops a sync.
Source: `evmChains.ts` `listEvmChainsForSync`. -/
def chainsFrom (cfg : Config) : List String → Except InflowError (List EvmChainConfig)
  | [] => .ok []
  | key :: keys => do
      match ← resolveEvmChainConfig cfg key with
      | none => .error .noChain
      | some chain => do
          let chains ← chainsFrom cfg keys
          pure (chain :: chains)

/-- Source: `evmChains.ts` `listEvmChainsForSync`. -/
def listEvmChainsForSync (cfg : Config) : Except InflowError (List EvmChainConfig) :=
  if cfg.stellarTestnet then .ok [] else chainsFrom cfg (mainnetChains.map (·.1))

/-! ### Statements -/

/-- Source: `evmInflowSyncService.ts` `LOG_BLOCK_RANGE`. -/
def logBlockRange : ℕ := 9000

/-- Addresses are compared whatever their letters. -/
def SameAddress (a b : String) : Prop := a.toLower = b.toLower

instance (a b : String) : Decidable (SameAddress a b) := inferInstanceAs (Decidable (_ = _))

/-- The block that the chain asked for has got to. -/
structure Outside where
  latest : ℕ := 0
  ledger : Consumer.Outside := {}
  deriving DecidableEq, Repr

abbrev Ans (α : Type) := Except InflowError α

/-- The statements of a sync. -/
inductive InflowSql : Type → Type
  | ledgerMovementsReady : InflowSql (Ans Bool)
  | loadEvmDepositAddress (userId : String) : InflowSql (Ans (Option String))
  | getBlockNumber (key : String) : InflowSql (Ans ℕ)
  | getLogs (chain : EvmChainConfig) (address : String) (fromBlock toBlock : ℕ) :
      InflowSql (Ans (List Log))
  | decimals (key : String) : InflowSql (Ans ℕ)

/-- The tables of the ledger; a sync has none of its own. -/
abbrev Store := Accounts × Unit

/-- The transfers of a contract to an address in a range of blocks. -/
def Network.transfers (N : Network) (chain : EvmChainConfig) (address : String)
    (fromBlock toBlock : ℕ) : List Log :=
  (N.logs chain.key).filter fun l => SameAddress l.contract chain.usdc &&
    SameAddress l.recipient address && fromBlock ≤ l.blockNumber && l.blockNumber ≤ toBlock

/-- One statement, when it gets there. -/
def InflowSql.run (N : Network) (deposits : String → Option String) {β : Type}
    (st : InflowSql β) (o : Outside) (s : Store) : β × Store :=
  match st with
  | .ledgerMovementsReady => (.ok true, s)
  | .loadEvmDepositAddress userId => (.ok (orNull ((deposits userId).map trim)), s)
  | .getBlockNumber _ => (.ok o.latest, s)
  | .getLogs chain address fromBlock toBlock =>
      (.ok (N.transfers chain address fromBlock toBlock), s)
  | .decimals key => (.ok (N.decimals key), s)

/-- The answer of a statement that fails. -/
def InflowSql.fail {β : Type} (st : InflowSql β) (e : InflowError) : β :=
  match st with
  | .ledgerMovementsReady | .loadEvmDepositAddress _ | .getBlockNumber _ => .error e
  | .getLogs .. | .decimals _ => .error e

/-- The statements of a sync over all tables. -/
def inflows (N : Network) (deposits : String → Option String) :
    Backend InflowSql Outside InflowError Store where
  run _ st o s := st.run N deposits o s
  fail st e := st.fail e

/-- The syncs beside the ledger. -/
def server (N : Network) (deposits : String → Option String) :
    Backend (Beside Query InflowSql) Outside InflowError Store :=
  accounts.beside (inflows N deposits) Outside.ledger .database

/-- A call of a sync. -/
abbrev InflowCall := ExceptT InflowError (Prog (Beside Query InflowSql))

/-- A call of the ledger. -/
def ledger {β : Type} (p : Call β) : InflowCall β := inside InflowError.ledger p

/-- One statement of a sync; its failure is thrown. -/
def sql {β : Type} (st : InflowSql (Ans β)) : InflowCall β := ownCall st

/-- What was worked out without a statement. -/
def worked {β : Type} (r : Ans β) : InflowCall β := ExceptT.mk (pure r)

/-! ### Syncs -/

/-- An entry of the `errors` of a sync. -/
inductive InflowNote where
  | movementsMissing
  | walletMissing
  | addressMissing
  | chain (key : String) (e : InflowError)
  | credit (reference : String) (e : InflowError)
  deriving DecidableEq, Repr

/-- An entry of the `credits` of a sync. -/
structure CreditNote where
  chain : String
  amount : ℚ
  duplicate : Bool
  reference : String
  deriving DecidableEq, Repr

/-- Source: `evmInflowSyncService.ts` `EvmInflowSyncResult`. -/
structure EvmInflowSyncResult where
  processed : ℕ := 0
  credited : ℕ := 0
  skipped : ℕ := 0
  errors : List InflowNote := []
  credits : List CreditNote := []
  deriving DecidableEq, Repr

namespace EvmInflowSyncResult

variable (r : EvmInflowSyncResult)

/-- The result with one more transfer left out. -/
def skip : EvmInflowSyncResult := { r with skipped := r.skipped + 1 }

/-- The result with one more error. -/
def note (n : InflowNote) : EvmInflowSyncResult := { r with errors := r.errors ++ [n] }

/-- The result with one more credit. -/
def credit (chain reference : String) (amount : ℚ) (duplicate : Bool) : EvmInflowSyncResult :=
  { r with
    processed := r.processed + 1
    credited := if duplicate then r.credited else r.credited + 1
    credits := r.credits ++ [⟨chain, amount, duplicate, reference⟩] }

/-- The result with that of a chain. -/
def add (partialResult : EvmInflowSyncResult) : EvmInflowSyncResult where
  processed := r.processed + partialResult.processed
  credited := r.credited + partialResult.credited
  skipped := r.skipped + partialResult.skipped
  errors := r.errors ++ partialResult.errors
  credits := r.credits ++ partialResult.credits

end EvmInflowSyncResult

/-- The reference of a transfer. -/
def reference (key : String) (log : Log) : String :=
  "evm-in:" ++ key ++ ":" ++ log.transactionHash ++ ":" ++ toString log.index

/-- The key of the movement of a transfer. -/
def inflowKey (key : String) (log : Log) : String := buildIdempotencyKey "evm" (reference key log)

/-- `Number(ethers.formatUnits(value, decimals))`. -/
def Log.amount (log : Log) (decimals : ℕ) : ℚ := nearest (log.value / 10 ^ decimals)

/-- Who is credited. Source: `evmInflowSyncService.ts` `syncChainUsdcInflows`, its parameters. -/
structure SyncParams where
  userId : String
  address : String
  usdWalletId : ℕ
  deriving DecidableEq, Repr

/-- The credit of a transfer. -/
def SyncParams.credit (p : SyncParams) (key : String) (decimals : ℕ) (log : Log) :
    BalanceParams where
  userId := p.userId
  walletId := p.usdWalletId
  amount := log.amount decimals
  currency := "USD"
  usdEquivalent := log.amount decimals
  source := .evm
  idempotencyKey := inflowKey key log
  externalReference := some (reference key log)

/-- One transfer. Source: `evmInflowSyncService.ts` `syncChainUsdcInflows`. -/
def mirrorLog (p : SyncParams) (key : String) (decimals : ℕ) (result : EvmInflowSyncResult)
    (log : Log) : InflowCall EvmInflowSyncResult :=
  if SameAddress log.sender p.address then pure result.skip
  else if log.amount decimals ≤ 0 then pure result.skip
  else
    tryCatch (do
      let credit ← ledger (creditWalletBalance (p.credit key decimals log))
      pure (result.credit key (reference key log) (log.amount decimals) credit.duplicate))
      fun e => pure (result.note (.credit (reference key log) e))

/-- The transfers, one after another. -/
def mirrorLogs (p : SyncParams) (key : String) (decimals : ℕ) :
    EvmInflowSyncResult → List Log → InflowCall EvmInflowSyncResult
  | result, [] => pure result
  | result, log :: logs => do
      let result ← mirrorLog p key decimals result log
      mirrorLogs p key decimals result logs

/-- The transfers of a chain. Source: `evmInflowSyncService.ts` `syncChainUsdcInflows`. -/
def mirrorChain (isAddress : String → Bool) (p : SyncParams) (chain : EvmChainConfig) :
    InflowCall EvmInflowSyncResult := do
  let latest ← sql (.getBlockNumber chain.key)
  if isAddress p.address = false then throw .invalidAddress
  else do
    let logs ← sql (.getLogs chain p.address (latest - logBlockRange) latest)
    let decimals ← sql (.decimals chain.key)
    mirrorLogs p chain.key decimals {} logs

/-- Source: `evmInflowSyncService.ts` `syncChainUsdcInflows`. -/
def syncChainUsdcInflows (isAddress : String → Bool) (p : SyncParams) (chain : EvmChainConfig) :
    InflowCall EvmInflowSyncResult :=
  tryCatch (mirrorChain isAddress p chain) fun e =>
    pure (({} : EvmInflowSyncResult).note (.chain chain.key e))

/-- The chains, one after another. -/
def syncChains (isAddress : String → Bool) (p : SyncParams) :
    EvmInflowSyncResult → List EvmChainConfig → InflowCall EvmInflowSyncResult
  | result, [] => pure result
  | result, chain :: chains => do
      let partialResult ← syncChainUsdcInflows isAddress p chain
      syncChains isAddress p (result.add partialResult) chains

/-- The parameters of a sync. Source: `evmInflowSyncService.ts` `syncEvmInflowsToLedger`. -/
structure SyncRequest where
  userId : String
  usdWallet : Option ℕ
  deriving DecidableEq, Repr

/-- Source: `evmInflowSyncService.ts` `syncEvmInflowsToLedger`. -/
def syncEvmInflowsToLedger (cfg : Config) (isAddress : String → Bool) (r : SyncRequest) :
    InflowCall EvmInflowSyncResult :=
  let userId := trim r.userId
  let result : EvmInflowSyncResult := {}
  if userId = "" then pure result
  else do
    let ready ← sql .ledgerMovementsReady
    if ready = false then pure (result.note .movementsMissing)
    else
      match r.usdWallet with
      | none => pure (result.note .walletMissing)
      | some usdWalletId => do
          match ← sql (.loadEvmDepositAddress userId) with
          | none => pure (result.note .addressMissing)
          | some address => do
              let chains ← worked (listEvmChainsForSync cfg)
              syncChains isAddress ⟨userId, address, usdWalletId⟩ result chains

/-! ### Runs -/

/-- A call of the ledger on behalf of another source. -/
inductive OtherCall where
  | creditUsdBalance
  | debitUsdBalance
  | creditWalletBalance
  | debitWalletBalance
  deriving DecidableEq, Repr

/-- The parameters of such a call: its key is not one of a transfer. -/
structure OtherParams extends BalanceParams where
  source_ne : source ≠ .evm
  key_ne : ¬ "evm:".toList <+: idempotencyKey.toList

/-- What runs. -/
inductive Request where
  | sync (r : SyncRequest)
  | other (call : OtherCall) (p : OtherParams)

/-- What a request comes to. -/
inductive Outcome where
  | synced (r : Ans EvmInflowSyncResult)
  | other
  deriving DecidableEq, Repr

/-- A call on behalf of another source. -/
def OtherCall.call (p : BalanceParams) : OtherCall → InflowCall Unit
  | creditUsdBalance => ledger (Consumer.creditUsdBalance p) >>= fun _ => pure ()
  | debitUsdBalance => ledger (Consumer.debitUsdBalance p) >>= fun _ => pure ()
  | creditWalletBalance => ledger (Consumer.creditWalletBalance p) >>= fun _ => pure ()
  | debitWalletBalance => ledger (Consumer.debitWalletBalance p) >>= fun _ => pure ()

/-- What a request runs. -/
def Request.program (cfg : Config) (isAddress : String → Bool) :
    Request → Prog (Beside Query InflowSql) Outcome
  | sync r => (syncEvmInflowsToLedger cfg isAddress r).run >>= fun r => pure (.synced r)
  | other call p => (call.call p.toBalanceParams).run >>= fun _ => pure .other

/-- The requests on these wallets, before any has begun. -/
def begun (cfg : Config) (isAddress : String → Bool) (wallets : List WalletRow)
    (requests : List Request) : Pool (Beside Query InflowSql) Outcome Store :=
  ⟨({ wallets := wallets }, ()), requests.map (Request.program cfg isAddress)⟩

end DayfiBackend.Consumer.Evm
