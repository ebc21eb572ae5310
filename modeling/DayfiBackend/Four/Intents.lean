import DayfiBackend.Found.Backend
import DayfiBackend.Found.Keys
import Mathlib.Algebra.Group.Nat.Defs
import Mathlib.Data.Rat.Defs

/-!
# Intents of a conversation

A conversation has one row of `four_active_intents`: what its user has asked for (`intent` and
`slots`) and how far that has come (`status`). A new request of the user overwrites the row and
keeps its identifier. When the user has confirmed, `authorizeIntentWithPin` reads the row, checks
the PIN, marks the row `PROCESSING`, executes what it has read, and marks the row again.

What a row was asked for is kept beside it, as it was written (`Asked`), with a number that tells
one request from the next; so is what was executed, and which requests were cancelled. What an
execution does beyond being called is taken from the outside: whether it moved money, and what it
returned or threw. The conversions of what it is passed (`Number`, `String`) are left to it.
-/

namespace DayfiBackend.Four.Intents

open DayfiBackend.Found DayfiBackend.Found.Keys

/-! ### Tables -/

/-- Source: `intentService.ts` `IntentName`. -/
inductive IntentName where
  | balance
  | sendMoney
  | fundCrypto
  | sendCrypto
  | payBill
  | sendYc
  deriving DecidableEq, Repr

/-- Source: `intentService.ts` `IntentStatus`. -/
inductive IntentStatus where
  | collectingInformation
  | awaitingConfirmation
  | awaitingAuthorization
  | awaitingDeposit
  | processing
  | completed
  | failed
  | cancelled
  deriving DecidableEq, Repr

/-- Source: `intentService.ts` `TERMINAL`. -/
def IntentStatus.isTerminal (status : IntentStatus) : Bool :=
  status = .completed || status = .failed || status = .cancelled

/-- Source: `recipientResolver.ts` `ResolvedRecipient`. -/
structure ResolvedRecipient where
  beneficiaryId : Option String := none
  name : String
  accountNumber : String
  bankCode : String
  bankName : String
  accountType : String
  deriving DecidableEq, Repr

/-- A value of a slot. -/
inductive SlotValue where
  | text (s : String)
  | number (q : ℚ)
  | flag (b : Bool)
  | recipient (r : ResolvedRecipient)
  deriving DecidableEq, Repr

/-- The slots of an intent, by their keys. -/
abbrev Slots := List (String × SlotValue)

/-- `slots[key]`, when it is truthy. -/
def Slots.get (slots : Slots) (key : String) : Option SlotValue :=
  (slots.lookup key).filter fun value =>
    value ≠ .text "" && value ≠ .number 0 && value ≠ .flag false

/-- What a user has asked for, as it was written; the number tells one request from the next. -/
structure Asked where
  number : ℕ
  intent : IntentName
  slots : Slots
  deriving DecidableEq, Repr

/-- Source: table `four_active_intents`; with what the row was asked for. -/
structure Intent where
  id : ℕ
  conversationId : String
  userId : String
  intent : IntentName
  status : IntentStatus
  slots : Slots
  metadata : List (String × String)
  expiresAt : ℕ
  asked : Asked
  deriving DecidableEq, Repr

/-- `{ ...metadata, [key]: value }`. -/
def withKey (metadata : List (String × String)) (key value : String) : List (String × String) :=
  metadata.filter (·.1 ≠ key) ++ [(key, value)]

/-- What is executed. -/
inductive Payment where
  | crypto (amount asset network recipient : SlotValue)
  | bill (slots : Slots)
  | yellowCard (slots : Slots)
  | bank (amount : SlotValue) (recipient : ResolvedRecipient)
  deriving DecidableEq, Repr

/-- What an intent executes, if its slots are filled.
Source: `authorizeService.ts` `authorizeIntentWithPin`. -/
def paymentOf (intent : IntentName) (slots : Slots) : Option Payment :=
  match intent with
  | .sendCrypto => do
      let amount ← Slots.get slots "amount"
      let asset ← Slots.get slots "asset"
      let network ← Slots.get slots "network"
      let recipient ← Slots.get slots "to"
      pure (.crypto amount asset network recipient)
  | .payBill => some (.bill slots)
  | .sendYc => some (.yellowCard slots)
  | _ => do
      let amount ← Slots.get slots "amount"
      match Slots.get slots "recipient" with
      | some (.recipient r) => pure (.bank amount r)
      | _ => none

/-- What an execution returns. -/
structure Execution where
  reference : String
  message : String
  deriving DecidableEq, Repr

/-- Source: `messageService.ts` `MessageType`, as far as it is used. -/
inductive MessageType where
  | receipt
  | error
  deriving DecidableEq, Repr

/-- What a receipt is about. -/
structure ReceiptMetadata where
  intentId : ℕ
  reference : String
  amount : Option SlotValue
  currency : SlotValue
  deriving DecidableEq, Repr

/-- A message to the user. -/
structure Message where
  userId : String
  conversationId : String
  type : MessageType
  content : String
  metadata : Option ReceiptMetadata := none
  deriving DecidableEq, Repr

/-- Something that was executed: the payment of an intent, or the debits of a crypto payment; and
whether it moved money, and succeeded. -/
structure Executed where
  intentId : ℕ
  asked : Asked
  payment : Payment
  debits : Bool
  moved : Bool
  succeeded : Bool
  deriving DecidableEq, Repr

/-- The tables, and the time. -/
structure Tables where
  intents : List Intent := []
  messages : List Message := []
  executed : List Executed := []
  cancelled : List ℕ := []
  asks : ℕ := 0
  time : ℕ := 0

/-- What the services throw. -/
inductive IntentError where
  | intentNotFound
  | intentInvalidState
  | pinNotSet
  | pinInvalid
  | transferFailed (message : String)
  | execution (message : String)
  | nullIntent
  | noRow
  | database (message : String)
  deriving DecidableEq, Repr

/-- The text of an error. Source: `errors.ts` `MESSAGE`, and those of the errors of the language
and the database. -/
def IntentError.message : IntentError → String
  | intentNotFound => "That request was not found or has expired."
  | intentInvalidState => "That request is no longer ready to authorize."
  | pinNotSet => "Create a transaction PIN before sending money."
  | pinInvalid => "That PIN is incorrect."
  | transferFailed message | execution message | database message => message
  | nullIntent => "Cannot read properties of null (reading 'id')"
  | noRow => "No data returned from the query."

abbrev Ans (α : Type) := Except IntentError α

/-- The outside at a step: the PIN that is set, as its hash tells, whether an execution moves money
and what it comes to, and the time that has passed. -/
structure Outside where
  pin : Option String := some "1234"
  moves : Bool := true
  answer : Except String Execution := .ok ⟨"ref", "✅ Sent successfully."⟩
  elapsed : ℕ := 0

/-- The parameters of `upsertActiveIntent`. -/
structure UpsertParams where
  userId : String
  conversationId : String
  intent : IntentName
  status : IntentStatus
  slots : Slots := []
  metadata : List (String × String) := []
  deriving DecidableEq, Repr

/-- A day, in microseconds. -/
def day : ℕ := 24 * 60 * 60 * 10 ^ 6

namespace Tables

/-- Some time passes. -/
def tick (T : Tables) (elapsed : ℕ) : Tables := { T with time := T.time + elapsed }

/-- Source: `intentService.ts` `getIntentForUser`. -/
def intentForUser (T : Tables) (userId : String) (id : ℕ) : Option Intent :=
  T.intents.find? fun r => r.id = id && r.userId = userId

/-- What an upsert asks for. -/
def asking (T : Tables) (p : UpsertParams) : Asked := ⟨T.asks, p.intent, p.slots⟩

/-- The row of a conversation, overwritten. -/
def overwritten (T : Tables) (p : UpsertParams) (r : Intent) : Intent :=
  { r with
    intent := p.intent
    status := p.status
    slots := p.slots
    metadata := p.metadata
    expiresAt := T.time + day
    asked := T.asking p }

/-- The row of a new conversation. -/
def newIntent (T : Tables) (p : UpsertParams) : Intent where
  id := T.intents.length
  conversationId := p.conversationId
  userId := p.userId
  intent := p.intent
  status := p.status
  slots := p.slots
  metadata := p.metadata
  expiresAt := T.time + day
  asked := T.asking p

/-- Source: `intentService.ts` `upsertActiveIntent`. -/
def upsert (T : Tables) (p : UpsertParams) : Tables :=
  { T with
    asks := T.asks + 1
    intents :=
      if T.intents.any (·.conversationId = p.conversationId) then
        T.intents.map fun r => if r.conversationId = p.conversationId then T.overwritten p r else r
      else T.newIntent p :: T.intents }

/-- What the update of `updateIntent` sets. -/
structure IntentPatch where
  status : IntentStatus
  slots : Slots
  metadata : List (String × String)
  deriving DecidableEq, Repr

/-- A row, patched. -/
def IntentPatch.apply (p : IntentPatch) (r : Intent) : Intent :=
  { r with status := p.status, slots := p.slots, metadata := p.metadata }

/-- The update of `updateIntent`. -/
def update (T : Tables) (userId : String) (id : ℕ) (p : IntentPatch) : Tables :=
  { T with intents := T.intents.map fun r =>
      if r.id = id && r.userId = userId then p.apply r else r }

/-- A row that `cancelActiveIntent` cancels. -/
def cancels (userId conversationId : String) (r : Intent) : Bool :=
  r.conversationId = conversationId && r.userId = userId && !r.status.isTerminal

/-- Source: `intentService.ts` `cancelActiveIntent`. -/
def cancel (T : Tables) (userId conversationId : String) : Tables :=
  { T with
    intents := T.intents.map fun r =>
      if cancels userId conversationId r then { r with status := .cancelled } else r
    cancelled :=
      (T.intents.filter (cancels userId conversationId)).map (·.asked.number) ++ T.cancelled }

end Tables

open Tables (IntentPatch)

/-- The statements. -/
inductive IntentSql : Type → Type
  | intentForUser (userId : String) (id : ℕ) : IntentSql (Ans (Option Intent))
  | upsert (p : UpsertParams) : IntentSql (Ans Intent)
  /-- The update of `updateIntent`. -/
  | update (userId : String) (id : ℕ) (p : IntentPatch) : IntentSql (Ans Intent)
  | cancel (userId conversationId : String) : IntentSql (Ans Unit)
  | transactionPin (userId : String) : IntentSql (Ans (Option String))
  /-- The hash of `verifyUserPin` is compared. -/
  | verifyPin (userId pin : String) : IntentSql (Ans Bool)
  /-- `executeBankSend`, `executeBillPayFromSlots`, `executeYellowCardSendFromSlots` or
  `executeCryptoSendFromSlots`. -/
  | execute (intent : Intent) (payment : Payment) : IntentSql (Ans Execution)
  /-- `recordCryptoOutboundLedger`. -/
  | recordOutbound (intent : Intent) (payment : Payment) (txHash : String) : IntentSql (Ans Unit)
  | appendMessage (m : Message) : IntentSql (Ans Unit)
  | push (userId content : String) : IntentSql (Ans Unit)

/-- An execution is called. -/
def Tables.execute (T : Tables) (intent : Intent) (payment : Payment) (debits : Bool)
    (o : Outside) : Tables :=
  { T with executed :=
      ⟨intent.id, intent.asked, payment, debits, o.moves, o.answer.isOk⟩ :: T.executed }

/-- What an execution answers. -/
def Outside.executes (o : Outside) : Ans Execution := o.answer.mapError .execution

/-- One statement, once the time has passed. -/
def IntentSql.act {β : Type} (st : IntentSql β) (o : Outside) (T : Tables) : β × Tables :=
  match st with
  | .intentForUser userId id => (.ok (T.intentForUser userId id), T)
  | .upsert p =>
      match (T.upsert p).intents.find? (·.conversationId = p.conversationId) with
      | some r => (.ok r, T.upsert p)
      | none => (.error .noRow, T)
  | .update userId id p =>
      match (T.update userId id p).intentForUser userId id with
      | some r => (.ok r, T.update userId id p)
      | none => (.error .noRow, T)
  | .cancel userId conversationId => (.ok (), T.cancel userId conversationId)
  | .transactionPin _ => (.ok o.pin, T)
  | .verifyPin _ pin => (.ok ((orNull o.pin).any (· = pin)), T)
  | .execute intent payment => (o.executes, T.execute intent payment false o)
  | .recordOutbound intent payment _ =>
      (o.executes.map fun _ => (), T.execute intent payment true o)
  | .appendMessage m => (.ok (), { T with messages := m :: T.messages })
  | .push .. => (.ok (), T)

/-- One statement, when it gets there. -/
def IntentSql.run {β : Type} (st : IntentSql β) (o : Outside) (T : Tables) : β × Tables :=
  st.act o (T.tick o.elapsed)

/-- The answer of a statement that fails. -/
def IntentSql.fail {β : Type} (st : IntentSql β) (e : IntentError) : β :=
  match st with
  | .intentForUser .. | .upsert _ | .update .. | .cancel .. | .transactionPin _ => .error e
  | .verifyPin .. | .execute .. | .recordOutbound .. | .appendMessage _ | .push .. => .error e

/-- The statements over the tables. -/
def intents : Backend IntentSql Outside IntentError Tables where
  run _ st o T := st.run o T
  fail st e := st.fail e

/-- A call of the services. -/
abbrev IntentCall := ExceptT IntentError (Prog IntentSql)

/-- One statement; its failure is thrown. -/
def sql {β : Type} (st : IntentSql (Ans β)) : IntentCall β := Backend.call st

/-! ### Operations -/

/-- Source: `intentService.ts` `getIntentForUser`. -/
def getIntentForUser (userId : String) (id : ℕ) : IntentCall (Option Intent) :=
  sql (.intentForUser userId id)

/-- Source: `intentService.ts` `updateIntent`, with a new status and, if it is given, new
metadata. -/
def updateIntent (userId : String) (id : ℕ) (status : IntentStatus)
    (metadata : Option (List (String × String)) := none) : IntentCall (Option Intent) := do
  match ← getIntentForUser userId id with
  | none => pure none
  | some existing => do
      let updated ← sql (.update userId id
        ⟨status, existing.slots, metadata.getD existing.metadata⟩)
      pure (some updated)

/-- Source: `intentService.ts` `upsertActiveIntent`. -/
def upsertActiveIntent (p : UpsertParams) : IntentCall Intent := sql (.upsert p)

/-- Source: `intentService.ts` `cancelActiveIntent`. -/
def cancelActiveIntent (userId conversationId : String) : IntentCall Unit :=
  sql (.cancel userId conversationId)

/-- A row in a state that the Mini App shows. Source: `miniAppService.ts` `MINI_APP_VISIBLE` and
`getIntentForMiniApp`. -/
def visible (intent : Intent) : IntentCall Intent :=
  if intent.status ∈ [.awaitingAuthorization, .processing, .completed, .failed] then pure intent
  else throw .intentInvalidState

/-- Source: `miniAppService.ts` `getIntentForMiniApp`. -/
def getIntentForMiniApp (userId : String) (intentId : ℕ) : IntentCall Intent := do
  match ← getIntentForUser userId intentId with
  | none => throw .intentNotFound
  | some intent =>
      if intent.status = .awaitingConfirmation then do
        match ← updateIntent userId intentId .awaitingAuthorization with
        | none => throw .intentNotFound
        | some promoted => visible promoted
      else visible intent

/-- The button of a review. Source: `telegramRouter.ts` `confirm_send`. -/
def confirmSend (userId : String) (intentId : ℕ) : IntentCall Unit := do
  match ← getIntentForUser userId intentId with
  | none => pure ()
  | some intent =>
      if intent.status ≠ .awaitingConfirmation then pure ()
      else do
        let _ ← updateIntent userId intentId .awaitingAuthorization
        pure ()

/-- Source: `azapNotifyService.ts` `deliverAzapPush`. -/
def deliverAzapPush (userId content : String) : IntentCall Unit :=
  tryCatch (sql (.push userId content)) fun _ => pure ()

/-- The payment of an intent. Source: `authorizeService.ts` `authorizeIntentWithPin`. -/
def execute (intent : Intent) : IntentCall Execution :=
  match paymentOf intent.intent intent.slots with
  | none => throw .intentInvalidState
  | some payment => do
      let sent ← sql (.execute intent payment)
      match payment with
      | .crypto .. => do
          sql (.recordOutbound intent payment sent.reference)
          pure sent
      | _ => pure sent

/-- The receipt of an execution. -/
def receipt (userId : String) (intent : Intent) (execution : Execution) : Message where
  userId := userId
  conversationId := intent.conversationId
  type := .receipt
  content := execution.message
  metadata := some {
    intentId := intent.id
    reference := execution.reference
    amount := intent.slots.lookup "amount"
    currency := ((intent.slots.lookup "currency").or (intent.slots.lookup "asset")).getD
      (.text "NGN") }

/-- The intent is executed and completed. Source: `authorizeService.ts`
`authorizeIntentWithPin`. -/
def complete (userId : String) (intent : Intent) : IntentCall (Intent × Execution) := do
  let execution ← execute intent
  let completed ← updateIntent userId intent.id .completed
    (some (withKey intent.metadata "reference" execution.reference))
  sql (.appendMessage (receipt userId intent execution))
  deliverAzapPush userId execution.message
  match completed with
  | some row => pure (row, execution)
  | none => throw .nullIntent

/-- The report of a failure. -/
def failure (userId : String) (intent : Intent) (e : IntentError) : Message where
  userId := userId
  conversationId := intent.conversationId
  type := .error
  content := "❌ " ++ e.message

/-- The intent has failed. Source: `authorizeService.ts` `authorizeIntentWithPin`. -/
def failed (userId : String) (intent : Intent) (e : IntentError) :
    IntentCall (Intent × Execution) := do
  let _ ← updateIntent userId intent.id .failed (some (withKey intent.metadata "error" e.message))
  sql (.appendMessage (failure userId intent e))
  deliverAzapPush userId ("❌ " ++ e.message)
  throw (.transferFailed e.message)

/-- Source: `sendExecutor.ts` `verifyUserPin`. -/
def verifyUserPin (userId pin : String) : IntentCall Bool := sql (.verifyPin userId pin)

/-- From the PIN on. Source: `authorizeService.ts` `authorizeIntentWithPin`. -/
def authorize (userId pin : String) (intent : Intent) : IntentCall (Intent × Execution) := do
  let transactionPin ← sql (.transactionPin userId)
  if (orNull transactionPin).isNone then throw .pinNotSet
  else do
    let pinOk ← verifyUserPin userId pin
    if !pinOk then throw .pinInvalid
    else do
      let _ ← updateIntent userId intent.id .processing
      tryCatch (complete userId intent) (failed userId intent)

/-- Source: `authorizeService.ts` `authorizeIntentWithPin`. -/
def authorizeIntentWithPin (userId : String) (intentId : ℕ) (pin : String) :
    IntentCall (Intent × Execution) := do
  match ← getIntentForUser userId intentId with
  | none => throw .intentNotFound
  | some intent =>
      if intent.status ≠ .awaitingAuthorization then throw .intentInvalidState
      else if intent.intent ∉ [.sendMoney, .sendCrypto, .payBill, .sendYc] then
        throw .intentInvalidState
      else authorize userId pin intent

/-- A request. -/
inductive Request where
  | authorizeIntentWithPin (userId : String) (intentId : ℕ) (pin : String)
  | getIntentForMiniApp (userId : String) (intentId : ℕ)
  | confirmSend (userId : String) (intentId : ℕ)
  | upsertActiveIntent (p : UpsertParams)
  | cancelActiveIntent (userId conversationId : String)
  deriving DecidableEq, Repr

/-- What a request runs. -/
def Request.call : Request → IntentCall Unit
  | authorizeIntentWithPin userId intentId pin => do
      let _ ← Intents.authorizeIntentWithPin userId intentId pin
  | getIntentForMiniApp userId intentId => do
      let _ ← Intents.getIntentForMiniApp userId intentId
  | confirmSend userId intentId => Intents.confirmSend userId intentId
  | upsertActiveIntent p => do
      let _ ← Intents.upsertActiveIntent p
  | cancelActiveIntent userId conversationId => Intents.cancelActiveIntent userId conversationId

/-- What a request comes to. -/
abbrev Outcome := Except IntentError Unit

/-- The requests, before any has begun: no user has asked for anything. -/
def begun (requests : List Request) : Pool IntentSql Outcome Tables :=
  ⟨{}, requests.map fun r => r.call.run⟩

/-! ### A request -/

/-- Whom the money is sent to. -/
def payee : ResolvedRecipient := ⟨none, "Tunde", "0123456789", "058", "GTBank", "individual"⟩

/-- A request to send money, reviewed. -/
def sendToPayee (amount : ℚ) : UpsertParams where
  userId := "u1"
  conversationId := "c1"
  intent := .sendMoney
  status := .awaitingConfirmation
  slots := [("amount", .number amount), ("recipient", .recipient payee)]

/-- The turns of a request. -/
def turns (i n : ℕ) : List (ℕ × Except IntentError Outside) := List.replicate n (i, .ok {})

/-! ### What the statements do -/

/-- The rows of `T` are still there in `T'`, and so is what was executed. -/
structure Tables.Later (T T' : Tables) : Prop where
  executed : ∀ e ∈ T.executed, e ∈ T'.executed
  rows : ∀ r ∈ T.intents, ∃ r' ∈ T'.intents, r'.id = r.id ∧ r'.userId = r.userId

/-- What a call may count on: its notes are its own, and nothing is deleted. -/
structure Counts {ν : Type} (i : ℕ) (s t : Tables × (ℕ → ν)) : Prop where
  own : t.2 i = s.2 i
  later : s.1.Later t.1

/-- What is known stays so while the others step. -/
def Stays {ν : Type} (i : ℕ) (P : Tables × (ℕ → ν) → Prop) : Prop :=
  ∀ s t, P s → Counts i s t → P t

section statements

variable {T T' T'' : Tables} {r : Intent} {ν : Type} {i : ℕ} {s t u : Tables × (ℕ → ν)}

theorem Tables.Later.of_rows (hrows : T'.intents = T.intents)
    (hexecuted : ∀ e ∈ T.executed, e ∈ T'.executed) : T.Later T' :=
  ⟨hexecuted, fun r hr => ⟨r, hrows ▸ hr, rfl, rfl⟩⟩

theorem Tables.Later.refl (T : Tables) : T.Later T := .of_rows rfl fun _ h => h

theorem Tables.Later.trans (h : T.Later T') (h' : T'.Later T'') : T.Later T'' := by
  refine ⟨fun e he => h'.executed e (h.executed e he), fun r hr => ?_⟩
  obtain ⟨r', hr', hid, huser⟩ := h.rows r hr
  obtain ⟨r'', hr'', hid', huser'⟩ := h'.rows r' hr'
  exact ⟨r'', hr'', hid'.trans hid, huser'.trans huser⟩

/-- Rows are written. -/
theorem Tables.Later.of_map {f : Intent → Intent} (hf : ∀ r, (f r).id = r.id)
    (hf' : ∀ r, (f r).userId = r.userId) (hrows : T'.intents = T.intents.map f)
    (hexecuted : T'.executed = T.executed) : T.Later T' :=
  ⟨fun _ he => hexecuted ▸ he, fun r hr =>
    ⟨f r, hrows ▸ List.mem_map_of_mem hr, hf r, hf' r⟩⟩

/-- What the search for a user's row finds. -/
theorem intentForUser_some {userId : String} {id : ℕ} (h : T.intentForUser userId id = some r) :
    r ∈ T.intents ∧ r.id = id ∧ r.userId = userId := by
  have hfound := List.find?_some h
  simp only [Bool.and_eq_true, decide_eq_true_eq] at hfound
  exact ⟨List.mem_of_find?_eq_some h, hfound⟩

/-- The row that an update returns. -/
theorem intentForUser_update {userId : String} {id : ℕ} {p : Tables.IntentPatch} :
    (T.update userId id p).intentForUser userId id = (T.intentForUser userId id).map p.apply := by
  unfold Tables.intentForUser Tables.update
  dsimp only
  induction T.intents with
  | nil => rfl
  | cons r rs ih =>
      rw [List.map_cons, List.find?_cons, List.find?_cons]
      by_cases hr : (r.id = id && r.userId = userId) = true
      · rw [if_pos hr, hr]
        have hr' : (decide ((p.apply r).id = id) && decide ((p.apply r).userId = userId)) = true :=
          hr
        rw [hr']
        rfl
      · rw [if_neg hr, eq_false_of_ne_true hr]
        exact ih

theorem act_update (userId : String) (id : ℕ) (p : Tables.IntentPatch) (o : Outside) (T : Tables) :
    (IntentSql.update userId id p).act o T = match T.intentForUser userId id with
      | some r => (.ok (p.apply r), T.update userId id p)
      | none => (.error .noRow, T) := by
  unfold IntentSql.act
  dsimp only
  rw [intentForUser_update]
  cases T.intentForUser userId id <;> rfl

theorem later_update (userId : String) (id : ℕ) (p : Tables.IntentPatch) :
    T.Later (T.update userId id p) :=
  .of_map (fun r => by split_ifs <;> rfl) (fun r => by split_ifs <;> rfl) rfl rfl

theorem later_upsert (p : UpsertParams) : T.Later (T.upsert p) := by
  refine ⟨fun _ h => h, fun r hr => ?_⟩
  unfold Tables.upsert
  split_ifs
  · refine ⟨_, List.mem_map_of_mem hr, ?_, ?_⟩ <;> split_ifs <;> rfl
  · exact ⟨r, List.mem_cons_of_mem _ hr, rfl, rfl⟩

theorem later_cancel (userId conversationId : String) :
    T.Later (T.cancel userId conversationId) :=
  .of_map (fun r => by split_ifs <;> rfl) (fun r => by split_ifs <;> rfl) rfl rfl

/-- No statement deletes anything. -/
theorem IntentSql.later_act {β : Type} (st : IntentSql β) (o : Outside) (T : Tables) :
    T.Later (st.act o T).2 := by
  cases st with
  | upsert p =>
      unfold act
      dsimp only
      split
      · exact later_upsert p
      · exact .refl T
  | update userId id p =>
      rw [act_update]
      split
      · exact later_update userId id p
      · exact .refl T
  | cancel userId conversationId => exact later_cancel userId conversationId
  | execute intent payment => exact .of_rows rfl fun e he => List.mem_cons_of_mem _ he
  | recordOutbound intent payment txHash =>
      exact .of_rows rfl fun e he => List.mem_cons_of_mem _ he
  | _ => exact .of_rows rfl fun _ h => h

theorem Counts.refl (i : ℕ) (s : Tables × (ℕ → ν)) : Counts i s s := ⟨rfl, .refl _⟩

theorem Counts.trans (h : Counts i s t) (h' : Counts i t u) : Counts i s u :=
  ⟨h'.own.trans h.own, h.later.trans h'.later⟩

theorem stays_true : Stays i fun _ : Tables × (ℕ → ν) => True := fun _ _ _ _ => trivial

end statements

end DayfiBackend.Four.Intents
