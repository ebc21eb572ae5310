import DayfiBackend.Found.Backend
import DayfiBackend.Found.Regex
import DayfiBackend.Found.Rows
import DayfiBackend.Infra.CreatePayout
import Mathlib.Data.List.Sort

/-!
# Recipients

A recipient is whom an organisation pays, a destination a way to pay one: a bank account, a phone,
a wallet or a tag. What is needed to pay is kept in a destination and returned to a payout only;
everyone else is shown a hint of it (`maskDestination`).

A destination is added in several statements, of which the first looks for the recipient. Two of
them beside each other may both take the place of the default destination; the index on the
defaults stops the second.
-/

namespace DayfiBackend.Infra.Recipients

open DayfiBackend.Found DayfiBackend.Found.Keys DayfiBackend.Found.Rows DayfiBackend.Found.Regex
open DayfiBackend.Found.Regex.Re (plus)

/-! ### Destinations -/

/-- Source: `infraRecipientService.ts` `DestinationRail`. -/
inductive Rail where
  | bank
  | mobileMoney
  | crypto
  | dayfi
  deriving DecidableEq, Repr

/-- The text of a rail. -/
def Rail.text : Rail → String
  | bank => "bank"
  | mobileMoney => "mobile_money"
  | crypto => "crypto"
  | dayfi => "dayfi"

/-- Source: `infraRecipientService.ts` `VerificationStatus`. -/
inductive VerificationStatus where
  | unverified
  | pending
  | verified
  | failed
  deriving DecidableEq, Repr

/-- The texts that the column takes. -/
def VerificationStatus.ofText (text : String) : Option VerificationStatus :=
  if text = "unverified" then some unverified
  else if text = "pending" then some pending
  else if text = "verified" then some verified
  else if text = "failed" then some failed
  else none

/-- The status of a recipient or a destination. -/
inductive Status where
  | active
  | archived
  deriving DecidableEq, Repr

/-- The texts that the column takes. -/
def Status.ofText (text : String) : Option Status :=
  if text = "active" then some active else if text = "archived" then some archived else none

/-- What the services throw. Source: `infraRecipientService.ts` `InfraRecipientError`. -/
inductive RecipientError where
  | unsupportedRail (raw : String)
  | displayNameRequired
  | required (field : String) (rail : Rail)
  | recipientNotFound
  | destinationNotFound
  | noDestination
  | outOfRange
  | checkViolation
  | uniqueViolation
  | foreignKey
  | noRow
  | database
  deriving DecidableEq, Repr

namespace RecipientError

/-- The code of an error of the service. -/
def code : RecipientError → Option String
  | unsupportedRail _ => some "INVALID_RAIL"
  | displayNameRequired => some "INVALID_NAME"
  | required .. => some "INVALID_DESTINATION"
  | recipientNotFound | destinationNotFound => some "NOT_FOUND"
  | noDestination => some "NO_DESTINATION"
  | outOfRange | checkViolation | uniqueViolation | foreignKey | noRow | database => none

/-- The text of an error of the service. -/
def message : RecipientError → Option String
  | unsupportedRail raw => some ("Unsupported rail: " ++ raw)
  | displayNameRequired => some "displayName is required"
  | required field rail =>
      some (field ++ " is required for " ++ rail.text ++ if rail = .dayfi then " rail" else "")
  | recipientNotFound => some "Recipient not found"
  | destinationNotFound => some "Destination not found"
  | noDestination => some "No active destination for recipient"
  | outOfRange | checkViolation | uniqueViolation | foreignKey | noRow | database => none

end RecipientError

abbrev Ans (α : Type) := Except RecipientError α

/-- `toLowerCase` and `toUpperCase`, of which is used what the first does to ASCII. -/
structure Letters where
  lower : String → String
  upper : String → String
  lower_ascii : ∀ text : String, (∀ c ∈ text.toList, c.toNat < 128) → lower text = text.toLower

/-- Source: `infraRecipientService.ts` `normalizeRail`. -/
def normalizeRail (L : Letters) (raw : String) : Ans Rail :=
  let r := String.ofList (replaceAll (plus (.one fun c => isSpace c || c = '-')) ['_']
    (L.lower (trim raw)).toList)
  if r = "bank" ∨ r = "bank_transfer" then .ok .bank
  else if r = "mobile_money" ∨ r = "momo" ∨ r = "mobilemoney" then .ok .mobileMoney
  else if r = "crypto" ∨ r = "stellar" ∨ r = "usdc" then .ok .crypto
  else if r = "dayfi" ∨ r = "dayfi_tag" ∨ r = "tag" then .ok .dayfi
  else .error (.unsupportedRail raw)

/-- Source: `infraRecipientService.ts` `DestinationData`. -/
structure DestinationData where
  accountNumber : Option String := none
  accountName : Option String := none
  bankCode : Option String := none
  bankName : Option String := none
  phone : Option String := none
  networkId : Option String := none
  walletAddress : Option String := none
  network : Option String := none
  asset : Option String := none
  dayfiTag : Option String := none
  deriving DecidableEq, Repr

/-- `String(a || b || '')`. -/
def firstOf (a b : Option String) : String := orDefault a (orDefault b "")

namespace DestinationData

variable (data : DestinationData)

/-- The account of a destination, as it is looked for on each rail. -/
def account : Rail → String
  | .bank => orDefault data.accountNumber ""
  | .mobileMoney => firstOf data.phone data.accountNumber
  | .crypto => firstOf data.walletAddress data.accountNumber
  | .dayfi => firstOf data.dayfiTag data.accountNumber

end DestinationData

/-- The last characters of a text, which is given backwards, that make up `n` code units; of a
character that is cut through a replacement stands. -/
def lastUnits : ℕ → List Char → List Char
  | 0, _ => []
  | _, [] => []
  | 1, c :: _ => if c.toNat < 0x10000 then [c] else [Char.ofNat 0xFFFD]
  | n + 2, c :: cs => if c.toNat < 0x10000 then c :: lastUnits (n + 1) cs else c :: lastUnits n cs

/-- `text.slice(-4)`. -/
def lastFourOf (text : String) : String := String.ofList (lastUnits 4 text.toList.reverse).reverse

/-- `text.replace(/\s+/g, '')`. -/
def unspaced (text : String) : String := String.ofList (text.toList.filter (!isSpace ·))

/-- `text.replace(/^@+/, '')`. -/
def withoutAt (text : String) : String := String.ofList (text.toList.dropWhile (· = '@'))

/-- What is shown of a destination. -/
structure Mask where
  lastFour : Option String
  displayHint : String
  deriving DecidableEq, Repr

/-- Source: `infraRecipientService.ts` `maskDestination`. -/
def maskDestination (L : Letters) (rail : Rail) (data : DestinationData)
    (provider : Option String) : Mask :=
  match rail with
  | .bank =>
      let lastFour := orNull (some (lastFourOf (unspaced (data.account .bank))))
      let bank := orDefault provider (orDefault data.bankName "Bank")
      ⟨lastFour, match lastFour with
        | some digits => bank ++ " ···· " ++ digits
        | none => bank⟩
  | .mobileMoney =>
      let lastFour := orNull (some (lastFourOf (unspaced (data.account .mobileMoney))))
      let net := orDefault provider (orDefault data.bankName "Mobile Money")
      ⟨lastFour, match lastFour with
        | some digits => net ++ " ···· " ++ digits
        | none => net⟩
  | .crypto =>
      let lastFour := orNull (some (L.upper (lastFourOf (trim (data.account .crypto)))))
      let asset := L.upper (orDefault data.asset "USDC")
      let network := orDefault data.network (orDefault provider "stellar")
      ⟨lastFour, match lastFour with
        | some digits => asset ++ " · " ++ network ++ " ····" ++ digits
        | none => asset ++ " · " ++ network⟩
  | .dayfi =>
      let tag := L.lower (withoutAt (data.account .dayfi))
      if tag = "" then ⟨none, "Dayfi tag"⟩ else ⟨some (lastFourOf tag), "@" ++ tag⟩

/-- A text of white space only. -/
def Blank (text : String) : Prop := trim text = ""

instance (text : String) : Decidable (Blank text) := inferInstanceAs (Decidable (_ = _))

/-- Source: `infraRecipientService.ts` `validateDestinationData`. -/
def validateDestinationData (rail : Rail) (data : DestinationData) : Ans Unit :=
  match rail with
  | .bank =>
      if Blank (data.account .bank) then .error (.required "accountNumber" .bank)
      else if Blank (orDefault data.accountName "") then .error (.required "accountName" .bank)
      else if Blank (orDefault data.bankCode "") then .error (.required "bankCode" .bank)
      else .ok ()
  | .mobileMoney =>
      if Blank (data.account .mobileMoney) then
        .error (.required "phone / accountNumber" .mobileMoney)
      else .ok ()
  | .crypto =>
      if Blank (data.account .crypto) then .error (.required "walletAddress" .crypto) else .ok ()
  | .dayfi =>
      if Blank (data.account .dayfi) then .error (.required "dayfiTag" .dayfi) else .ok ()

/-! ### Tables -/

/-- Source: `infraRecipientService.ts` `asEnv`. -/
def asEnv (env : String) : Environment := if env = "live" then .live else .test

/-- The text of an environment. -/
def envText : Environment → String
  | .live => "live"
  | .test => "test"

@[simp] theorem asEnv_envText (env : Environment) : asEnv (envText env) = env := by
  cases env <;> rfl

/-- Source: table `infra_recipients`. -/
structure Recipient where
  id : String
  orgId : String
  environment : Environment
  displayName : String
  country : Option String
  email : Option String
  phone : Option String
  status : Status := .active
  metadata : String
  createdAt : ℕ
  updatedAt : ℕ
  deriving DecidableEq, Repr

/-- The values fit the columns. -/
def Recipient.fits (r : Recipient) : Bool :=
  fitsVarchar 255 r.displayName && r.country.all (fitsVarchar 8) && r.email.all (fitsVarchar 255) &&
    r.phone.all (fitsVarchar 32)

/-- What a destination shows. Source: `infraRecipientService.ts` `mapDestinationPublic`. -/
structure DestinationPublic where
  id : String
  recipientId : String
  orgId : String
  environment : Environment
  rail : Rail
  country : Option String
  currency : Option String
  provider : Option String
  label : Option String
  displayHint : String
  lastFour : Option String
  verificationStatus : VerificationStatus
  isDefault : Bool
  status : Status := .active
  createdAt : ℕ
  updatedAt : ℕ
  deriving DecidableEq, Repr

/-- The values fit the columns. -/
def DestinationPublic.fits (d : DestinationPublic) : Bool :=
  d.country.all (fitsVarchar 8) && d.currency.all (fitsVarchar 16) &&
    d.provider.all (fitsVarchar 128) && d.label.all (fitsVarchar 128) &&
    fitsVarchar 255 d.displayHint && d.lastFour.all (fitsVarchar 16)

/-- Source: table `infra_recipient_destinations`. -/
structure Destination extends DestinationPublic where
  destinationData : DestinationData
  deriving DecidableEq, Repr

/-- Source: `infraRecipientService.ts` `mapDestinationPublic`. -/
def mapDestinationPublic (d : Destination) : DestinationPublic := d.toDestinationPublic

/-- The destination takes the place of the default one. -/
def DestinationPublic.holdsDefault (d : DestinationPublic) : Bool :=
  d.isDefault && d.status = .active

/-- The unique columns, and the index on the defaults. -/
def UniqueDestinations (rows : List Destination) : Prop :=
  (rows.map (·.id)).Nodup ∧ ((rows.filter (·.holdsDefault)).map (·.recipientId)).Nodup

instance (rows : List Destination) : Decidable (UniqueDestinations rows) :=
  inferInstanceAs (Decidable (_ ∧ _))

/-- The tables. -/
structure Tables where
  recipients : List Recipient := []
  destinations : List Destination := []
  time : ℕ := 0
  uniqueIds : (recipients.map (·.id)).Nodup := by decide
  uniqueDestinations : UniqueDestinations destinations := by decide

/-- How the database compares texts: the order of a name before another, and `ILIKE`. -/
structure Collation where
  before : String → String → Bool
  ilike : String → String → Bool

/-- `ORDER BY is_default DESC, created_at ASC`. -/
def DestinationPublic.before (a b : DestinationPublic) : Prop :=
  a.isDefault = true ∧ b.isDefault = false ∨ a.isDefault = b.isDefault ∧ a.createdAt ≤ b.createdAt

instance : DecidableRel DestinationPublic.before := fun _ _ => inferInstanceAs (Decidable (_ ∨ _))

/-- `ORDER BY is_default DESC, created_at ASC`, of rows. -/
def Destination.before (a b : Destination) : Prop :=
  a.toDestinationPublic.before b.toDestinationPublic

instance : DecidableRel Destination.before :=
  fun a b => inferInstanceAs (Decidable (a.toDestinationPublic.before b.toDestinationPublic))

/-- `ORDER BY display_name ASC, created_at DESC`. -/
def Recipient.before (C : Collation) (a b : Recipient) : Prop :=
  C.before a.displayName b.displayName = true ∧
    (C.before b.displayName a.displayName = true → b.createdAt ≤ a.createdAt)

instance (C : Collation) : DecidableRel (Recipient.before C) :=
  fun _ _ => inferInstanceAs (Decidable (_ ∧ _))

/-- A patch of a recipient; `none` where nothing is asked. Source: `infraRecipientService.ts`
`updateRecipient`. -/
structure RecipientPatch where
  displayName : Option String := none
  country : Option String := none
  email : Option (Option String) := none
  phone : Option (Option String) := none
  status : Option String := none
  metadata : Option String := none
  deriving DecidableEq, Repr

/-- The row that a patch leaves. -/
def Recipient.patched (r : Recipient) (patch : RecipientPatch) (status : Status) (now : ℕ) :
    Recipient :=
  { r with
    displayName := patch.displayName.getD r.displayName
    country := patch.country <|> r.country
    email := patch.email.getD r.email
    phone := patch.phone.getD r.phone
    status := status
    metadata := patch.metadata.getD r.metadata
    updatedAt := now }

/-- The statements. -/
inductive RecipientSql : Type → Type
  | insertRecipient (row : Recipient) : RecipientSql (Ans Recipient)
  | searchRecipients (orgId : String) (environment : Environment) (includeArchived : Bool)
      (q : String) : RecipientSql (Ans (List Recipient))
  | findRecipient (recipientId orgId : String) (environment : Option Environment) :
      RecipientSql (Ans (Option Recipient))
  | findActiveRecipient (recipientId orgId : String) (environment : Environment) :
      RecipientSql (Ans (Option Recipient))
  | updateRecipient (recipientId orgId : String) (patch : RecipientPatch) :
      RecipientSql (Ans Recipient)
  | listDestinations (orgId recipientId : String) : RecipientSql (Ans (List Destination))
  | clearDefault (recipientId orgId : String) : RecipientSql (Ans Unit)
  | insertDestination (row : Destination) (verificationStatus : String) :
      RecipientSql (Ans Destination)
  | archiveDestination (destinationId orgId : String) : RecipientSql (Ans (Option Destination))
  | findDestination (destinationId recipientId orgId : String) :
      RecipientSql (Ans (Option Destination))
  | firstDestination (recipientId orgId : String) : RecipientSql (Ans (Option Destination))

namespace Tables

/-- Some time passes. -/
def tick (T : Tables) (elapsed : ℕ) : Tables := { T with time := T.time + elapsed }

/-- The insert of a recipient. -/
def insertRecipient (T : Tables) (id : String) (row : Recipient) : Ans Recipient × Tables :=
  let new : Recipient := { row with id := id, createdAt := T.time, updatedAt := T.time }
  if !row.fits then (.error .outOfRange, T)
  else if h : ((new :: T.recipients).map (·.id)).Nodup then
    (.ok new, { T with recipients := new :: T.recipients, uniqueIds := h })
  else (.error .uniqueViolation, T)

/-- The recipients that a search finds. -/
def searchRecipients (T : Tables) (C : Collation) (orgId : String) (environment : Environment)
    (includeArchived : Bool) (q : String) : List Recipient :=
  let pattern := "%" ++ q ++ "%"
  let found := T.recipients.filter fun r =>
    r.orgId = orgId && r.environment = environment && (includeArchived || r.status = .active) &&
      (q = "" || C.ilike r.displayName pattern || C.ilike (r.email.getD "") pattern)
  (found.insertionSort (Recipient.before C)).take 200

/-- A recipient of an organisation. -/
def findRecipient (T : Tables) (recipientId orgId : String) (environment : Option Environment) :
    Option Recipient :=
  T.recipients.find? fun r =>
    r.id = recipientId && r.orgId = orgId && environment.all (r.environment = ·)

/-- The update of a recipient. -/
def updateRecipient (T : Tables) (recipientId orgId : String) (patch : RecipientPatch) :
    Ans Recipient × Tables :=
  match T.findRecipient recipientId orgId none with
  | none => (.error .noRow, T)
  | some r =>
      match (patch.status.map Status.ofText).getD (some r.status) with
      | none => (.error .checkViolation, T)
      | some status =>
          let new := r.patched patch status T.time
          let rows : List Recipient := T.recipients.map fun o => if o.id = r.id then new else o
          if !new.fits then (.error .outOfRange, T)
          else if h : (rows.map Recipient.id).Nodup then
            (.ok new, { T with recipients := rows, uniqueIds := h })
          else (.error .uniqueViolation, T)

/-- The destinations of a recipient that are active, in order. -/
def listDestinations (T : Tables) (orgId recipientId : String) : List Destination :=
  (T.destinations.filter fun d =>
    d.orgId = orgId && d.recipientId = recipientId && d.status = .active).insertionSort
      Destination.before

/-- The rows after an update of the ones that are asked for. -/
def changed (T : Tables) (asked : Destination → Bool) (f : Destination → Destination) :
    List Destination :=
  T.destinations.map fun d => if asked d then f d else d

/-- A destination that is not the default one any more. -/
def undefaulted (now : ℕ) (d : Destination) : Destination :=
  { d with isDefault := false, updatedAt := now }

/-- A destination that has been archived. -/
def archived (now : ℕ) (d : Destination) : Destination :=
  { d with status := .archived, isDefault := false, updatedAt := now }

/-- The update that makes room for a default destination. -/
def clearDefault (T : Tables) (recipientId orgId : String) : Ans Unit × Tables :=
  let rows := T.changed
    (fun d => d.recipientId = recipientId && d.orgId = orgId && d.isDefault) (undefaulted T.time)
  if h : UniqueDestinations rows then
    (.ok (), { T with destinations := rows, uniqueDestinations := h })
  else (.error .uniqueViolation, T)

/-- The insert of a destination. -/
def insertDestination (T : Tables) (id : String) (row : Destination)
    (verificationStatus : String) : Ans Destination × Tables :=
  match VerificationStatus.ofText verificationStatus with
  | none => (.error .checkViolation, T)
  | some status =>
      let new : Destination := { row with
        id := id, verificationStatus := status, createdAt := T.time, updatedAt := T.time }
      if !row.fits then (.error .outOfRange, T)
      else if !(T.recipients.any (·.id = row.recipientId)) then (.error .foreignKey, T)
      else if h : UniqueDestinations (new :: T.destinations) then
        (.ok new, { T with destinations := new :: T.destinations, uniqueDestinations := h })
      else (.error .uniqueViolation, T)

/-- The update that archives a destination. -/
def archiveDestination (T : Tables) (destinationId orgId : String) :
    Ans (Option Destination) × Tables :=
  let asked (d : Destination) : Bool :=
    d.id = destinationId && d.orgId = orgId && d.status = .active
  let rows := T.changed asked (archived T.time)
  if h : UniqueDestinations rows then
    (.ok ((T.destinations.find? asked).map (archived T.time)),
      { T with destinations := rows, uniqueDestinations := h })
  else (.error .uniqueViolation, T)

/-- A destination of a recipient that is active. -/
def findDestination (T : Tables) (destinationId recipientId orgId : String) : Option Destination :=
  T.destinations.find? fun d => d.id = destinationId && d.recipientId = recipientId &&
    d.orgId = orgId && d.status = .active

end Tables

/-- The outside at a step: the identifier the database makes up, and the time that has passed. -/
structure Outside where
  newId : String := ""
  elapsed : ℕ := 0
  deriving DecidableEq, Repr

/-- One statement, once the time has passed. -/
def RecipientSql.act (C : Collation) {β : Type} (st : RecipientSql β) (o : Outside) (T : Tables) :
    β × Tables :=
  match st with
  | .insertRecipient row => T.insertRecipient o.newId row
  | .searchRecipients orgId environment includeArchived q =>
      (.ok (T.searchRecipients C orgId environment includeArchived q), T)
  | .findRecipient recipientId orgId environment =>
      (.ok (T.findRecipient recipientId orgId environment), T)
  | .findActiveRecipient recipientId orgId environment =>
      (.ok ((T.findRecipient recipientId orgId (some environment)).filter (·.status = .active)), T)
  | .updateRecipient recipientId orgId patch => T.updateRecipient recipientId orgId patch
  | .listDestinations orgId recipientId => (.ok (T.listDestinations orgId recipientId), T)
  | .clearDefault recipientId orgId => T.clearDefault recipientId orgId
  | .insertDestination row verificationStatus =>
      T.insertDestination o.newId row verificationStatus
  | .archiveDestination destinationId orgId => T.archiveDestination destinationId orgId
  | .findDestination destinationId recipientId orgId =>
      (.ok (T.findDestination destinationId recipientId orgId), T)
  | .firstDestination recipientId orgId => (.ok (T.listDestinations orgId recipientId).head?, T)

/-- One statement, when it gets there. -/
def RecipientSql.run (C : Collation) {β : Type} (st : RecipientSql β) (o : Outside) (T : Tables) :
    β × Tables :=
  st.act C o (T.tick o.elapsed)

/-- The answer of a statement that fails. -/
def RecipientSql.fail {β : Type} (st : RecipientSql β) (e : RecipientError) : β :=
  match st with
  | .insertRecipient _ | .searchRecipients .. | .findRecipient .. => .error e
  | .findActiveRecipient .. | .updateRecipient .. | .listDestinations .. => .error e
  | .clearDefault .. | .insertDestination .. | .archiveDestination .. => .error e
  | .findDestination .. | .firstDestination .. => .error e

/-- The statements over the tables. -/
def recipients (C : Collation) : Backend RecipientSql Outside RecipientError Tables where
  run _ st o T := st.run C o T
  fail st e := st.fail e

/-- A call of the services. -/
abbrev RecipientCall := ExceptT RecipientError (Prog RecipientSql)

/-- One statement; its failure is thrown. -/
def sql {β : Type} (st : RecipientSql (Ans β)) : RecipientCall β := Backend.call st

/-- What was worked out without a statement. -/
def worked {β : Type} (r : Ans β) : RecipientCall β := ExceptT.mk (pure r)

/-! ### Operations -/

/-- What is shown of a recipient. Source: `infraRecipientService.ts` `mapRecipient`. -/
structure RecipientView where
  recipient : Recipient
  destinations : List DestinationPublic
  deriving DecidableEq, Repr

/-- Source: `infraRecipientService.ts` `CreateDestinationInput`. -/
structure CreateDestinationInput where
  rail : String
  country : Option String := none
  currency : Option String := none
  provider : Option String := none
  label : Option String := none
  isDefault : Option Bool := none
  verificationStatus : Option String := none
  destinationData : DestinationData := {}
  deriving DecidableEq, Repr

/-- Source: `infraRecipientService.ts` `CreateRecipientInput`. -/
structure CreateRecipientInput where
  orgId : String
  environment : String
  displayName : Option String := none
  country : Option String := none
  email : Option String := none
  phone : Option String := none
  metadata : String := "\x7b\x7d"
  destination : Option CreateDestinationInput := none
  deriving DecidableEq, Repr

/-- Source: `infraRecipientService.ts` `listDestinationsPublic`. -/
def listDestinationsPublic (orgId recipientId : String) :
    RecipientCall (List DestinationPublic) := do
  let rows ← sql (.listDestinations orgId recipientId)
  pure (rows.map mapDestinationPublic)

/-- Source: `infraRecipientService.ts` `getRecipient`. -/
def getRecipient (orgId recipientId : String) (environment : Option String) :
    RecipientCall RecipientView := do
  match ← sql (.findRecipient recipientId orgId ((orNull environment).map asEnv)) with
  | none => throw .recipientNotFound
  | some row => do
      let destinations ← listDestinationsPublic orgId row.id
      pure ⟨row, destinations⟩

section letters

variable (L : Letters)

/-- The row of a new destination. Source: `infraRecipientService.ts` `addDestination`. -/
def newDestination (orgId recipientId : String) (env : Environment) (country : Option String)
    (rail : Rail) (input : CreateDestinationInput) : Destination :=
  let mask := maskDestination L rail input.destinationData input.provider
  { id := ""
    recipientId := recipientId
    orgId := orgId
    environment := env
    rail := rail
    country := (orNull input.country).map L.upper <|> orNull country
    currency := (orNull input.currency).map L.upper
    provider := orNull input.provider
    label := orNull input.label
    displayHint := mask.displayHint
    lastFour := mask.lastFour
    verificationStatus := .unverified
    isDefault := input.isDefault.getD false
    createdAt := 0
    updatedAt := 0
    destinationData := input.destinationData }

/-- A default destination takes the place of the one there is. -/
def makeRoom (recipientId orgId : String) (isDefault : Bool) : RecipientCall Unit :=
  if isDefault then sql (.clearDefault recipientId orgId) else pure ()

/-- Source: `infraRecipientService.ts` `addDestination`. -/
def addDestination (orgId recipientId environment : String) (input : CreateDestinationInput) :
    RecipientCall DestinationPublic := do
  let env := asEnv environment
  let view ← getRecipient orgId recipientId (some (envText env))
  let rail ← worked (normalizeRail L input.rail)
  worked (validateDestinationData rail input.destinationData)
  makeRoom recipientId orgId (input.isDefault.getD false)
  let row ← sql (.insertDestination
    (newDestination L orgId recipientId env view.recipient.country rail input)
    (orDefault input.verificationStatus "unverified"))
  pure (mapDestinationPublic row)

/-- The row of a new recipient. Source: `infraRecipientService.ts` `createRecipient`. -/
def newRecipient (input : CreateRecipientInput) (displayName : String) : Recipient where
  id := ""
  orgId := input.orgId
  environment := asEnv input.environment
  displayName := displayName
  country := (orNull input.country).map L.upper
  email := orNull input.email
  phone := orNull input.phone
  metadata := input.metadata
  createdAt := 0
  updatedAt := 0

/-- The destination that comes with a new recipient. Source: `infraRecipientService.ts`
`createRecipient`. -/
def addFirst (orgId recipientId environment : String) :
    Option CreateDestinationInput → RecipientCall (List DestinationPublic)
  | none => pure []
  | some input => do
      let added ← addDestination L orgId recipientId environment
        { input with isDefault := some (input.isDefault != some false) }
      pure [added]

/-- Source: `infraRecipientService.ts` `createRecipient`. -/
def createRecipient (input : CreateRecipientInput) : RecipientCall RecipientView := do
  let displayName := trim (orDefault input.displayName "")
  if codeUnits displayName < 2 then throw .displayNameRequired
  else do
    let recipient ← sql (.insertRecipient (newRecipient L input displayName))
    let destinations ← addFirst L input.orgId recipient.id (envText (asEnv input.environment))
      input.destination
    pure ⟨recipient, destinations⟩

/-- Source: `infraRecipientService.ts` `updateRecipient`. -/
def updateRecipient (orgId recipientId : String) (patch : RecipientPatch) :
    RecipientCall RecipientView := do
  let _ ← getRecipient orgId recipientId none
  let row ← sql (.updateRecipient recipientId orgId { patch with
    displayName := patch.displayName.map trim
    country := patch.country.map L.upper
    status := orNull patch.status })
  let destinations ← listDestinationsPublic orgId row.id
  pure ⟨row, destinations⟩

/-- Source: `infraRecipientService.ts` `archiveRecipient`. -/
def archiveRecipient (orgId recipientId : String) : RecipientCall RecipientView :=
  updateRecipient L orgId recipientId { status := some "archived" }

end letters

/-- The recipients that were found, each with its destinations. Source: `infraRecipientService.ts`
`listRecipients`. -/
def withDestinations (orgId : String) : List Recipient → RecipientCall (List RecipientView)
  | [] => pure []
  | row :: rows => do
      let destinations ← listDestinationsPublic orgId row.id
      let rest ← withDestinations orgId rows
      pure (⟨row, destinations⟩ :: rest)

/-- Source: `infraRecipientService.ts` `listRecipients`. -/
def listRecipients (orgId environment : String) (q : Option String) (includeArchived : Bool) :
    RecipientCall (List RecipientView) := do
  let rows ← sql (.searchRecipients orgId (asEnv environment) includeArchived
    (trim (orDefault q "")))
  withDestinations orgId rows

/-- Source: `infraRecipientService.ts` `archiveDestination`. -/
def archiveDestination (orgId destinationId : String) : RecipientCall DestinationPublic := do
  match ← sql (.archiveDestination destinationId orgId) with
  | none => throw .destinationNotFound
  | some row => pure (mapDestinationPublic row)

/-- What is asked of a payout. Source: `infraRecipientService.ts`
`resolveDestinationForPayout`. -/
structure ResolveInput where
  orgId : String
  environment : String
  recipientId : String
  destinationId : Option String := none
  deriving DecidableEq, Repr

/-- What a payout is made to. Source: `infraRecipientService.ts` `resolveDestinationForPayout`. -/
structure ResolvedDestination where
  recipient : Recipient
  destination : Destination
  deriving DecidableEq, Repr

/-- The destination that is asked for, or the first one. -/
def destinationAsked (input : ResolveInput) : RecipientSql (Ans (Option Destination)) :=
  match orNull input.destinationId with
  | some destinationId => .findDestination destinationId input.recipientId input.orgId
  | none => .firstDestination input.recipientId input.orgId

/-- Source: `infraRecipientService.ts` `resolveDestinationForPayout`. -/
def resolveDestinationForPayout (input : ResolveInput) : RecipientCall ResolvedDestination := do
  match ← sql (.findActiveRecipient input.recipientId input.orgId (asEnv input.environment)) with
  | none => throw .recipientNotFound
  | some recipient => do
      match ← sql (destinationAsked input) with
      | none => throw .noDestination
      | some destination => pure ⟨recipient, destination⟩

/-- What runs. -/
inductive Request where
  | createRecipient (input : CreateRecipientInput)
  | listRecipients (orgId environment : String) (q : Option String) (includeArchived : Bool)
  | getRecipient (orgId recipientId : String) (environment : Option String)
  | updateRecipient (orgId recipientId : String) (patch : RecipientPatch)
  | archiveRecipient (orgId recipientId : String)
  | addDestination (orgId recipientId environment : String) (input : CreateDestinationInput)
  | archiveDestination (orgId destinationId : String)
  | resolveDestinationForPayout (input : ResolveInput)
  deriving DecidableEq, Repr

/-- What a request comes to. -/
inductive Outcome where
  | recipient (r : Ans RecipientView)
  | recipients (r : Ans (List RecipientView))
  | destination (r : Ans DestinationPublic)
  | resolved (r : Ans ResolvedDestination)
  deriving DecidableEq, Repr

/-- What a request runs. -/
def Request.program (L : Letters) : Request → Prog RecipientSql Outcome
  | createRecipient input =>
      (Recipients.createRecipient L input).run >>= fun r => pure (.recipient r)
  | listRecipients orgId environment q includeArchived =>
      (Recipients.listRecipients orgId environment q includeArchived).run >>=
        fun r => pure (.recipients r)
  | getRecipient orgId recipientId environment =>
      (Recipients.getRecipient orgId recipientId environment).run >>= fun r => pure (.recipient r)
  | updateRecipient orgId recipientId patch =>
      (Recipients.updateRecipient L orgId recipientId patch).run >>= fun r => pure (.recipient r)
  | archiveRecipient orgId recipientId =>
      (Recipients.archiveRecipient L orgId recipientId).run >>= fun r => pure (.recipient r)
  | addDestination orgId recipientId environment input =>
      (Recipients.addDestination L orgId recipientId environment input).run >>=
        fun r => pure (.destination r)
  | archiveDestination orgId destinationId =>
      (Recipients.archiveDestination orgId destinationId).run >>= fun r => pure (.destination r)
  | resolveDestinationForPayout input =>
      (Recipients.resolveDestinationForPayout input).run >>= fun r => pure (.resolved r)

/-- The requests, before any has begun. -/
def begun (L : Letters) (T : Tables) (requests : List Request) :
    Pool RecipientSql Outcome Tables :=
  ⟨T, requests.map (Request.program L)⟩

end DayfiBackend.Infra.Recipients
