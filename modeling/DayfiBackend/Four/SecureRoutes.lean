import DayfiBackend.Found.Rows
import DayfiBackend.Four.Intents
import DayfiBackend.Four.LinkTokens

/-!
# Routes behind a link

The routes of the app under `/api/v1/four` run behind one of two guards. `requireFourSession` takes
the bearer token for a session. `requireFourSessionOrTelegramWebApp`, which guards the pages that a
link opens, first shows the token to `verifyWhatsappSecureToken`, and tells it no purpose.

A request is one program over the accounts and the intents. The handlers behind the first guard are
parameters, as are the two lookups of the identity service that leave the process, and the texts of
the errors of the schemas are left out. A PIN is stored as its hash, here as what the hash tells.
-/

namespace DayfiBackend.Four.SecureRoutes

open DayfiBackend.Found DayfiBackend.Found.Keys DayfiBackend.Found.Rows
open Intents (Intent IntentSql IntentError Execution Tables)

/-! ### Tables -/

/-- Source: table `users`. -/
structure Account where
  userId : String
  email : Option String := none
  firstName : Option String := none
  lastName : Option String := none
  level : String := "level-1"
  transactionPin : Option String := none
  bvn : Option String := none
  idType : Option String := none
  idNumber : Option String := none
  isDeleted : Bool := false
  lastSeenAt : Option ℕ := none
  deriving DecidableEq, Repr

/-- Source: table `four_sessions`. -/
structure Session where
  tokenHash : String
  userId : String
  revoked : Bool := false
  expiresAt : ℕ
  lastUsedAt : ℕ
  deriving DecidableEq, Repr

/-- Source: table `four_telegram_links`. -/
structure TelegramLink where
  telegramUserId : String
  userId : String
  deriving DecidableEq, Repr

/-- Source: `identityService.ts`, the NGN account of a user. -/
structure NgnAccount where
  accountNumber : Option String
  bankName : Option String
  deriving DecidableEq, Repr

/-- The tables of the app, and the users who were told that their PIN is set. -/
structure FourState where
  users : List Account := []
  sessions : List Session := []
  telegramLinks : List TelegramLink := []
  ngnAccounts : List (String × NgnAccount) := []
  told : List String := []
  intents : Tables := {}

/-- What the routes throw. -/
inductive RouteError where
  | unauthorized
  | badRequest
  | pinMismatch
  | pinInvalid
  | pinAlreadySet
  | sessionInvalid
  | telegramAuthInvalid
  | telegramNotLinked
  | kyc (message : String)
  | intent (e : IntentError)
  | database (message : String)
  deriving DecidableEq, Repr

/-- The text of an error. Source: `errors.ts` `MESSAGE`, `middleware.ts`. -/
def RouteError.message : RouteError → String
  | unauthorized | sessionInvalid => "Please sign in again."
  | badRequest => ""
  | pinMismatch => "Those PINs do not match."
  | pinInvalid => "That PIN is incorrect."
  | pinAlreadySet => "Your transaction PIN is already set."
  | telegramAuthInvalid =>
      "Telegram verification failed. Please open this from Azap in Telegram."
  | telegramNotLinked => "Link your phone number to Azap before authorizing payments."
  | kyc message | database message => message
  | intent e => e.message

abbrev Ans (α : Type) := Except RouteError α

/-- What a lookup of a BVN returns. -/
structure BvnLookup where
  verified : Bool
  verificationSkipped : Bool := false
  deriving DecidableEq, Repr

/-- The outside at a step: that of the intents, and what the bank services answer. -/
structure Outside where
  intents : Intents.Outside := {}
  bvn : Except String BvnLookup := .ok ⟨true, false⟩
  ngn : Except String NgnAccount := .ok ⟨none, none⟩

/-- What `updateProfile` sets. -/
structure NamePatch where
  firstName : Option String
  lastName : Option String
  deriving DecidableEq, Repr

/-- The statements on the accounts. -/
inductive AccountSql : Type → Type
  /-- The update of `validateSessionToken`. -/
  | useSession (tokenHash : String) : AccountSql (Ans (Option String))
  | linkByTelegramUserId (telegramUserId : String) : AccountSql (Ans (Option String))
  | touchLastSeen (userId : String) : AccountSql (Ans Unit)
  | getUserById (userId : String) : AccountSql (Ans (Option Account))
  | setTransactionPin (userId pin : String) : AccountSql (Ans Unit)
  /-- What `setupTransactionPin` tells the chats of a user who has set a PIN. -/
  | tellPinSecured (userId : String) : AccountSql (Ans Unit)
  | updateProfile (userId : String) (patch : NamePatch) : AccountSql (Ans Account)
  | initiateBvnLookup (bvn firstName lastName : String) : AccountSql (Ans BvnLookup)
  | saveUserBvn (userId bvn : String) : AccountSql (Ans Unit)
  | updateUserLevel (userId level : String) : AccountSql (Ans Unit)
  /-- `authService.getUserById`. -/
  | profile (userId : String) : AccountSql (Ans (Option Account))
  | ensureNgnVirtualAccount (userId email bvn : String) : AccountSql (Ans NgnAccount)

namespace FourState

/-- The row of a user, deleted or not. -/
def row (S : FourState) (userId : String) : Option Account :=
  S.users.find? (·.userId = userId)

/-- The PIN that a user has set. -/
def pin (S : FourState) (userId : String) : Option String :=
  (S.row userId).bind (·.transactionPin)

/-- The row of a user, written. -/
def write (S : FourState) (userId : String) (f : Account → Account) : FourState :=
  { S with users := S.users.map fun u => if u.userId = userId then f u else u }

/-- A session that can be used. -/
def live (S : FourState) (tokenHash : String) (s : Session) : Bool :=
  s.tokenHash = tokenHash && !s.revoked && S.intents.time < s.expiresAt

/-- The sessions of a token are marked as used. -/
def useSession (S : FourState) (tokenHash : String) : FourState :=
  { S with sessions := S.sessions.map fun s =>
      if S.live tokenHash s then { s with lastUsedAt := S.intents.time } else s }

/-- Some time passes. -/
def tick (S : FourState) (elapsed : ℕ) : FourState :=
  { S with intents := S.intents.tick elapsed }

end FourState

/-- The names of a patch, set. -/
def NamePatch.apply (patch : NamePatch) (u : Account) : Account :=
  { u with
    firstName := patch.firstName <|> u.firstName
    lastName := patch.lastName <|> u.lastName }

/-- One statement on the accounts. -/
def AccountSql.act {β : Type} (st : AccountSql β) (o : Outside) (S : FourState) : β × FourState :=
  match st with
  | .useSession tokenHash =>
      (.ok ((S.sessions.find? (S.live tokenHash)).map (·.userId)), S.useSession tokenHash)
  | .linkByTelegramUserId telegramUserId =>
      (.ok ((S.telegramLinks.find? (·.telegramUserId = telegramUserId)).map (·.userId)), S)
  | .touchLastSeen userId =>
      (.ok (), S.write userId fun u => { u with lastSeenAt := some S.intents.time })
  | .getUserById userId => (.ok ((S.row userId).filter fun u => !u.isDeleted), S)
  | .setTransactionPin userId pin =>
      (.ok (), S.write userId fun u => { u with transactionPin := some pin })
  | .tellPinSecured userId => (.ok (), { S with told := userId :: S.told })
  | .updateProfile userId patch =>
      match (S.write userId patch.apply).row userId with
      | some u => (.ok u, S.write userId patch.apply)
      | none => (.error (.database "No data returned from the query."), S)
  | .initiateBvnLookup .. => (o.bvn.mapError .kyc, S)
  | .saveUserBvn userId bvn => (.ok (), S.write userId fun u => { u with bvn := some bvn })
  | .updateUserLevel userId level => (.ok (), S.write userId fun u => { u with level := level })
  | .profile userId => (.ok (S.row userId), S)
  | .ensureNgnVirtualAccount userId .. =>
      match o.ngn with
      | .error e => (.error (.kyc e), S)
      | .ok account => (.ok account, { S with ngnAccounts := (userId, account) :: S.ngnAccounts })

/-- The answer of a statement on the accounts that fails. -/
def AccountSql.fail {β : Type} (st : AccountSql β) (e : String) : β :=
  match st with
  | .useSession _ | .linkByTelegramUserId _ | .touchLastSeen _ => .error (.database e)
  | .getUserById _ | .setTransactionPin .. | .tellPinSecured _ => .error (.database e)
  | .updateProfile .. | .initiateBvnLookup .. | .saveUserBvn .. => .error (.database e)
  | .updateUserLevel .. | .profile _ | .ensureNgnVirtualAccount .. => .error (.database e)

/-- The user whose PIN a statement on the intents reads. -/
def pinOwner {β : Type} : IntentSql β → Option String
  | .transactionPin userId | .verifyPin userId _ => some userId
  | _ => none

/-- The statements of the routes. -/
inductive RouteSql (β : Type) : Type
  | account (st : AccountSql β)
  | intent (st : IntentSql β)

/-- One statement. The PIN of a user is the one of the account. -/
def RouteSql.run {β : Type} (st : RouteSql β) (o : Outside) (S : FourState) : β × FourState :=
  match st with
  | .account st => st.act o (S.tick o.intents.elapsed)
  | .intent st =>
      let r := st.run { o.intents with pin := (pinOwner st).bind S.pin } S.intents
      (r.1, { S with intents := r.2 })

/-- The answer of a statement that fails. -/
def RouteSql.fail {β : Type} (st : RouteSql β) (e : String) : β :=
  match st with
  | .account st => st.fail e
  | .intent st => st.fail (.database e)

/-- The statements over the tables of the app. -/
def routes : Backend RouteSql Outside String FourState where
  run _ st o S := st.run o S
  fail st e := st.fail e

/-- A call of the routes. -/
abbrev RouteCall := ExceptT RouteError (Prog RouteSql)

/-- One statement on the accounts; its failure is thrown. -/
def sql {β : Type} (st : AccountSql (Ans β)) : RouteCall β := Backend.call (.account st)

/-- A body that was checked; what a schema refuses is thrown. -/
def checked {β : Type} (body : Ans β) : RouteCall β := ExceptT.mk (pure body)

/-- A call of the intents. -/
def intentCall {β : Type} (p : Intents.IntentCall β) : RouteCall β := embedCall .intent .intent p

/-! ### Requests -/

/-- A value of a body. -/
inductive BodyValue where
  | text (s : String)
  | other
  deriving DecidableEq, Repr

/-- The routes behind `requireFourSession`. Source: `routes.ts`. -/
inductive SessionRoute where
  | getSession
  | logout
  | listSessions
  | updateProfile
  | listConversations
  | createConversation
  | getLatestConversation
  | getConversation (id : String)
  | listMessages (id : String)
  | archiveConversation (id : String)
  | postMessage
  | linkTelegram
  deriving DecidableEq, Repr

/-- The authenticated routes. Source: `routes.ts`. -/
inductive Route where
  | session (route : SessionRoute)
  | getIntent (id : String)
  | authorizeIntent (id : String)
  | setupPin
  | getKycStatus
  | verifyKycBvn
  deriving DecidableEq, Repr

/-- A request: its route, its headers as far as they are read, its body, and the time when its token
is checked, in milliseconds. -/
structure Request where
  route : Route
  authorization : Option String := none
  telegramInitData : Option String := none
  telegramStubUserId : Option String := none
  body : List (String × BodyValue) := []
  now : ℕ
  deriving DecidableEq, Repr

/-- How a request was authenticated. Source: `middleware.ts` `FourAuthContext`. -/
inductive AuthMethod where
  | session
  | telegramWebapp
  | whatsappSecure
  deriving DecidableEq, Repr

/-- Source: `middleware.ts` `FourAuthContext`. -/
structure FourAuthContext where
  userId : String
  authMethod : AuthMethod
  token : Option String := none
  telegramUserId : Option String := none
  deriving DecidableEq, Repr

/-- Source: `smileService.ts` `KycProfileSnapshot`. -/
structure KycProfileSnapshot where
  level : String
  tierLevel : ℕ
  bvn : Option String
  idType : Option String
  idNumber : Option String
  bvnVerified : Bool
  ninVerified : Bool
  canSendMoney : Bool
  nextVerificationStep : String
  ngnAccount : Option NgnAccount
  deriving DecidableEq, Repr

/-- What a request is answered. -/
inductive Response where
  | intent (row : Intent)
  | authorized (row : Intent) (execution : Execution)
  | pinSecured
  | kycStatus (snapshot : KycProfileSnapshot) (nameNeeded : Bool)
  | bvnVerified (snapshot : KycProfileSnapshot)
  | session (text : String)
  deriving DecidableEq, Repr

/-- What the routes use of the platform: the cast of a text to the identifier of an intent, the hash
of session tokens, what Telegram has signed, and the handlers behind `requireFourSession`. -/
structure Platform extends TokenPlatform where
  uuid : String → Option ℕ
  hashSessionToken : String → String
  webAppStubMode : Bool
  validateTelegramWebAppInitData : String → Option String
  handler : SessionRoute → FourAuthContext → Request → RouteCall Response

/-! ### The guards -/

/-- Source: `middleware.ts` `bearerToken`. -/
def Request.bearerToken (r : Request) : Option String :=
  let header := trim (r.authorization.getD "")
  if (header.toList.take 7).map Char.toLower = "bearer ".toList then
    orNull (some (trim (String.ofList (header.toList.drop 7))))
  else none

/-- `touchLastSeen(userId).catch(() => undefined)`. -/
def touchLastSeen (userId : String) : RouteCall Unit :=
  tryCatch (sql (.touchLastSeen userId)) fun _ => pure ()

/-- Source: `sessionService.ts` `validateSessionToken`. -/
def validateSessionToken (pf : Platform) (token : String) : RouteCall (Option String) :=
  if startsWith (trim token) "fs_" then sql (.useSession (pf.hashSessionToken (trim token)))
  else pure none

/-- Source: `middleware.ts` `requireFourSession`. -/
def requireFourSession (pf : Platform) (r : Request) : RouteCall FourAuthContext :=
  match r.bearerToken with
  | none => throw .unauthorized
  | some token => do
      match ← tryCatch (validateSessionToken pf token) fun _ => throw .unauthorized with
      | none => throw .unauthorized
      | some userId => do
          touchLastSeen userId
          pure ⟨userId, .session, some token, none⟩

/-- The user of a Telegram account. Source: `middleware.ts`
`requireFourSessionOrTelegramWebApp`. -/
def linkedTelegramUser (telegramUserId : String) : RouteCall FourAuthContext := do
  match ← sql (.linkByTelegramUserId telegramUserId) with
  | none => throw .telegramNotLinked
  | some userId => pure ⟨userId, .telegramWebapp, none, some telegramUserId⟩

/-- What Telegram has signed, or the account of a stub.
Source: `middleware.ts` `readInitData` and `requireFourSessionOrTelegramWebApp`. -/
def telegramUser (pf : Platform) (r : Request) : RouteCall FourAuthContext :=
  let fromBody := match r.body.lookup "initData" with
    | some (.text s) => trim s
    | _ => ""
  let initData := orDefault (some (trim (r.telegramInitData.getD ""))) fromBody
  let stubUserId := trim (r.telegramStubUserId.getD "")
  if initData = "" ∧ pf.webAppStubMode = true ∧ stubUserId ≠ "" then linkedTelegramUser stubUserId
  else
    match pf.validateTelegramWebAppInitData initData with
    | none => throw .telegramAuthInvalid
    | some telegramUserId => do
        let auth ← linkedTelegramUser telegramUserId
        touchLastSeen auth.userId
        pure auth

/-- A request without a token. Source: `middleware.ts` `requireFourSessionOrTelegramWebApp`. -/
def requireTelegramWebApp (pf : Platform) (r : Request) : RouteCall FourAuthContext :=
  tryCatch (telegramUser pf r) fun e =>
    throw (match e with
      | .database _ => .telegramAuthInvalid
      | e => e)

/-- Source: `middleware.ts` `requireFourSessionOrTelegramWebApp`. -/
def requireFourSessionOrTelegramWebApp (pf : Platform) (r : Request) :
    RouteCall FourAuthContext :=
  match r.bearerToken with
  | none => requireTelegramWebApp pf r
  | some token =>
      match verifyWhatsappSecureToken pf.toTokenPlatform r.now token none with
      | .ok secure => do
          touchLastSeen secure.userId
          pure ⟨secure.userId, .whatsappSecure, some token, none⟩
      | .error _ => requireFourSession pf r

/-! ### The schemas -/

/-- A text of a body, trimmed. -/
def trimmedText (body : List (String × BodyValue)) (key : String) : Option String :=
  match body.lookup key with
  | some (.text s) => some (trim s)
  | _ => none

/-- `/^\d{low,high}$/`. -/
def isDigits (low high : ℕ) (s : String) : Bool :=
  s.toList.all Char.isDigit && low ≤ s.toList.length && s.toList.length ≤ high

/-- A required text of digits. -/
def digitsField (body : List (String × BodyValue)) (key : String) (low high : ℕ) : Ans String :=
  match (trimmedText body key).filter (isDigits low high) with
  | some s => .ok s
  | none => .error .badRequest

/-- An optional name. -/
def nameField (body : List (String × BodyValue)) (key : String) : Ans (Option String) :=
  match body.lookup key with
  | none => .ok none
  | some (.text s) =>
      if 1 ≤ codeUnits (trim s) ∧ codeUnits (trim s) ≤ 100 then .ok (some (trim s))
      else .error .badRequest
  | some .other => .error .badRequest

/-- Source: `validator.ts` `authorizeIntent`. -/
def authorizeIntentBody (body : List (String × BodyValue)) : Ans String :=
  digitsField body "pin" 4 6

/-- Source: `validator.ts` `setupPin`. -/
def setupPinBody (body : List (String × BodyValue)) : Ans (String × String) := do
  let pin ← digitsField body "pin" 4 4
  let confirmPin ← digitsField body "confirmPin" 4 4
  pure (pin, confirmPin)

/-- What a user sends to verify a BVN. -/
structure BvnForm where
  bvn : String
  firstName : Option String
  lastName : Option String
  deriving DecidableEq, Repr

/-- Source: `validator.ts` `verifyKycBvn`. -/
def verifyKycBvnBody (body : List (String × BodyValue)) : Ans BvnForm := do
  let bvn ← digitsField body "bvn" 11 11
  let firstName ← nameField body "firstName"
  let lastName ← nameField body "lastName"
  pure ⟨bvn, firstName, lastName⟩

/-! ### The services -/

/-- Source: `pinSetupService.ts` `setupTransactionPin`. -/
def setupTransactionPin (userId pin confirmPin : String) : RouteCall Unit :=
  if pin ≠ confirmPin then throw .pinMismatch
  else if isDigits 4 4 pin = false then throw .pinInvalid
  else do
    match ← sql (.getUserById userId) with
    | none => throw .sessionInvalid
    | some user =>
        if (orNull user.transactionPin).isSome then throw .pinAlreadySet
        else do
          sql (.setTransactionPin userId pin)
          sql (.tellPinSecured userId)

/-- `Number.parseInt(s, 10)`, capped; what is no number, or less than one, counts as one. -/
def tierOf (s : List Char) : ℕ :=
  let unsigned := match s.dropWhile isSpace with
    | '+' :: rest => rest
    | rest => rest
  min (max (Nat.ofDigitChars 10 (unsigned.takeWhile Char.isDigit) 0) 1) 3

/-- Source: `smileService.ts` `parseTierLevel`. -/
def parseTierLevel (level : String) : ℕ :=
  let raw := level.toLower
  if startsWith raw "level-" then tierOf (raw.toList.drop 6) else tierOf raw.toList

/-- Source: `smileService.ts` `resolveNextVerificationStep`. -/
def resolveNextVerificationStep (tierLevel : ℕ) (bvnVerified ninVerified : Bool) : String :=
  if tierLevel < 2 || !bvnVerified then "tier2"
  else if tierLevel < 3 || !ninVerified then "tier3"
  else "none"

/-- A profile as its snapshot. Source: `smileService.ts` `buildKycProfileSnapshot`. -/
def snapshotOf (pf : Platform) (profile : Option Account) (ngnAccount : Option NgnAccount) :
    KycProfileSnapshot :=
  let level := (profile.map (·.level)).getD "level-1"
  let bvn := trim ((profile.bind (·.bvn)).getD "")
  let idType := trim ((profile.bind (·.idType)).getD "")
  let idNumber := trim ((profile.bind (·.idNumber)).getD "")
  let bvnVerified := isDigits 11 11 bvn
  let ninVerified := includes (pf.toUpperCase idType) "NIN" && isDigits 11 11 idNumber
  { level := level
    tierLevel := parseTierLevel level
    bvn := if bvnVerified then some bvn else none
    idType := orNull (some idType)
    idNumber := orNull (some idNumber)
    bvnVerified := bvnVerified
    ninVerified := ninVerified
    canSendMoney := 2 ≤ parseTierLevel level && bvnVerified
    nextVerificationStep :=
      resolveNextVerificationStep (parseTierLevel level) bvnVerified ninVerified
    ngnAccount := ngnAccount }

/-- Source: `smileService.ts` `buildKycProfileSnapshot`. -/
def buildKycProfileSnapshot (pf : Platform) (userId : String)
    (ngnAccount : Option NgnAccount := none) : RouteCall KycProfileSnapshot := do
  let profile ← sql (.profile userId)
  pure (snapshotOf pf profile ngnAccount)

/-- Source: `identityService.ts` `formatApiError`. -/
def formatApiError (e : RouteError) (fallback : String) : String :=
  orDefault (some (trim e.message)) fallback

/-- The lookup of a BVN. Source: `identityService.ts` `verifyUserIdentity`. -/
def lookUpBvn (bvn firstName lastName : String) : RouteCall Unit := do
  let lookup ← sql (.initiateBvnLookup bvn firstName lastName)
  if !lookup.verified && !lookup.verificationSkipped then
    throw (.kyc ("BVN could not be verified. Check the number matches your bank records and " ++
      "that your Dayfi name matches your BVN name."))
  else pure ()

/-- What a failed lookup throws. Source: `identityService.ts` `verifyUserIdentity`. -/
def bvnFailed (firstName lastName : String) (e : RouteError) : RouteError :=
  let message := formatApiError e "BVN verification failed."
  if includes message.toLower "bvn" then .kyc message
  else .kyc ("BVN verification failed: " ++ message ++ ". Make sure your BVN is correct and " ++
    "matches the name on your Dayfi account (" ++ firstName ++ " " ++ lastName ++ ").")

/-- What a failure of the NGN account throws. Source: `identityService.ts` `verifyUserIdentity`. -/
def ngnFailed (e : RouteError) : RouteError :=
  .kyc ("Your BVN was verified, but we could not create your NGN bank account: " ++
    formatApiError e "Could not create NGN bank account.")

/-- A BVN that was verified is saved. Source: `identityService.ts` `verifyUserIdentity`. -/
def saveIdentity (pf : Platform) (userId bvn : String) : RouteCall KycProfileSnapshot := do
  sql (.saveUserBvn userId bvn)
  sql (.updateUserLevel userId "level-2")
  let profile ← sql (.profile userId)
  let email := trim ((profile.bind (·.email)).getD "")
  if email = "" then
    throw (.kyc "Add an email to your profile before creating an NGN bank account.")
  else do
    let account ← tryCatch (sql (.ensureNgnVirtualAccount userId email bvn)) fun e =>
      throw (ngnFailed e)
    buildKycProfileSnapshot pf userId (some account)

/-- Source: `identityService.ts` `verifyUserIdentity`, without an NIN. -/
def verifyUserIdentity (pf : Platform) (userId bvn firstName lastName : String) :
    RouteCall KycProfileSnapshot :=
  let bvn := trim bvn
  let firstName := trim firstName
  let lastName := trim lastName
  if isDigits 11 11 bvn = false then throw (.kyc "BVN must be exactly 11 digits.")
  else if firstName = "" ∨ lastName = "" then
    throw (.kyc ("Your profile is missing first or last name. Update your profile, then try " ++
      "again."))
  else do
    tryCatch (lookUpBvn bvn firstName lastName) fun e => throw (bvnFailed firstName lastName e)
    saveIdentity pf userId bvn

/-- The names that a form brings are saved. Source: `kycVerifyService.ts` `verifyBvnFromFour`. -/
def saveNames (user : Account) (incomingFirst incomingLast : String) : RouteCall Account :=
  if incomingFirst ≠ "" ∨ incomingLast ≠ "" then
    sql (.updateProfile user.userId ⟨orNull (some incomingFirst), orNull (some incomingLast)⟩)
  else pure user

/-- Source: `kycVerifyService.ts` `verifyBvnFromFour`. -/
def verifyBvnFromFour (pf : Platform) (userId : String) (form : BvnForm) :
    RouteCall KycProfileSnapshot :=
  let bvn := String.ofList (form.bvn.toList.filter Char.isDigit)
  if isDigits 11 11 bvn = false then throw (.kyc "BVN must be exactly 11 digits.")
  else do
    match ← sql (.getUserById userId) with
    | none => throw (.kyc "Please sign in again.")
    | some user => do
        let incomingFirst := trim ((orNull form.firstName).getD "")
        let incomingLast := trim ((orNull form.lastName).getD "")
        let updated ← saveNames user incomingFirst incomingLast
        let firstName := orDefault (some incomingFirst) (trim (updated.firstName.getD ""))
        let lastName := orDefault (some incomingLast) (trim (updated.lastName.getD ""))
        if firstName = "" ∨ lastName = "" then
          throw (.kyc "Please provide your first and last name to verify your BVN.")
        else verifyUserIdentity pf userId bvn firstName lastName

/-- Source: `controller.ts` `getKycStatus`. -/
def getKycStatus (pf : Platform) (userId : String) : RouteCall Response := do
  let snapshot ← buildKycProfileSnapshot pf userId
  let user ← sql (.getUserById userId)
  let firstName := trim ((user.bind (·.firstName)).getD "")
  let lastName := trim ((user.bind (·.lastName)).getD "")
  pure (.kycStatus snapshot (firstName = "" || lastName = ""))

/-- The identifier of an intent, as the first statement casts it. -/
def intentId (pf : Platform) (id : String) : RouteCall ℕ :=
  match pf.uuid id with
  | some n => pure n
  | none => throw (.database "invalid input syntax for type uuid")

/-! ### The routes -/

/-- What runs behind the guard of a route. Source: `routes.ts`, `controller.ts`. -/
def Request.handle (pf : Platform) (r : Request) (auth : FourAuthContext) : RouteCall Response :=
  match r.route with
  | .session route => pf.handler route auth r
  | .getIntent id => do
      let id ← intentId pf id
      let row ← intentCall (Intents.getIntentForMiniApp auth.userId id)
      pure (.intent row)
  | .authorizeIntent id => do
      let pin ← checked (authorizeIntentBody r.body)
      let id ← intentId pf id
      let (row, execution) ← intentCall (Intents.authorizeIntentWithPin auth.userId id pin)
      pure (.authorized row execution)
  | .setupPin => do
      let (pin, confirmPin) ← checked (setupPinBody r.body)
      setupTransactionPin auth.userId pin confirmPin
      pure .pinSecured
  | .getKycStatus => getKycStatus pf auth.userId
  | .verifyKycBvn => do
      let form ← checked (verifyKycBvnBody r.body)
      let snapshot ← verifyBvnFromFour pf auth.userId form
      pure (.bvnVerified snapshot)

/-- The guard of a route. Source: `routes.ts`. -/
def Request.guarded (pf : Platform) (r : Request) : RouteCall FourAuthContext :=
  match r.route with
  | .session _ => requireFourSession pf r
  | _ => requireFourSessionOrTelegramWebApp pf r

/-- A request to an authenticated route. -/
def Request.call (pf : Platform) (r : Request) : RouteCall Response := do
  let auth ← r.guarded pf
  r.handle pf auth

end DayfiBackend.Four.SecureRoutes
