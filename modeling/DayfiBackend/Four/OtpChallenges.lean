import DayfiBackend.Four.Identity
import DayfiBackend.Found.Beside

/-!
# One-time codes

`requestOtp` has a provider send a code to a number and records a challenge; `verifyOtp` finds the
live challenge of the number, has the provider check a code, and then either records a failed
attempt or consumes the challenge and signs its user in. The provider holds the code; the table of
challenges holds the limits.

What was sent and what was checked is logged beside the tables; a check and a session are logged
with the challenge they are about. The transaction of `createChallenge` is two statements: it
retires the challenges it sees when it begins, and what it does shows when it commits. The locks
it holds in between are left out: what would wait for them runs before it commits.
-/

namespace DayfiBackend.Four

open DayfiBackend.Found DayfiBackend.Found.Keys

/-! ### Phone numbers -/

/-- Source: `phoneE164.ts` `E164FailureReason`. -/
inductive E164FailureReason where
  | empty
  | containsLetters
  | tooShort
  | tooLong
  | invalidNationalNumber
  deriving DecidableEq, Repr

/-- Source: `phoneE164.ts` `stripFormatting`. -/
def stripFormatting (raw : List Char) : List Char :=
  raw.filter fun c => !(isSpace c || c = '\u00a0' || (0x2000 ≤ c.toNat && c.toNat ≤ 0x200b) ||
    c ∈ ['(', ')', '.', '-', '_'] || (0x2010 ≤ c.toNat && c.toNat ≤ 0x2015))

/-- `/^\d+$/`. -/
def allDigits (value : List Char) : Bool := !value.isEmpty && value.all Char.isDigit

/-- Source: `phoneE164.ts` `normalizeNigerianNational`. -/
def normalizeNigerianNational (ds : List Char) : Except E164FailureReason String :=
  let nsn :=
    if ['2', '3', '4'].isPrefixOf ds then ds.drop 3
    else if ['0'].isPrefixOf ds then ds.drop 1
    else ds
  if nsn.length < 10 then .error .tooShort
  else if 10 < nsn.length then .error .tooLong
  else if !(nsn.head?.any (· ∈ ['7', '8', '9'])) then .error .invalidNationalNumber
  else .ok (String.ofList ('+' :: '2' :: '3' :: '4' :: nsn))

/-- A number with its country code. Source: `phoneE164.ts` `normalizePhoneE164`. -/
def normalizeInternational (ds : List Char) : Except E164FailureReason String :=
  if !allDigits ds then .error .containsLetters
  else if ds.length < 8 then .error .tooShort
  else if 15 < ds.length then .error .tooLong
  else if ds.head? = some '0' then .error .invalidNationalNumber
  else .ok (String.ofList ('+' :: ds))

/-- Source: `phoneE164.ts` `normalizePhoneE164`. -/
def normalizePhoneE164 (input : String) : Except E164FailureReason String :=
  let value := stripFormatting input.toList
  if value.isEmpty then .error .empty
  else if value.any Char.isAlpha then .error .containsLetters
  else
    match (if ['0', '0'].isPrefixOf value then '+' :: value.drop 2 else value) with
    | '+' :: ds => normalizeInternational ds
    | ds => if !allDigits ds then .error .containsLetters else normalizeNigerianNational ds

/-! ### Limits -/

/-- A second, in microseconds. -/
def second : ℕ := 10 ^ 6

/-- Source: `otpChallengeStore.ts` `OTP_TTL_SECONDS`. -/
def otpTtlSeconds : ℕ := 10 * 60

/-- Source: `otpChallengeStore.ts` `OTP_MAX_ATTEMPTS`. -/
def otpMaxAttempts : ℕ := 5

/-- Source: `otpChallengeStore.ts` `OTP_SEND_WINDOW_SECONDS`. -/
def otpSendWindowSeconds : ℕ := 15 * 60

/-- Source: `otpChallengeStore.ts` `OTP_MAX_SENDS_PER_WINDOW`. -/
def otpMaxSendsPerWindow : ℕ := 3

/-- Source: `otpChallengeStore.ts` `OTP_MIN_RESEND_INTERVAL_SECONDS`. -/
def otpMinResendIntervalSeconds : ℕ := 60

/-- How long a session lasts, unless the environment sets it. Source: `sessionService.ts`
`sessionTtlDays`. -/
def sessionTtl : ℕ := 30 * 24 * 60 * 60 * second

/-! ### Tables -/

/-- Source: `otpChallengeStore.ts` `OtpPurpose`. -/
inductive OtpPurpose where
  | login
  | addPhone
  | recover
  deriving DecidableEq, Repr

/-- Source: table `four_otp_challenges`. -/
structure Challenge where
  id : ℕ
  phoneE164 : String
  purpose : OtpPurpose
  attempts : ℕ := 0
  maxAttempts : ℕ := otpMaxAttempts
  expiresAt : ℕ
  consumedAt : Option ℕ := none
  createdAt : ℕ
  deriving DecidableEq, Repr

/-- Source: table `four_sessions`; with the challenge that a session was issued for. -/
structure FourSession where
  userId : String
  expiresAt : ℕ
  createdAt : ℕ
  challengeId : ℕ
  deriving DecidableEq, Repr

/-- A code that was sent. -/
structure SentCode where
  phoneE164 : String
  sentAt : ℕ
  deriving DecidableEq, Repr

/-- The tables beside the users, the newest rows first; and the codes sent, and the challenges
that codes were checked for. -/
structure Otp where
  challenges : List Challenge := []
  sessions : List FourSession := []
  sent : List SentCode := []
  checks : List ℕ := []
  deriving DecidableEq, Repr

/-- All tables. -/
abbrev Store := Directory × Otp

/-- The outside at a step: whether the provider answers, and whether it approves a code. -/
structure OtpOutside where
  identity : Outside := {}
  answered : Bool := true
  approved : Bool := true
  deriving DecidableEq, Repr

/-- What the check of the allowance reads. -/
structure SendCounts where
  recentSends : ℕ
  sinceLast : Option ℕ
  deriving DecidableEq, Repr

namespace Otp

/-- A challenge is one of a number, for a purpose. -/
def isFor (phoneE164 : String) (purpose : OtpPurpose) (c : Challenge) : Bool :=
  c.phoneE164 = phoneE164 && c.purpose = purpose

/-- The query of `checkSendAllowance`. -/
def sendCounts (T : Otp) (phoneE164 : String) (purpose : OtpPurpose) (now : ℕ) : SendCounts :=
  let created := (T.challenges.filter (isFor phoneE164 purpose)).map (·.createdAt)
  { recentSends := (created.filter (now < · + otpSendWindowSeconds * second)).length
    sinceLast := created.max?.map (now - ·) }

/-- The challenges that the transaction of `createChallenge` retires. -/
def unconsumed (T : Otp) (phoneE164 : String) (purpose : OtpPurpose) : List ℕ :=
  (T.challenges.filter fun c => isFor phoneE164 purpose c && c.consumedAt.isNone).map (·.id)

/-- `SET consumed_at = NOW()` of a challenge that is not consumed. -/
def consumeOne (now : ℕ) (c : Challenge) : Challenge :=
  if c.consumedAt.isNone then { c with consumedAt := some now } else c

/-- The challenge that `createChallenge` inserts. -/
def newChallenge (T : Otp) (phoneE164 : String) (purpose : OtpPurpose) (now : ℕ) : Challenge where
  id := T.challenges.length
  phoneE164 := phoneE164
  purpose := purpose
  expiresAt := now + otpTtlSeconds * second
  createdAt := now

/-- The transaction of `createChallenge` commits. -/
def create (T : Otp) (phoneE164 : String) (purpose : OtpPurpose) (now : ℕ) (retired : List ℕ) :
    Otp :=
  { T with challenges := T.newChallenge phoneE164 purpose now ::
      T.challenges.map fun c => if c.id ∈ retired then consumeOne now c else c }

/-- The query of `findActiveChallenge`. -/
def findActive (T : Otp) (phoneE164 : String) (purpose : OtpPurpose) (now : ℕ) :
    Option Challenge :=
  (T.challenges.filter fun c =>
    isFor phoneE164 purpose c && c.consumedAt.isNone && now < c.expiresAt).maxOn? (·.createdAt)

/-- An update of one challenge. -/
def update (T : Otp) (id : ℕ) (f : Challenge → Challenge) : Otp :=
  { T with challenges := T.challenges.map fun c => if c.id = id then f c else c }

/-- `SET attempts = attempts + 1`. -/
def attempt (c : Challenge) : Challenge := { c with attempts := c.attempts + 1 }

end Otp

/-- The statements of the service. -/
inductive OtpSql : Type → Type
  | sendCounts (phoneE164 : String) (purpose : OtpPurpose) : OtpSql (Ans SendCounts)
  | providerSend (phoneE164 : String) : OtpSql (Ans Unit)
  /-- The transaction of `createChallenge` begins, and retires what it sees. -/
  | retire (phoneE164 : String) (purpose : OtpPurpose) : OtpSql (Ans (ℕ × List ℕ))
  /-- It inserts its challenge, and commits. -/
  | create (phoneE164 : String) (purpose : OtpPurpose) (now : ℕ) (retired : List ℕ) :
      OtpSql (Ans Unit)
  | findActive (phoneE164 : String) (purpose : OtpPurpose) : OtpSql (Ans (Option Challenge))
  | providerCheck (challengeId : ℕ) (phoneE164 code : String) : OtpSql (Ans Bool)
  | incrementAttempts (challengeId : ℕ) : OtpSql (Ans Challenge)
  | burn (challengeId : ℕ) : OtpSql (Ans Unit)
  | consume (challengeId : ℕ) : OtpSql (Ans Bool)
  | insertSession (userId : String) (challengeId : ℕ) : OtpSql (Ans FourSession)

/-- One statement, once the time has passed. -/
def OtpSql.act {β : Type} (st : OtpSql β) (o : OtpOutside) (s : Store) : β × Store :=
  let T := s.2
  let now := s.1.time
  match st with
  | .sendCounts phone purpose => (.ok (T.sendCounts phone purpose now), s)
  | .providerSend phone =>
      (if o.answered then .ok () else .error .otpSendFailed,
        s.1, { T with sent := ⟨phone, now⟩ :: T.sent })
  | .retire phone purpose => (.ok (now, T.unconsumed phone purpose), s)
  | .create phone purpose began retired => (.ok (), s.1, T.create phone purpose began retired)
  | .findActive phone purpose => (.ok (T.findActive phone purpose now), s)
  | .providerCheck id _ _ => (.ok o.approved, s.1, { T with checks := id :: T.checks })
  | .incrementAttempts id =>
      match (T.update id Otp.attempt).challenges.find? (·.id = id) with
      | some c => (.ok c, s.1, T.update id Otp.attempt)
      | none => (.error .noRow, s)
  | .burn id => (.ok (), s.1, T.update id (Otp.consumeOne now))
  | .consume id =>
      (.ok (T.challenges.any fun c => c.id = id && c.consumedAt.isNone),
        s.1, T.update id (Otp.consumeOne now))
  | .insertSession userId id =>
      let session : FourSession := ⟨userId, now + sessionTtl, now, id⟩
      (.ok session, s.1, { T with sessions := session :: T.sessions })

/-- One statement, when it gets there. -/
def OtpSql.run {β : Type} (st : OtpSql β) (o : OtpOutside) (s : Store) : β × Store :=
  st.act o (s.1.tick o.identity.elapsed, s.2)

/-- The answer of a statement that fails. -/
def OtpSql.fail {β : Type} (st : OtpSql β) (e : FourError) : β :=
  match st with
  | .sendCounts .. | .providerSend _ | .retire .. | .create .. | .findActive .. => .error e
  | .providerCheck .. | .incrementAttempts _ | .burn _ | .consume _ => .error e
  | .insertSession .. => .error e

/-- The statements of the service over all tables. -/
def codes : Backend OtpSql OtpOutside FourError Store where
  run _ st o s := st.run o s
  fail st e := st.fail e

/-- The service beside that of the identities. -/
def auth : Backend (Beside IdentitySql OtpSql) OtpOutside FourError Store :=
  identities.beside codes OtpOutside.identity .database

/-- A call of the service. -/
abbrev AuthCall := ExceptT FourError (Prog (Beside IdentitySql OtpSql))

/-- A call of the identity service. -/
def identity {β : Type} (p : IdentityCall β) : AuthCall β := inside id p

/-- One statement of the service; its failure is thrown. -/
def otpSql {β : Type} (st : OtpSql (Ans β)) : AuthCall β := ownCall st

/-! ### Operations -/

/-- Source: `phoneAuthService.ts` `requireValidPhone`. -/
def requireValidPhone (input : String) : AuthCall String :=
  match normalizePhoneE164 input with
  | .ok e164 => pure e164
  | .error _ => throw .invalidPhone

/-- Whether a code may be sent, by what was read: if not, when to retry.
Source: `otpChallengeStore.ts` `checkSendAllowance`. -/
def SendCounts.retryAfterSeconds (counts : SendCounts) : Option ℕ :=
  if counts.sinceLast.any (· < otpMinResendIntervalSeconds * second) then
    some (max 1 ((otpMinResendIntervalSeconds * second - counts.sinceLast.getD 0 + (second - 1)) /
      second))
  else if otpMaxSendsPerWindow ≤ counts.recentSends then some otpSendWindowSeconds
  else none

/-- Source: `otpChallengeStore.ts` `checkSendAllowance`. -/
def checkSendAllowance (phoneE164 : String) (purpose : OtpPurpose) : AuthCall (Option ℕ) := do
  let counts ← otpSql (.sendCounts phoneE164 purpose)
  pure counts.retryAfterSeconds

/-- Source: `otpChallengeStore.ts` `createChallenge`. -/
def createChallenge (phoneE164 : String) (purpose : OtpPurpose) : AuthCall Unit := do
  let (now, retired) ← otpSql (.retire phoneE164 purpose)
  otpSql (.create phoneE164 purpose now retired)

/-- Source: `otpChallengeStore.ts` `findActiveChallenge`. -/
def findActiveChallenge (phoneE164 : String) (purpose : OtpPurpose) :
    AuthCall (Option Challenge) :=
  otpSql (.findActive phoneE164 purpose)

/-- Whether the attempts are used up. Source: `otpChallengeStore.ts` `recordFailedAttempt`. -/
def recordFailedAttempt (challengeId : ℕ) : AuthCall Bool := do
  let row ← otpSql (.incrementAttempts challengeId)
  if row.maxAttempts ≤ row.attempts then
    otpSql (.burn challengeId)
    pure true
  else pure false

/-- Source: `otpChallengeStore.ts` `consumeChallenge`. -/
def consumeChallenge (challengeId : ℕ) : AuthCall Bool := otpSql (.consume challengeId)

/-- Source: `phoneAuthService.ts` `RequestOtpResult`. -/
structure RequestOtpResult where
  expiresInSeconds : ℕ
  resendAfterSeconds : ℕ
  deriving DecidableEq, Repr

/-- The code is sent. Source: `phoneAuthService.ts` `requestOtp`. -/
def sendCode (phoneE164 : String) : AuthCall Unit :=
  tryCatch (otpSql (.providerSend phoneE164)) fun _ => throw .otpSendFailed

/-- Source: `phoneAuthService.ts` `requestOtp`. -/
def requestOtp (phone : String) : AuthCall RequestOtpResult := do
  let phoneE164 ← requireValidPhone phone
  match ← checkSendAllowance phoneE164 .login with
  | some retryAfterSeconds => throw (.otpRateLimited retryAfterSeconds)
  | none => do
      sendCode phoneE164
      createChallenge phoneE164 .login
      pure ⟨otpTtlSeconds, 60⟩

/-- `/^\d{4,8}$/` of a code, trimmed. -/
def wellFormedCode (code : String) : Bool :=
  let ds := (trim code).toList
  ds.all Char.isDigit && 4 ≤ ds.length && ds.length ≤ 8

/-- Source: `identityService.ts` `toPublicUser`. -/
structure PublicUser where
  id : String
  phoneNumber : Option String
  phoneVerified : Bool
  firstName : Option String
  lastName : Option String
  email : Option String
  kycLevel : String
  hasTransactionPin : Bool
  createdAt : ℕ
  deriving DecidableEq, Repr

/-- Source: `identityService.ts` `toPublicUser`. -/
def toPublicUser (user : User) : PublicUser where
  id := user.userId
  phoneNumber := user.phoneE164.or user.phoneNumber
  phoneVerified := user.phoneVerified
  firstName := user.firstName
  lastName := user.lastName
  email := user.email
  kycLevel := user.level
  hasTransactionPin := (orNull user.transactionPin).isSome
  createdAt := user.createdAt

/-- Source: `phoneAuthService.ts` `hasName`. -/
def hasName (user : User) : Bool := user.firstName.any (trim · ≠ "")

/-- Source: `phoneAuthService.ts` `VerifyOtpResult`. -/
structure VerifyOtpResult where
  user : PublicUser
  session : FourSession
  isNewUser : Bool
  needsProfile : Bool
  needsPin : Bool
  deriving DecidableEq, Repr

/-- The user of a number is signed in. Source: `phoneAuthService.ts` `verifyOtp`. -/
def signIn (phoneE164 : String) (challengeId : ℕ) : AuthCall VerifyOtpResult := do
  let (user, isNewUser) ← identity (resolveOrCreateUserByPhone phoneE164)
  let session ← otpSql (.insertSession user.userId challengeId)
  pure {
    user := toPublicUser user
    session := session
    isNewUser := isNewUser
    needsProfile := !hasName user
    needsPin := (orNull user.transactionPin).isNone }

/-- A code is checked against a challenge. Source: `phoneAuthService.ts` `verifyOtp`. -/
def checkCode (phoneE164 code : String) (challenge : Challenge) : AuthCall VerifyOtpResult :=
  if challenge.maxAttempts ≤ challenge.attempts then throw .otpAttemptsExceeded
  else do
    let approved ← otpSql (.providerCheck challenge.id phoneE164 code)
    if !approved then do
      let exhausted ← recordFailedAttempt challenge.id
      throw (if exhausted then .otpAttemptsExceeded else .otpInvalid)
    else do
      let consumed ← consumeChallenge challenge.id
      if !consumed then throw .otpInvalid
      else signIn phoneE164 challenge.id

/-- Source: `phoneAuthService.ts` `verifyOtp`. -/
def verifyOtp (phone code : String) : AuthCall VerifyOtpResult := do
  let phoneE164 ← requireValidPhone phone
  if !wellFormedCode code then throw .otpInvalid
  else
    match ← findActiveChallenge phoneE164 .login with
    | none => throw .otpInvalid
    | some challenge => checkCode phoneE164 (trim code) challenge

/-- A request. -/
inductive Request where
  | requestOtp (phone : String)
  | verifyOtp (phone code : String)
  deriving DecidableEq, Repr

/-- What a request runs. -/
def Request.call : Request → AuthCall Unit
  | requestOtp phone => do
      let _ ← Four.requestOtp phone
  | verifyOtp phone code => do
      let _ ← Four.verifyOtp phone code

/-- What a request comes to. -/
abbrev Outcome := Except FourError Unit

/-- The requests, before any has begun: no code was sent. -/
def begun (U : Users) (requests : List Request) : Pool (Beside IdentitySql OtpSql) Outcome Store :=
  ⟨({ users := U }, {}), requests.map fun r => r.call.run⟩

end DayfiBackend.Four
