import DayfiBackend.Found.Backend
import DayfiBackend.Found.Keys
import DayfiBackend.Found.Rows

/-!
# One phone number, one user

A sign-in by phone resolves its number to a user: `findUserByPhone` looks in two columns, the
number as it was verified and a number of any spelling, and the user found is then updated, in a
statement of its own; if there is none, one is inserted.

The table of users is a structure that carries its unique columns, so that a statement either
keeps them or fails. Time is a number of microseconds.
-/

namespace DayfiBackend.Four

open DayfiBackend.Found DayfiBackend.Found.Keys DayfiBackend.Found.Rows

/-! ### Tables -/

/-- Source: type `account_status`. -/
inductive AccountStatus where
  | inactive
  | active
  | deactivated
  | blacklisted
  | flagged
  deriving DecidableEq, Repr

/-- Source: `identityService.ts` `FourUser`, and the column `is_deleted`. -/
structure User where
  userId : String
  email : Option String := none
  firstName : Option String := none
  lastName : Option String := none
  phoneNumber : Option String := none
  phoneE164 : Option String := none
  phoneVerified : Bool := false
  phoneVerifiedAt : Option ℕ := none
  level : String := "level-0"
  status : AccountStatus := .inactive
  transactionPin : Option String := none
  isDeleted : Bool := false
  createdAt : ℕ := 0
  lastSeenAt : Option ℕ := none
  deriving DecidableEq, Repr

/-- The unique columns of the users. -/
def Unique (rows : List User) : Prop :=
  (rows.map (·.userId)).Nodup ∧ (rows.filterMap (·.email)).Nodup ∧
    (rows.filterMap (·.phoneNumber)).Nodup ∧ (rows.filterMap (·.phoneE164)).Nodup

instance (rows : List User) : Decidable (Unique rows) := inferInstanceAs (Decidable (_ ∧ _))

/-- Source: table `users`. -/
structure Users where
  rows : List User
  unique : Unique rows

/-- The users, and the time. -/
structure Directory where
  users : Users
  time : ℕ := 0

/-- What the services of the app throw: the errors it shows, and those of the database. -/
inductive FourError where
  | invalidPhone
  | otpRateLimited (retryAfterSeconds : ℕ)
  | otpInvalid
  | otpAttemptsExceeded
  | otpSendFailed
  | accountAmbiguous
  | accountInactive
  | database
  | uniqueViolation
  | noRow
  | outOfRange
  deriving DecidableEq, Repr

abbrev Ans (α : Type) := Except FourError α

/-- The outside at a step: the identifier the database makes up, and the time that has passed. -/
structure Outside where
  newUserId : String := ""
  elapsed : ℕ := 0
  deriving DecidableEq, Repr

/-- `value.replace(/\D/g, '')`. -/
def digits (value : String) : List Char := value.toList.filter Char.isDigit

/-- Source: `identityService.ts` `legacyPhoneCandidates`. -/
def legacyPhoneCandidates (phoneE164 : String) : List (List Char) :=
  let ds := digits phoneE164
  if ['2', '3', '4'].isPrefixOf ds && ds.length = 13 then [ds, ds.drop 3, '0' :: ds.drop 3]
  else [ds]

/-- A user's number is one of the spellings of a number. -/
def User.spells (u : User) (phoneE164 : String) : Bool :=
  u.phoneNumber.any fun number => digits number ∈ legacyPhoneCandidates phoneE164

/-- The condition of the search of `findUserByPhone`. -/
def User.matches (u : User) (phoneE164 : String) : Bool :=
  !u.isDeleted && (u.phoneE164 = some phoneE164 || u.spells phoneE164)

/-- What the update of `markPhoneVerified` sets. -/
def User.verified (u : User) (phoneE164 : String) (now : ℕ) : User :=
  { u with
    phoneE164 := some phoneE164
    phoneNumber := some (u.phoneNumber.getD phoneE164)
    phoneVerified := true
    phoneVerifiedAt := some (u.phoneVerifiedAt.getD now)
    lastSeenAt := some now
    status := if u.status = .inactive then .active else u.status
    level := if u.level = "level-0" then "level-1" else u.level }

/-- The user that a first sign-in inserts. -/
def newUser (userId phoneE164 : String) (now : ℕ) : User where
  userId := userId
  phoneNumber := some phoneE164
  phoneE164 := some phoneE164
  phoneVerified := true
  phoneVerifiedAt := some now
  level := "level-1"
  status := .active
  createdAt := now
  lastSeenAt := some now

namespace Users

/-- The users a search finds. -/
def found (U : Users) (phoneE164 : String) : List User := U.rows.filter (·.matches phoneE164)

/-- The users with other rows, if their columns are unique. -/
def write (U : Users) (rows : List User) : Ans Unit × Users :=
  if h : Unique rows then (.ok (), ⟨rows, h⟩) else (.error .uniqueViolation, U)

/-- The rows with a user's phone marked. -/
def marked (U : Users) (userId phoneE164 : String) (now : ℕ) : List User :=
  U.rows.map fun u => if u.userId = userId then u.verified phoneE164 now else u

/-- The update of `markPhoneVerified`. -/
def mark (U : Users) (userId phoneE164 : String) (now : ℕ) : Ans User × Users :=
  match U.rows.find? (·.userId = userId) with
  | none => (.error .noRow, U)
  | some u =>
      if !fitsVarchar 20 phoneE164 then (.error .outOfRange, U)
      else
        match U.write (U.marked userId phoneE164 now) with
        | (.error e, U') => (.error e, U')
        | (.ok _, U') => (.ok (u.verified phoneE164 now), U')

/-- The insert of a first sign-in. -/
def insert (U : Users) (userId phoneE164 : String) (now : ℕ) : Ans User × Users :=
  if !fitsVarchar 20 phoneE164 then (.error .outOfRange, U)
  else
    match U.write (newUser userId phoneE164 now :: U.rows) with
    | (.error e, U') => (.error e, U')
    | (.ok _, U') => (.ok (newUser userId phoneE164 now), U')

end Users

/-- The statements on the users. -/
inductive IdentitySql : Type → Type
  | usersByPhone (phoneE164 : String) : IdentitySql (Ans (List User))
  | markPhoneVerified (userId phoneE164 : String) : IdentitySql (Ans User)
  | insertUser (phoneE164 : String) : IdentitySql (Ans User)

/-- Some time passes. -/
def Directory.tick (D : Directory) (elapsed : ℕ) : Directory :=
  { D with time := D.time + elapsed }

/-- One statement, once the time has passed. -/
def IdentitySql.act {β : Type} (st : IdentitySql β) (o : Outside) (D : Directory) :
    β × Directory :=
  match st with
  | .usersByPhone phoneE164 => (.ok (D.users.found phoneE164), D)
  | .markPhoneVerified userId phoneE164 =>
      ((D.users.mark userId phoneE164 D.time).1,
        { D with users := (D.users.mark userId phoneE164 D.time).2 })
  | .insertUser phoneE164 =>
      ((D.users.insert o.newUserId phoneE164 D.time).1,
        { D with users := (D.users.insert o.newUserId phoneE164 D.time).2 })

/-- One statement, when it gets there. -/
def IdentitySql.run {β : Type} (st : IdentitySql β) (o : Outside) (D : Directory) :
    β × Directory :=
  st.act o (D.tick o.elapsed)

/-- The answer of a statement that fails. -/
def IdentitySql.fail {β : Type} (st : IdentitySql β) (e : FourError) : β :=
  match st with
  | .usersByPhone _ | .markPhoneVerified .. | .insertUser _ => .error e

/-- The statements over the users. -/
def identities : Backend IdentitySql Outside FourError Directory where
  run _ st o D := st.run o D
  fail st e := st.fail e

/-- A call of the service. -/
abbrev IdentityCall := ExceptT FourError (Prog IdentitySql)

/-- One statement; its failure is thrown. -/
def sql {β : Type} (st : IdentitySql (Ans β)) : IdentityCall β := Backend.call st

/-! ### Operations -/

/-- Source: `identityService.ts` `findUserByPhone`. -/
def findUserByPhone (phoneE164 : String) : IdentityCall (Option User) := do
  match ← sql (.usersByPhone phoneE164) with
  | [] => pure none
  | [user] => pure (some user)
  | _ => throw .accountAmbiguous

/-- Source: `identityService.ts` `assertUsable`. -/
def assertUsable (user : User) : IdentityCall Unit :=
  if user.status = .deactivated ∨ user.status = .blacklisted then throw .accountInactive
  else pure ()

/-- Source: `identityService.ts` `markPhoneVerified`. -/
def markPhoneVerified (userId phoneE164 : String) : IdentityCall User :=
  tryCatch (sql (.markPhoneVerified userId phoneE164)) fun e =>
    throw (if e = .uniqueViolation then .accountAmbiguous else e)

/-- A first sign-in whose insert failed. Source: `identityService.ts`
`resolveOrCreateUserByPhone`. -/
def raced (phoneE164 : String) (e : FourError) : IdentityCall (User × Bool) :=
  if e = .uniqueViolation then do
    match ← findUserByPhone phoneE164 with
    | some user => do
        assertUsable user
        pure (user, false)
    | none => throw e
  else throw e

/-- The insert of a first sign-in. Source: `identityService.ts` `resolveOrCreateUserByPhone`. -/
def createUser (phoneE164 : String) : IdentityCall (User × Bool) := do
  let created ← sql (.insertUser phoneE164)
  pure (created, true)

/-- Source: `identityService.ts` `resolveOrCreateUserByPhone`. -/
def resolveOrCreateUserByPhone (phoneE164 : String) : IdentityCall (User × Bool) := do
  match ← findUserByPhone phoneE164 with
  | some existing => do
      assertUsable existing
      let updated ← markPhoneVerified existing.userId phoneE164
      pure (updated, false)
  | none => tryCatch (createUser phoneE164) (raced phoneE164)

/-- What a sign-in comes to. -/
abbrev SignedIn := Except FourError (User × Bool)

/-- The sign-ins, before any has begun. -/
def signIns (U : Users) (phones : List String) : Pool IdentitySql SignedIn Directory :=
  ⟨{ users := U }, phones.map fun phone => (resolveOrCreateUserByPhone phone).run⟩

end DayfiBackend.Four
