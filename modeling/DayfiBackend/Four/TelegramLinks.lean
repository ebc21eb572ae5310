import DayfiBackend.Four.Identity

/-!
# Telegram accounts

A message from Telegram is answered as the user that its account is linked to; the first message of
an account creates a user, in one statement, and links it, in another. A signed-in user can also
ask for a link, with the number of a Telegram account in the body of the request.

Beside the tables stands which users were created for which account, and a statement that links
says whether it was Telegram that named the account; the source reads neither.
-/

namespace DayfiBackend.Four.Telegram

open DayfiBackend.Found DayfiBackend.Found.Keys DayfiBackend.Found.Rows

/-! ### Tables -/

/-- Source: table `four_telegram_links`. -/
structure TelegramLink where
  telegramUserId : ℕ
  userId : String
  chatId : Option ℤ
  username : Option String
  linkedAt : ℕ
  deriving DecidableEq, Repr

/-- The unique columns of the links. -/
def UniqueLinks (rows : List TelegramLink) : Prop :=
  (rows.map (·.telegramUserId)).Nodup ∧ (rows.map (·.userId)).Nodup

instance (rows : List TelegramLink) : Decidable (UniqueLinks rows) :=
  inferInstanceAs (Decidable (_ ∧ _))

/-- Source: table `four_telegram_links`. -/
structure Links where
  rows : List TelegramLink
  unique : UniqueLinks rows

/-- The tables, and the users created for Telegram accounts. -/
structure Tables where
  users : Users
  links : Links
  created : List (ℕ × String) := []
  time : ℕ := 0

/-- What the services throw. -/
inductive LinkError where
  | missingUser
  | noRow
  | uniqueViolation
  | foreignKey
  | outOfRange
  | database
  deriving DecidableEq, Repr

abbrev Ans (α : Type) := Except LinkError α

/-- What is linked to what. Source: `telegramLinkService.ts` `linkTelegramUser`. -/
structure LinkInput where
  userId : String
  telegramUserId : ℕ
  chatId : Option ℤ
  username : Option String
  deriving DecidableEq, Repr

/-- The values fit the columns. -/
def LinkInput.fits (l : LinkInput) : Bool :=
  l.telegramUserId < 2 ^ 63 && l.chatId.all (fun n => n.natAbs < 2 ^ 63 || n = -2 ^ 63) &&
    l.username.all (fitsVarchar 64)

namespace Links

/-- The link of an account. -/
def find (L : Links) (telegramUserId : ℕ) : Option TelegramLink :=
  L.rows.find? (·.telegramUserId = telegramUserId)

/-- The user that an account is linked to. -/
def bound (L : Links) (telegramUserId : ℕ) : Option String := (L.find telegramUserId).map (·.userId)

/-- A row that an upsert finds, overwritten. -/
def overwritten (r : TelegramLink) (l : LinkInput) (now : ℕ) : TelegramLink :=
  { r with
    userId := l.userId
    chatId := l.chatId <|> r.chatId
    username := l.username <|> r.username
    linkedAt := now }

/-- The rows after an upsert. -/
def upserted (L : Links) (l : LinkInput) (now : ℕ) : List TelegramLink :=
  if (L.find l.telegramUserId).isSome then
    L.rows.map fun r => if r.telegramUserId = l.telegramUserId then overwritten r l now else r
  else ⟨l.telegramUserId, l.userId, l.chatId, l.username, now⟩ :: L.rows

end Links

/-- The user that a first message inserts. -/
def newTelegramUser (userId firstName : String) (lastName : Option String) (now : ℕ) : User where
  userId := userId
  firstName := some firstName
  lastName := lastName
  status := .active
  level := "level-0"
  createdAt := now
  lastSeenAt := some now

/-- The statements. -/
inductive LinkSql : Type → Type
  | getLinkByTelegramUserId (telegramUserId : ℕ) : LinkSql (Ans (Option TelegramLink))
  | getUserById (userId : String) : LinkSql (Ans (Option User))
  | touchLastSeen (userId : String) : LinkSql (Ans Unit)
  | insertUser (telegramUserId : ℕ) (firstName : String) (lastName : Option String) :
      LinkSql (Ans User)
  | linkTelegramUser (fromTelegram : Bool) (l : LinkInput) : LinkSql (Ans TelegramLink)

namespace Tables

/-- Some time passes. -/
def tick (T : Tables) (elapsed : ℕ) : Tables := { T with time := T.time + elapsed }

/-- Source: `identityService.ts` `touchLastSeen`. -/
def touch (T : Tables) (userId : String) : Ans Unit × Tables :=
  let rows := T.users.rows.map fun u =>
    if u.userId = userId then { u with lastSeenAt := some T.time } else u
  if h : Unique rows then (.ok (), { T with users := ⟨rows, h⟩ }) else (.error .uniqueViolation, T)

/-- The insert of a first message. -/
def insertUser (T : Tables) (telegramUserId : ℕ) (user : User) : Ans User × Tables :=
  if !(user.firstName.all (fitsVarchar 100) && user.lastName.all (fitsVarchar 100)) then
    (.error .outOfRange, T)
  else if h : Unique (user :: T.users.rows) then
    (.ok user, { T with
      users := ⟨user :: T.users.rows, h⟩
      created := (telegramUserId, user.userId) :: T.created })
  else (.error .uniqueViolation, T)

/-- Source: `telegramLinkService.ts` `linkTelegramUser`. -/
def upsert (T : Tables) (l : LinkInput) : Ans TelegramLink × Tables :=
  if !l.fits then (.error .outOfRange, T)
  else if !(T.users.rows.any (·.userId = l.userId)) then (.error .foreignKey, T)
  else if h : UniqueLinks (T.links.upserted l T.time) then
    match (Links.mk (T.links.upserted l T.time) h).find l.telegramUserId with
    | some r => (.ok r, { T with links := ⟨T.links.upserted l T.time, h⟩ })
    | none => (.error .noRow, T)
  else (.error .uniqueViolation, T)

end Tables

/-- The outside at a step: the identifier the database makes up, and the time that has passed. -/
structure Outside where
  newUserId : String := ""
  elapsed : ℕ := 0
  deriving DecidableEq, Repr

/-- One statement, once the time has passed. -/
def LinkSql.act {β : Type} (st : LinkSql β) (o : Outside) (T : Tables) : β × Tables :=
  match st with
  | .getLinkByTelegramUserId telegramUserId => (.ok (T.links.find telegramUserId), T)
  | .getUserById userId =>
      (.ok ((T.users.rows.find? (·.userId = userId)).filter fun u => !u.isDeleted), T)
  | .touchLastSeen userId => T.touch userId
  | .insertUser telegramUserId firstName lastName =>
      T.insertUser telegramUserId (newTelegramUser o.newUserId firstName lastName T.time)
  | .linkTelegramUser _ l => T.upsert l

/-- One statement, when it gets there. -/
def LinkSql.run {β : Type} (st : LinkSql β) (o : Outside) (T : Tables) : β × Tables :=
  st.act o (T.tick o.elapsed)

/-- The answer of a statement that fails. -/
def LinkSql.fail {β : Type} (st : LinkSql β) (e : LinkError) : β :=
  match st with
  | .getLinkByTelegramUserId _ | .getUserById _ | .touchLastSeen _ => .error e
  | .insertUser .. | .linkTelegramUser .. => .error e

/-- The statements over the tables. -/
def links : Backend LinkSql Outside LinkError Tables where
  run _ st o T := st.run o T
  fail st e := st.fail e

/-- A call of the services. -/
abbrev LinkCall := ExceptT LinkError (Prog LinkSql)

/-- One statement; its failure is thrown. -/
def sql {β : Type} (st : LinkSql (Ans β)) : LinkCall β := Backend.call st

/-! ### Operations -/

/-- Source: `telegramIdentityService.ts` `TelegramIdentityInput`. -/
structure TelegramIdentityInput where
  telegramUserId : ℕ
  chatId : ℤ
  firstName : Option String := none
  lastName : Option String := none
  username : Option String := none
  deriving DecidableEq, Repr

/-- Source: `telegramIdentityService.ts` `TelegramSession`. -/
structure TelegramSession where
  user : User
  link : TelegramLink
  isNewUser : Bool
  deriving DecidableEq, Repr

/-- A message of an account that is linked. Source: `telegramIdentityService.ts`
`resolveTelegramSession`. -/
def knownSession (link : TelegramLink) : LinkCall TelegramSession := do
  match ← sql (.getUserById link.userId) with
  | none => throw .missingUser
  | some user => do
      sql (.touchLastSeen user.userId)
      pure ⟨user, link, false⟩

/-- A first message. Source: `telegramIdentityService.ts` `resolveTelegramSession`. -/
def newSession (input : TelegramIdentityInput) : LinkCall TelegramSession := do
  let firstName := orDefault (some (trim (orDefault input.firstName "Friend"))) "Friend"
  let lastName := orNull (input.lastName.map trim)
  let user ← sql (.insertUser input.telegramUserId firstName lastName)
  let link ← sql (.linkTelegramUser true
    ⟨user.userId, input.telegramUserId, some input.chatId, input.username⟩)
  pure ⟨user, link, true⟩

/-- Source: `telegramIdentityService.ts` `resolveTelegramSession`. -/
def resolveTelegramSession (input : TelegramIdentityInput) : LinkCall TelegramSession := do
  match ← sql (.getLinkByTelegramUserId input.telegramUserId) with
  | some existingLink => knownSession existingLink
  | none => newSession input

/-- What runs: a message of a Telegram account, or a request of a signed-in user for a link. -/
inductive Request where
  | resolveTelegramSession (input : TelegramIdentityInput)
  | linkTelegram (l : LinkInput)
  deriving DecidableEq, Repr

/-- What a request comes to. -/
inductive Outcome where
  | session (r : Ans TelegramSession)
  | linked (r : Ans TelegramLink)
  deriving DecidableEq, Repr

/-- What a request runs. Source: `telegramWebhookService.ts`, `controller.ts` `linkTelegram`. -/
def Request.program : Request → Prog LinkSql Outcome
  | resolveTelegramSession input =>
      (Telegram.resolveTelegramSession input).run >>= fun r => pure (.session r)
  | linkTelegram l => (sql (.linkTelegramUser false l)).run >>= fun r => pure (.linked r)

/-- The requests, before any has begun. -/
def begun (T : Tables) (requests : List Request) : Pool LinkSql Outcome Tables :=
  ⟨{ T with created := [] }, requests.map Request.program⟩

end DayfiBackend.Four.Telegram
