import DayfiBackend.Found.Journal
import DayfiBackend.Found.Keys
import DayfiBackend.Found.Rows

/-!
# The message log of a conversation

Messages are appended to a conversation in a transaction that locks it, and read back page by
page, newest page first. A message is numbered by a sequence (`seq`); a client may send an
identifier of its own with it (`clientMessageId`), and sending the same one again returns the
message already stored.

`history` is a client that follows `nextBefore` from the latest page backwards.
-/

namespace DayfiBackend.Four

open DayfiBackend.Found DayfiBackend.Found.Database DayfiBackend.Found.Keys
  DayfiBackend.Found.Rows

/-! ### Tables -/

/-- Source: `messageService.ts` `MessageRole`. -/
inductive MessageRole where
  | user
  | assistant
  | system
  deriving DecidableEq, Repr

/-- Source: `messageService.ts` `MessageType`. -/
inductive MessageType where
  | text
  | image
  | voice
  | review
  | payment
  | receipt
  | bill
  | batch
  | choice
  | error
  | event
  deriving DecidableEq, Repr

/-- A text of the column `title VARCHAR(200)`. -/
abbrev Title := { s : String // fitsVarchar 200 s = true }

/-- A row of `four_conversations`; the identifier is its key.
Source: `four-conversations-up.sql`. -/
structure ConversationRow where
  userId : String
  title : Option Title := none
  updatedAt : ℕ := 0
  lastMessageAt : ℕ := 0
  deriving DecidableEq, Repr

/-- A row of `four_messages`, identified by its number; `metadata` is the text of the document.
Source: `messageService.ts` `FourMessage`. -/
structure FourMessage where
  seq : ℕ
  conversationId : String
  userId : String
  role : MessageRole
  type : MessageType
  content : Option String
  metadata : String
  clientMessageId : Option String
  createdAt : ℕ
  deriving DecidableEq, Repr

/-- The errors of the database. -/
inductive DbError where
  | uniqueViolation
  | noData
  | invalidText
  | sequenceExhausted
  | connectionLost
  deriving DecidableEq, Repr

/-- The text can be stored: a database text has no null character. -/
def storable (s : Option String) : Bool := s.all fun t => !t.toList.contains (Char.ofNat 0)

/-- The unique index over conversation and client identifier, where there is one.
Source: index `four_messages_client_dedupe`. -/
def FourMessage.clashes (m n : FourMessage) : Bool :=
  m.conversationId = n.conversationId && m.clientMessageId.isSome &&
    m.clientMessageId = n.clientMessageId

theorem FourMessage.clashes_comm (m n : FourMessage) : m.clashes n = n.clashes m := by
  unfold clashes
  by_cases hc : m.conversationId = n.conversationId <;>
    by_cases hm : m.clientMessageId = n.clientMessageId <;> simp [hc, hm, eq_comm]

/-- The constraints of the two tables. The sequence of `seq` ends at the largest `bigint`. -/
def messageSchema : Schema String ConversationRow FourMessage DbError where
  checkRow _ _ := .ok ()
  checkEntry m :=
    if 2 ^ 63 ≤ m.seq then .error .sequenceExhausted
    else if storable m.content && storable m.clientMessageId then .ok () else .error .invalidText
  clash := FourMessage.clashes
  clash_symm := FourMessage.clashes_comm
  uniqueViolation := .uniqueViolation
  noRow := .noData
  terminated := .connectionLost

/-- Statements of a session of the message log. -/
abbrev MessageQuery := Query String ConversationRow FourMessage DbError

/-- The database of the message log. -/
abbrev MessageDb := Db String ConversationRow FourMessage

/-! ### Appending -/

/-- Runs of white space become one space: `replace(/\s+/g, ' ')`. -/
def flatten : List Char → List Char
  | [] => []
  | c :: cs =>
      if isSpace c then
        if (cs.head?.map isSpace).getD false then flatten cs else ' ' :: flatten cs
      else c :: flatten cs

/-- The first `n` code units of a text; a character cut in half is replaced. -/
def sliceUnits : ℕ → List Char → List Char
  | 0, _ => []
  | _, [] => []
  | n + 1, c :: cs =>
      if c.toNat < 0x10000 then c :: sliceUnits n cs
      else
        match n with
        | 0 => [Char.ofNat 0xFFFD]
        | m + 1 => c :: sliceUnits m cs

/-- The text of `deriveTitle`. -/
def titleText (content : String) : String :=
  let flat := trim (String.ofList (flatten content.toList))
  if codeUnits flat ≤ 60 then flat else String.ofList (sliceUnits 57 flat.toList) ++ "…"

theorem length_sliceUnits (n : ℕ) (cs : List Char) : (sliceUnits n cs).length ≤ n := by
  fun_induction sliceUnits n cs with
  | case1 => simp
  | case2 => simp
  | case3 n c cs _ ih => simpa using ih
  | case4 => simp
  | case5 c cs _ m ih =>
      simp only [List.length_cons]
      omega

theorem length_le_codeUnits (s : String) : s.toList.length ≤ codeUnits s := by
  unfold codeUnits
  induction s.toList with
  | nil => simp
  | cons c cs ih =>
      simp only [List.length_cons, List.map_cons, List.sum_cons]
      split_ifs <;> omega

/-- A title of at most 200 characters. -/
theorem titleText_fits (content : String) : fitsVarchar 200 (titleText content) = true := by
  have hshort : ∀ s : String, s.toList.length ≤ 200 → fitsVarchar 200 s = true := by
    intro s hs
    simp [fitsVarchar, List.drop_eq_nil_of_le hs]
  apply hshort
  unfold titleText
  dsimp only
  split_ifs with hunits
  · exact ((length_le_codeUnits _).trans hunits).trans (by decide)
  · have hslice := length_sliceUnits 57 (trim (String.ofList (flatten content.toList))).toList
    rw [String.toList_append, List.length_append, String.toList_ofList]
    have hdots : "…".toList.length = 1 := rfl
    omega

/-- Source: `messageService.ts` `deriveTitle`. -/
def deriveTitle (content : String) : Title := ⟨titleText content, titleText_fits content⟩

/-- Source: `messageService.ts` `AppendMessageInput`. -/
structure AppendMessageInput where
  userId : String
  conversationId : String
  role : MessageRole
  type : Option MessageType := none
  content : Option String := none
  metadata : Option String := none
  clientMessageId : Option String := none
  deriving DecidableEq, Repr

/-- Source: `messageService.ts` `AppendMessageResult`. -/
structure AppendMessageResult where
  message : FourMessage
  deduplicated : Bool
  deriving DecidableEq, Repr

/-- The row an append inserts, under the number the sequence gives. -/
def AppendMessageInput.message (input : AppendMessageInput) (now seq : ℕ) : FourMessage where
  seq := seq
  conversationId := input.conversationId
  userId := input.userId
  role := input.role
  type := input.type.getD .text
  content := input.content
  metadata := input.metadata.getD "\x7b\x7d"
  clientMessageId := input.clientMessageId
  createdAt := now

/-- The title a first message gives its conversation. -/
def AppendMessageInput.nextTitle (input : AppendMessageInput) (conversation : ConversationRow) :
    Option Title :=
  if conversation.title = none ∧ input.role = .user then (orNull input.content).map deriveTitle
  else none

/-- `UPDATE four_conversations SET last_message_at = …, updated_at = …, title = COALESCE(…)`. -/
def ConversationRow.touch (now : ℕ) (nextTitle : Option Title) (row : ConversationRow) :
    ConversationRow :=
  { row with
    updatedAt := now
    lastMessageAt := now
    title := row.title <|> nextTitle }

/-- The part of an append that works on the locked conversation. -/
def storeMessage (now : ℕ) (input : AppendMessageInput) (conversation : ConversationRow) :
    ExceptT DbError (Prog MessageQuery) (Option AppendMessageResult) := do
  match ← Backend.call (.insertNew (input.message now)) with
  | none => do
      -- a conflict: the client has sent the message before
      match ← Backend.call (.find fun m => m.conversationId = input.conversationId &&
          m.clientMessageId.isSome && m.clientMessageId = input.clientMessageId) with
      | some existing => return some ⟨existing, true⟩
      | none => throw .noData
  | some inserted => do
      Backend.call (.update input.conversationId (.touch now (input.nextTitle conversation)))
      return some ⟨inserted, false⟩

/-- The transaction of an append; `now` is its time.
Source: `messageService.ts` `appendMessage`. -/
def appendSteps (now : ℕ) (input : AppendMessageInput) :
    ExceptT DbError (Prog MessageQuery) (Option AppendMessageResult) := do
  match ← Backend.call (.lockWhere input.conversationId (·.userId = input.userId)) with
  | none => return none
  | some conversation => storeMessage now input conversation

/-- Source: `messageService.ts` `appendMessage`. -/
def appendMessage (now : ℕ) (input : AppendMessageInput) :
    ExceptT DbError (Prog MessageQuery) (Option AppendMessageResult) :=
  inTransaction (appendSteps now input)

/-! ### Reading -/

/-- Source: `messageService.ts` `ListMessagesResult`. -/
structure ListMessagesResult where
  messages : List FourMessage
  nextBefore : Option String
  hasMore : Bool
  deriving DecidableEq, Repr

/-- The number a cursor stands for: the route lets only digits through, and the cast to `bigint`
only what fits. -/
def bigint (s : String) : Except DbError ℕ :=
  if s.toList ≠ [] ∧ s.toList.all Char.isDigit = true ∧ Nat.ofDigitChars 10 s.toList 0 < 2 ^ 63 then
    .ok (Nat.ofDigitChars 10 s.toList 0)
  else .error .invalidText

/-- `$3::bigint` of an optional cursor. -/
def cursor (before : Option String) : Except DbError (Option ℕ) :=
  match before.filter fun s => trim s ≠ "" with
  | none => .ok none
  | some s => (bigint s).map some

/-- `Math.min(Math.max(options?.limit ?? 50, 1), 200)`. -/
def pageSize (limit : Option ℤ) : ℕ := (min (max (limit.getD 50) 1) 200).toNat

/-- The messages of a page query, in any number. -/
def inPage (conversationId userId : String) (before : Option ℕ) (m : FourMessage) : Bool :=
  m.conversationId = conversationId && m.userId = userId && before.all (m.seq < ·)

/-- `SELECT … WHERE … ORDER BY seq DESC LIMIT n`. -/
def selectPage (conversationId userId : String) (before : Option ℕ) (n : ℕ)
    (log : List FourMessage) : List FourMessage :=
  ((log.filter (inPage conversationId userId before)).mergeSort fun a b => b.seq ≤ a.seq).take n

/-- The page made of the rows of a query for one row more than `limit`. -/
def pageOf (limit : ℕ) (rows : List FourMessage) : ListMessagesResult :=
  let hasMore := decide (limit < rows.length)
  let page := if hasMore then rows.take limit else rows
  { messages := page.reverse
    nextBefore := if hasMore then page.getLast?.map fun m => toString m.seq else none
    hasMore := hasMore }

/-- Source: `messageService.ts` `listMessages`. -/
def listMessages (userId conversationId : String) (limit : Option ℤ) (before : Option String) :
    ExceptT DbError (Prog MessageQuery) (Option ListMessagesResult) := do
  match ← Backend.call (.row conversationId (·.userId = userId)) with
  | none => return none
  | some _ =>
      match cursor before with
      | .error e => throw e
      | .ok b => do
          let rows ← Backend.call
            (.entries (selectPage conversationId userId b (pageSize limit + 1)))
          return some (pageOf (pageSize limit) rows)

/-- A client that asks for the latest page and then follows `nextBefore`, one page for each limit;
the pages, newest first. -/
def history (userId conversationId : String) :
    List (Option ℤ) → Option String →
      ExceptT DbError (Prog MessageQuery) (Option (List ListMessagesResult))
  | [], _ => return some []
  | limit :: limits, before => do
      match ← listMessages userId conversationId limit before with
      | none => return none
      | some page =>
          match page.nextBefore with
          | none => return some [page]
          | some next => do
              let rest ← history userId conversationId limits (some next)
              return rest.map (page :: ·)

/-! ### Calls -/

/-- What a process of the log does. -/
inductive LogCall where
  | append (now : ℕ) (input : AppendMessageInput)
  | history (userId conversationId : String) (limits : List (Option ℤ))
  /-- The server ends the transaction of another process. -/
  | terminate (j : ℕ)

/-- What it returns. -/
inductive LogResult where
  | appended (r : Except DbError (Option AppendMessageResult))
  | listed (r : Except DbError (Option (List ListMessagesResult)))
  | terminated

/-- The program of a call. -/
def LogCall.program : LogCall → Prog MessageQuery LogResult
  | .append now input => (appendMessage now input).run >>= fun r => .ret (.appended r)
  | .history userId conversationId limits =>
      (Four.history userId conversationId limits none).run >>= fun r => .ret (.listed r)
  | .terminate j => Prog.perform (.terminate j) >>= fun _ => .ret .terminated

end DayfiBackend.Four
