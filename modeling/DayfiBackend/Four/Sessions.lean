import DayfiBackend.Found.Midway
import DayfiBackend.Four.SecureRoutes

/-!
# Sessions of the app

A sign-in ends with a session: a token of random bytes, of which the table has the hash. The guard
of the routes looks a token up by its hash and lets the request in while the session is neither
revoked nor expired; signing out is a route behind the guard that revokes the session it came in
with. Requests run side by side, and the hash is a parameter.

`sessions_end` says of every run that who is let in has a session that was issued to that user, and
that a session which has ended stays so: no request that begins later is let in with its token.
-/

namespace DayfiBackend.Four.Sessions

open DayfiBackend.Found DayfiBackend.Found.Keys DayfiBackend.Found.Prog

/-! ### Tables -/

/-- Source: table `four_sessions`; the labels of the device are left out. -/
structure SessionRow where
  id : String
  userId : String
  tokenHash : String
  expiresAt : ℕ
  revokedAt : Option ℕ := none
  createdAt : ℕ
  lastUsedAt : ℕ
  deriving DecidableEq, Repr

/-- The table and the clock, in milliseconds; no two rows have one hash. -/
structure Tables where
  sessions : List SessionRow := []
  now : ℕ := 0
  uniqueHashes : (sessions.map (·.tokenHash)).Nodup := by decide

/-- How a call fails. -/
inductive SessionError where
  | unauthorized
  | uniqueViolation
  | database
  deriving DecidableEq, Repr

abbrev Ans (α : Type) := Except SessionError α

/-! ### Statements -/

/-- The statements. -/
inductive SessionSql : Type → Type
  /-- Random bytes, in base64url. -/
  | randomBytes : SessionSql (Ans String)
  | insertSession (userId tokenHash : String) : SessionSql (Ans SessionRow)
  | useSession (tokenHash : String) : SessionSql (Ans (Option SessionRow))
  | revokeSession (tokenHash : String) : SessionSql (Ans Bool)
  | touchLastSeen (userId : String) : SessionSql (Ans Unit)

/-- The outside at a step: how much time has passed, random bytes and a new identifier. -/
structure Outside where
  elapsed : ℕ := 0
  bytes : String := ""
  newId : String := ""
  deriving DecidableEq, Repr

/-- The parameters of the service: the hash of tokens, and how long a session lasts. -/
structure Settings where
  hashSessionToken : String → String
  ttl : ℕ

namespace Tables

variable (T : Tables)

/-- Rows are updated in what does not tell them apart. -/
def update (p : SessionRow → Bool) (f : SessionRow → SessionRow)
    (hf : ∀ k, (f k).tokenHash = k.tokenHash) : Tables where
  sessions := T.sessions.map fun k => if p k then f k else k
  now := T.now
  uniqueHashes := by
    have hsame : (T.sessions.map fun k => if p k then f k else k).map (·.tokenHash) =
        T.sessions.map (·.tokenHash) := by
      rw [List.map_map]
      refine List.map_congr_left fun k _ => ?_
      dsimp only [Function.comp_apply]
      split_ifs
      · exact hf k
      · rfl
    exact hsame ▸ T.uniqueHashes

/-- A session that lets its token in. -/
def live (tokenHash : String) (k : SessionRow) : Bool :=
  k.tokenHash = tokenHash && k.revokedAt.isNone && T.now < k.expiresAt

/-- The INSERT of a session. -/
def insertSession (row : SessionRow) : Ans SessionRow × Tables :=
  if h : row.tokenHash ∈ T.sessions.map (·.tokenHash) then (.error .uniqueViolation, T)
  else (.ok row, ⟨row :: T.sessions, T.now, List.nodup_cons.mpr ⟨h, T.uniqueHashes⟩⟩)

end Tables

/-- One statement. -/
def SessionSql.act (cfg : Settings) {β : Type} (st : SessionSql β) (o : Outside) (T : Tables) :
    β × Tables :=
  match st with
  | .randomBytes => (.ok o.bytes, T)
  | .insertSession userId tokenHash =>
      T.insertSession ⟨o.newId, userId, tokenHash, T.now + cfg.ttl, none, T.now, T.now⟩
  | .useSession tokenHash =>
      (.ok (T.sessions.find? (T.live tokenHash)),
        T.update (T.live tokenHash) (fun k => { k with lastUsedAt := T.now }) fun _ => rfl)
  | .revokeSession tokenHash =>
      (.ok (T.sessions.any fun k => k.tokenHash = tokenHash && k.revokedAt.isNone),
        T.update (fun k => k.tokenHash = tokenHash && k.revokedAt.isNone)
          (fun k => { k with revokedAt := some T.now }) fun _ => rfl)
  | .touchLastSeen _ => (.ok (), T)

/-- One statement, when it gets there. -/
def SessionSql.run (cfg : Settings) {β : Type} (st : SessionSql β) (o : Outside) (T : Tables) :
    β × Tables := st.act cfg o { T with now := T.now + o.elapsed }

/-- The answer of a statement that fails. -/
def SessionSql.fail {β : Type} (st : SessionSql β) (e : SessionError) : β :=
  match st with
  | .randomBytes | .insertSession .. | .useSession _ | .revokeSession _ => .error e
  | .touchLastSeen _ => .error e

/-- The statements over the table. -/
def sessions (cfg : Settings) : Backend SessionSql Outside SessionError Tables where
  run _ st o T := st.run cfg o T
  fail st e := st.fail e

/-- A call. -/
abbrev SessionCall := ExceptT SessionError (Prog SessionSql)

/-- One statement; its failure is thrown. -/
def sql {β : Type} (st : SessionSql (Ans β)) : SessionCall β := Backend.call st

/-! ### The service -/

section service

variable (cfg : Settings)

/-- Source: `sessionService.ts` `IssuedSession`. -/
structure IssuedSession where
  id : String
  userId : String
  expiresAt : ℕ
  createdAt : ℕ
  token : String
  deriving DecidableEq, Repr

/-- Source: `sessionService.ts` `createSession`, with `generateSessionToken`. -/
def createSession (userId : String) : SessionCall IssuedSession := do
  let body ← sql .randomBytes
  let row ← sql (.insertSession userId (cfg.hashSessionToken ("fs_" ++ body)))
  pure ⟨row.id, row.userId, row.expiresAt, row.createdAt, "fs_" ++ body⟩

/-- Source: `sessionService.ts` `validateSessionToken`. -/
def validateSessionToken (token : String) : SessionCall (Option SessionRow) :=
  if startsWith (trim token) "fs_" then sql (.useSession (cfg.hashSessionToken (trim token)))
  else pure none

/-- Source: `sessionService.ts` `revokeSessionByToken`. -/
def revokeSessionByToken (token : String) : SessionCall Bool :=
  sql (.revokeSession (cfg.hashSessionToken (trim token)))

/-- Who a request is let in as. -/
structure Admitted where
  userId : String
  sessionId : String
  token : String
  deriving DecidableEq, Repr

/-- Source: `middleware.ts` `requireFourSession`. -/
def requireFourSession (r : SecureRoutes.Request) : SessionCall Admitted :=
  match r.bearerToken with
  | none => throw .unauthorized
  | some token => do
      match ← tryCatch (validateSessionToken cfg token) fun _ => throw .unauthorized with
      | none => throw .unauthorized
      | some session => do
          tryCatch (sql (.touchLastSeen session.userId)) fun _ => pure ()
          pure ⟨session.userId, session.id, token⟩

/-- Source: `controller.ts` `logout`, behind its guard. -/
def logout (r : SecureRoutes.Request) : SessionCall Admitted := do
  let a ← requireFourSession cfg r
  let _ ← revokeSessionByToken cfg a.token
  pure a

/-- What runs: the end of a sign-in, a route behind the guard, and the one that signs out. -/
inductive Request where
  | signIn (userId : String)
  | route (r : SecureRoutes.Request)
  | logout (r : SecureRoutes.Request)

/-- What a request comes to. -/
inductive Outcome where
  | signedIn (x : Ans IssuedSession)
  | guarded (a : Ans Admitted)
  deriving DecidableEq, Repr

/-- What a request runs. -/
def Request.program : Request → Prog SessionSql Outcome
  | signIn userId => (createSession cfg userId).run >>= fun x => pure (.signedIn x)
  | route r => (requireFourSession cfg r).run >>= fun a => pure (.guarded a)
  | logout r => (Sessions.logout cfg r).run >>= fun a => pure (.guarded a)

/-- The request that the guard sees. -/
def Request.guarded : Request → Option SecureRoutes.Request
  | signIn _ => none
  | route r | logout r => some r

end service

/-- The requests, before any has begun. -/
def begun (cfg : Settings) (T : Tables) (requests : List Request) :
    Pool SessionSql Outcome Tables :=
  ⟨T, requests.map (Request.program cfg)⟩

/-! ### The property -/

/-- What never changes of a session. -/
def SessionRow.lasting (k : SessionRow) : SessionRow :=
  { k with revokedAt := none, lastUsedAt := 0 }

/-- The session was issued to its user. -/
def Rooted (T : Tables) (requests : List Request) (k : SessionRow) : Prop :=
  (∃ k' ∈ T.sessions, k'.lasting = k.lasting) ∨ .signIn k.userId ∈ requests

/-- The session of a hash has ended: it is revoked, or its time is over. -/
def Ended (tokenHash : String) (s : Tables) : Prop :=
  ∃ k ∈ s.sessions, k.tokenHash = tokenHash ∧ (k.revokedAt.isSome ∨ k.expiresAt ≤ s.now)

/-- What is asked of a run that is looked at twice. -/
structure SessionsEnd (cfg : Settings) (T : Tables) (requests : List Request)
    (before after : List (ℕ × Except SessionError Outside)) : Prop where
  /-- Who is let in has a session of theirs, by its token. -/
  admitted : ∀ (i : ℕ) q r a, requests[i]? = some q → q.guarded = some r →
    ((begun cfg T requests).run (sessions cfg).machine before).procs[i]? =
        some (.ret (.guarded (.ok a))) →
      r.bearerToken = some a.token ∧
        ∃ k ∈ ((begun cfg T requests).run (sessions cfg).machine before).store.sessions,
          k.id = a.sessionId ∧ k.userId = a.userId ∧
            k.tokenHash = cfg.hashSessionToken (trim a.token) ∧ Rooted T requests k
  /-- Signing out ends the session. -/
  signedOut : ∀ (j : ℕ) r a, requests[j]? = some (.logout r) →
    ((begun cfg T requests).run (sessions cfg).machine before).procs[j]? =
        some (.ret (.guarded (.ok a))) →
      Ended (cfg.hashSessionToken (trim a.token))
        ((begun cfg T requests).run (sessions cfg).machine before).store
  /-- A request that begins after its session has ended is not let in. -/
  ended : ∀ (i : ℕ) q r token a, requests[i]? = some q → q.guarded = some r →
    r.bearerToken = some token → (∀ e ∈ before, e.1 ≠ i) →
    Ended (cfg.hashSessionToken (trim token))
        ((begun cfg T requests).run (sessions cfg).machine before).store →
      ((begun cfg T requests).run (sessions cfg).machine (before ++ after)).procs[i]? ≠
        some (.ret (.guarded (.ok a)))

end DayfiBackend.Four.Sessions
