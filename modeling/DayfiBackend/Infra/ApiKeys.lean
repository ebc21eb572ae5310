import DayfiBackend.Found.Backend
import DayfiBackend.Found.Rows
import DayfiBackend.Infra.Ledger

/-!
# API keys

An organisation reaches the service with the session of a member or with an API key. A key is of
one environment; what a session may reach is said by a header, and the live environment only once
the organisation is verified. Keys are made and rotated through the same routes, so a key may make
further keys. The secret of a key is shown once; the table has its hash.

The hash is a parameter, and so is what a session token says.
-/

namespace DayfiBackend.Infra.ApiKeys

open DayfiBackend.Found DayfiBackend.Found.Keys DayfiBackend.Found.Rows

/-! ### Tables -/

/-- Source: `infraService.ts` `InfraAuth`. -/
structure InfraAuth where
  memberId : String
  orgId : Option String
  email : String
  role : String
  deriving DecidableEq, Repr

/-- Source: table `infra_members`, as far as it is read. -/
structure Member where
  id : String
  email : String
  role : String
  deriving DecidableEq, Repr

/-- Source: table `infra_api_keys`. -/
structure ApiKeyRow where
  id : String
  orgId : String
  environment : Environment
  name : String
  keyHash : String
  keyPrefix : String
  lastFour : String
  createdBy : Option String
  lastUsedAt : Option ℕ := none
  revokedAt : Option ℕ := none
  createdAt : ℕ
  deriving DecidableEq, Repr

/-- Source: table `infra_api_key_audit`. -/
structure AuditRow where
  orgId : String
  keyId : String
  action : String
  actorEmail : String
  createdAt : ℕ
  deriving DecidableEq, Repr

/-- Source: table `infra_organizations`, the column `verification_status`. -/
inductive VerificationStatus where
  | unverified
  | pending
  | verified
  deriving DecidableEq, Repr

/-- The tables. -/
structure Tables where
  organizations : String → Option VerificationStatus
  members : List Member := []
  keys : List ApiKeyRow := []
  audit : List AuditRow := []
  now : ℕ := 0
  uniqueKeys : (keys.map (·.id)).Nodup := by decide

/-- What a request is answered with when it fails. -/
inductive AccessError where
  | unauthorized
  | invalidKey
  | invalidToken
  | orgRequired
  | kycRequired
  | keyNotFound
  | outOfRange
  | foreignKey
  | uniqueViolation
  | database
  deriving DecidableEq, Repr

namespace AccessError

/-- The status of an answer of the middlewares and the controller. -/
def status : AccessError → Option ℕ
  | unauthorized | invalidKey | invalidToken => some 401
  | orgRequired | kycRequired => some 403
  | keyNotFound => some 404
  | outOfRange | foreignKey | uniqueViolation | database => none

/-- The text of an answer of the middlewares and the controller. -/
def message : AccessError → Option String
  | unauthorized => some "Unauthorized"
  | invalidKey => some "Invalid or revoked API key"
  | invalidToken => some "Invalid or expired token"
  | orgRequired => some "Organization setup required"
  | kycRequired => some ("KYC verification required before using LIVE. " ++
      "Complete verification under Organization.")
  | keyNotFound => some "Key not found"
  | outOfRange | foreignKey | uniqueViolation | database => none

end AccessError

abbrev Ans (α : Type) := Except AccessError α

/-! ### Statements -/

/-- The statements. -/
inductive KeySql : Type → Type
  | findByHash (keyHash : String) : KeySql (Ans (Option (ApiKeyRow × Option Member)))
  | touch (id : String) : KeySql (Ans Unit)
  | orgStatus (orgId : String) : KeySql (Ans (Option VerificationStatus))
  /-- The hexadecimal digits of 24 random bytes. -/
  | randomBytes : KeySql (Ans String)
  | insertKey (row : ApiKeyRow) : KeySql (Ans ApiKeyRow)
  | insertAudit (orgId keyId action actorEmail : String) : KeySql (Ans Unit)
  | findActive (id orgId : String) (environment : Environment) : KeySql (Ans (Option String))
  | revoke (id : String) : KeySql (Ans Unit)
  | listKeys (orgId : String) (environment : Environment) :
      KeySql (Ans (List (ApiKeyRow × Option Member)))
  | listAudit (orgId : String) : KeySql (Ans (List AuditRow))
  | setVerification (orgId : String) (status : VerificationStatus) : KeySql (Ans Unit)

/-- The outside at a step: an identifier the database makes up, random bytes, the clock and a
choice among rows in no order. -/
structure Outside where
  newId : String := ""
  pick : ℕ := 0
  bytes : String := ""
  now : ℕ := 0
  deriving DecidableEq, Repr

namespace Tables

variable (T : Tables)

/-- The member that made a key. -/
def creator (k : ApiKeyRow) : Option Member :=
  k.createdBy.bind fun id => T.members.find? (·.id = id)

/-- A key with a hash that is not revoked; which one, if there are more, is not said. -/
def findByHash (keyHash : String) (pick : ℕ) : Option ApiKeyRow :=
  let found := T.keys.filter fun k => k.keyHash = keyHash && k.revokedAt.isNone
  found[pick % found.length]?

/-- The rows after an update of one. -/
def updated (id : String) (f : ApiKeyRow → ApiKeyRow) : List ApiKeyRow :=
  T.keys.map fun k => if k.id = id then f k else k

theorem updated_ids {id : String} {f : ApiKeyRow → ApiKeyRow} (hf : ∀ k, (f k).id = k.id) :
    (T.updated id f).map (·.id) = T.keys.map (·.id) := by
  unfold updated
  rw [List.map_map]
  refine List.map_congr_left fun k _ => ?_
  simp only [Function.comp_apply]
  split_ifs
  · exact hf k
  · rfl

theorem updated_nodup (id : String) (f : ApiKeyRow → ApiKeyRow) (hf : ∀ k, (f k).id = k.id) :
    ((T.updated id f).map (·.id)).Nodup :=
  (T.updated_ids hf).symm ▸ T.uniqueKeys

/-- An update of one row that leaves its identifier. -/
def update (id : String) (f : ApiKeyRow → ApiKeyRow) (hf : ∀ k, (f k).id = k.id) : Tables :=
  { T with
    keys := T.updated id f
    uniqueKeys := T.updated_nodup id f hf }

/-- The key has been used. -/
def touch (id : String) : Tables :=
  T.update id (fun k => { k with lastUsedAt := some T.now }) fun _ => rfl

/-- The key is revoked. -/
def revoke (id : String) : Tables :=
  T.update id (fun k => { k with revokedAt := some T.now }) fun _ => rfl

/-- The insert of a key. -/
def insertKey (id : String) (row : ApiKeyRow) : Ans ApiKeyRow × Tables :=
  let new : ApiKeyRow := { row with id := id, createdAt := T.now }
  if !(fitsVarchar 255 row.name) || !(fitsVarchar 255 row.keyHash) then (.error .outOfRange, T)
  else if (T.organizations row.orgId).isNone ∨
      row.createdBy.any fun id => T.members.all (·.id ≠ id) then
    (.error .foreignKey, T)
  else if h : ((new :: T.keys).map (·.id)).Nodup then
    (.ok new, { T with keys := new :: T.keys, uniqueKeys := h })
  else (.error .uniqueViolation, T)

/-- The insert of an entry of the audit. -/
def insertAudit (orgId keyId action actorEmail : String) : Ans Unit × Tables :=
  if !(fitsVarchar 255 actorEmail) then (.error .outOfRange, T)
  else if (T.organizations orgId).isNone ∨ T.keys.all (·.id ≠ keyId) then (.error .foreignKey, T)
  else (.ok (), { T with audit := ⟨orgId, keyId, action, actorEmail, T.now⟩ :: T.audit })

/-- The keys of an organisation that are not revoked, the newest first. -/
def listKeys (orgId : String) (environment : Environment) : List ApiKeyRow :=
  (T.keys.filter fun k => k.orgId = orgId && k.environment = environment &&
    k.revokedAt.isNone).mergeSort fun a b => b.createdAt ≤ a.createdAt

/-- The last entries of the audit of an organisation. -/
def listAudit (orgId : String) : List AuditRow :=
  ((T.audit.filter (·.orgId = orgId)).mergeSort fun a b => b.createdAt ≤ a.createdAt).take 50

end Tables

/-- One statement. -/
def KeySql.act {β : Type} (st : KeySql β) (o : Outside) (T : Tables) : β × Tables :=
  match st with
  | .findByHash keyHash =>
      (.ok ((T.findByHash keyHash o.pick).map fun k => (k, T.creator k)), T)
  | .touch id => (.ok (), T.touch id)
  | .orgStatus orgId => (.ok (T.organizations orgId), T)
  | .randomBytes => (.ok o.bytes, T)
  | .insertKey row => T.insertKey o.newId row
  | .insertAudit orgId keyId action actorEmail => T.insertAudit orgId keyId action actorEmail
  | .findActive id orgId environment =>
      (.ok ((T.keys.find? fun k => k.id = id && k.orgId = orgId &&
        k.environment = environment && k.revokedAt.isNone).map (·.id)), T)
  | .revoke id => (.ok (), T.revoke id)
  | .listKeys orgId environment =>
      (.ok ((T.listKeys orgId environment).map fun k => (k, T.creator k)), T)
  | .listAudit orgId => (.ok (T.listAudit orgId), T)
  | .setVerification orgId status =>
      (.ok (), { T with organizations := fun id =>
        if id = orgId then (T.organizations id).map fun _ => status else T.organizations id })

/-- One statement, when it gets there. -/
def KeySql.run {β : Type} (st : KeySql β) (o : Outside) (T : Tables) : β × Tables :=
  st.act o { T with now := o.now }

/-- The answer of a statement that fails. -/
def KeySql.fail {β : Type} (st : KeySql β) (e : AccessError) : β :=
  match st with
  | .findByHash _ | .touch _ | .orgStatus _ | .randomBytes | .insertKey _ => .error e
  | .insertAudit .. | .findActive .. | .revoke _ | .listKeys .. | .listAudit _ => .error e
  | .setVerification .. => .error e

/-- The statements over the tables. -/
def access : Backend KeySql Outside AccessError Tables where
  run _ st o T := st.run o T
  fail st e := st.fail e

/-- A call. -/
abbrev KeyCall := ExceptT AccessError (Prog KeySql)

/-- One statement; its failure is thrown. -/
def sql {β : Type} (st : KeySql (Ans β)) : KeyCall β := Backend.call st

/-! ### Authentication -/

/-- What secrets and session tokens are to the service. -/
structure Secrets where
  hashApiKey : String → String
  decodeInfraToken : String → Option InfraAuth

/-- Source: `infraService.ts` `isApiKeySecret`. -/
def isApiKeySecret (token : String) : Bool :=
  startsWith (trim token) "sk_test_" || startsWith (trim token) "sk_live_"

/-- Source: `infraService.ts` `InfraApiKeyAuth`. -/
structure InfraApiKeyAuth where
  infra : InfraAuth
  env : Environment
  keyId : String
  deriving DecidableEq, Repr

/-- The prefix of the secrets of an environment. -/
def secretPrefix : Environment → String
  | .live => "sk_live_"
  | .test => "sk_test_"

/-- The secret is written as one of another environment. -/
def misplaced (token : String) (env : Environment) : Bool :=
  startsWith token "sk_live_" && env ≠ .live || startsWith token "sk_test_" && env ≠ .test

section secrets

variable (S : Secrets)

/-- Source: `infraService.ts` `authenticateApiKey`. -/
def authenticateApiKey (secret : String) : KeyCall (Option InfraApiKeyAuth) :=
  let token := trim secret
  if isApiKeySecret token = false then pure none
  else do
    match ← sql (.findByHash (S.hashApiKey token)) with
    | none => pure none
    | some (row, member) =>
        if row.orgId = "" then pure none
        else if misplaced token row.environment then pure none
        else do
          sql (.touch row.id)
          pure (some {
            keyId := row.id
            env := row.environment
            infra := {
              memberId := orDefault (member.map (·.id)) (orDefault row.createdBy row.orgId)
              orgId := some row.orgId
              email := orDefault (member.map (·.email)) "api-key"
              role := orDefault (member.map (·.role)) "admin" } })

/-- Source: `infraService.ts` `envFromHeader`. -/
def envFromHeader (header : Option String) : Environment :=
  if (trim (orDefault header "test")).toLower = "live" then .live else .test

/-- The token of an `Authorization` header. -/
def bearer (authorization : String) : String :=
  if startsWith authorization "Bearer " then trim (String.ofList (authorization.toList.drop 7))
  else ""

/-- What a request brings with it. -/
structure Headers where
  authorization : String
  environment : Option String := none
  deriving DecidableEq, Repr

/-- Source: `infraService.ts` `infraAuthMiddleware`. -/
def infraAuthMiddleware (h : Headers) : KeyCall (InfraAuth × Environment) :=
  let token := bearer h.authorization
  if token = "" then throw .unauthorized
  else if isApiKeySecret token then do
    match ← authenticateApiKey S token with
    | none => throw .invalidKey
    | some keyAuth => pure (keyAuth.infra, keyAuth.env)
  else
    match S.decodeInfraToken token with
    | none => throw .invalidToken
    | some auth => pure (auth, envFromHeader h.environment)

/-- Source: `infraService.ts` `requireOrgMiddleware`. -/
def requireOrgMiddleware (auth : InfraAuth) : KeyCall String :=
  match orNull auth.orgId with
  | none => throw .orgRequired
  | some orgId => pure orgId

/-- Source: `infraService.ts` `requireVerifiedForLiveMiddleware`. -/
def requireVerifiedForLiveMiddleware (orgId : String) (env : Environment) : KeyCall Unit :=
  if env ≠ .live then pure ()
  else do
    let status ← sql (.orgStatus orgId)
    if status ≠ some .verified then throw .kycRequired else pure ()

/-- Whom a request is let in for. -/
structure Admitted where
  infra : InfraAuth
  orgId : String
  env : Environment
  deriving DecidableEq, Repr

/-- The middlewares before the routes of an organisation. -/
def letIn (h : Headers) : KeyCall Admitted := do
  let (infra, env) ← infraAuthMiddleware S h
  let orgId ← requireOrgMiddleware infra
  requireVerifiedForLiveMiddleware orgId env
  pure ⟨infra, orgId, env⟩

/-! ### Keys -/

/-- What is returned of a new key. -/
structure CreatedKey where
  id : String
  name : String
  keyPrefix : String
  lastFour : String
  secret : String
  createdAt : ℕ
  createdBy : String
  deriving DecidableEq, Repr

/-- The last four characters of a secret's random part. -/
def lastFourOf (body : String) : String :=
  String.ofList (body.toList.drop (body.toList.length - 4))

/-- The row of a new key. Source: `infraService.ts` `createApiKey`. -/
def newKey (orgId : String) (env : Environment) (name body : String) (actor : InfraAuth) :
    ApiKeyRow where
  id := ""
  orgId := orgId
  environment := env
  name := name
  keyHash := S.hashApiKey (secretPrefix env ++ body)
  keyPrefix := secretPrefix env
  lastFour := lastFourOf body
  createdBy := some actor.memberId
  createdAt := 0

/-- Source: `infraService.ts` `createApiKey`, with `generateApiSecret`. -/
def createApiKey (orgId : String) (env : Environment) (name : String) (actor : InfraAuth) :
    KeyCall CreatedKey := do
  let body ← sql .randomBytes
  let row ← sql (.insertKey (newKey S orgId env name body actor))
  sql (.insertAudit orgId row.id "key.created" actor.email)
  pure ⟨row.id, name, secretPrefix env, lastFourOf body, secretPrefix env ++ body, row.createdAt,
    actor.email⟩

/-- Source: `infraService.ts` `rotateApiKey`. -/
def rotateApiKey (orgId : String) (env : Environment) (keyId : String) (actor : InfraAuth) :
    KeyCall (Option CreatedKey) := do
  match ← sql (.findActive keyId orgId env) with
  | none => pure none
  | some _ => do
      sql (.revoke keyId)
      let created ← createApiKey S orgId env "Rotated key" actor
      sql (.insertAudit orgId keyId "key.rotated" actor.email)
      pure (some created)

/-! ### Routes -/

/-- The routes of an organisation. -/
inductive Route where
  | apiKeysList
  | apiKeysCreate (name : Option String)
  | apiKeysRotate (id : String)
  | apiKeysAudit
  /-- A route that has nothing to do with keys. -/
  | other
  deriving DecidableEq, Repr

/-- What a route answers. -/
inductive Reply where
  | keys (keys : List (ApiKeyRow × Option Member))
  | created (key : CreatedKey)
  | audit (rows : List AuditRow)
  | other
  deriving DecidableEq, Repr

/-- The controllers. Source: `controller.ts` `apiKeysList`, `apiKeysCreate`, `apiKeysRotate`,
`apiKeysAudit`. -/
def Route.call (a : Admitted) : Route → KeyCall Reply
  | apiKeysList => do
      let keys ← sql (.listKeys a.orgId a.env)
      pure (.keys keys)
  | apiKeysCreate name => do
      let key ← createApiKey S a.orgId a.env (trim (orDefault name "API key")) a.infra
      pure (.created key)
  | apiKeysRotate id => do
      match ← rotateApiKey S a.orgId a.env id a.infra with
      | none => throw .keyNotFound
      | some key => pure (.created key)
  | apiKeysAudit => do
      let rows ← sql (.listAudit a.orgId)
      pure (.audit rows)
  | other => pure .other

/-- A request to a route, or a decision on the verification of an organisation. -/
inductive Request where
  | route (h : Headers) (r : Route)
  | setVerification (orgId : String) (status : VerificationStatus)
  deriving DecidableEq, Repr

/-- What a request comes to. -/
inductive Outcome where
  | replied (a : Admitted) (r : Ans Reply)
  | refused (e : AccessError)
  | decided
  deriving DecidableEq, Repr

/-- What a request runs. -/
def Request.program : Request → Prog KeySql Outcome
  | route h r => (letIn S h).run >>= fun a =>
      match a with
      | .error e => pure (.refused e)
      | .ok a => (r.call S a).run >>= fun reply => pure (.replied a reply)
  | setVerification orgId status =>
      (sql (.setVerification orgId status)).run >>= fun _ => pure .decided

/-- The requests, before any has begun. -/
def begun (T : Tables) (requests : List Request) : Pool KeySql Outcome Tables :=
  ⟨T, requests.map (Request.program S)⟩

end secrets

end DayfiBackend.Infra.ApiKeys
