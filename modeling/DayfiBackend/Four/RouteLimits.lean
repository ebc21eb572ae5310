import DayfiBackend.Found.Alone
import DayfiBackend.Four.SecureRoutes
import DayfiBackend.Four.TokenSeparation

/-!
# What a link can do

A token of `createWhatsappSecureToken` names a user, a purpose and, if it is given, an intent. A
request that carries it should change something only on the routes of that purpose, and only that
intent (`Confined`).

* `session_refused` — behind `requireFourSession` it is no session: a token of base64url over a
  JSON object begins with `e`, a session token with `fs_`.
* `call_eq` — behind the other guard the request runs as the user of the token until the token
  expires, and of purpose and intent nothing is left.
* `link_confined` — so the request is confined exactly when the route is one of the purpose and the
  intent is the one named, or the token is not accepted, or the route has nothing to change: it only
  reads, its body is refused, or its intent has no identifier.
-/

namespace DayfiBackend.Four.SecureRoutes

open DayfiBackend.Found DayfiBackend.Found.Keys DayfiBackend.Found.Base64 DayfiBackend.Found.Json

/-! ### What a link is for -/

/-- What a token permits: the routes of its purpose, and the intent it names or any. -/
def Permits (pf : Platform) (input : SecureTokenInput) : Route → Bool
  | .session _ => false
  | .setupPin => input.purpose = .setup
  | .getKycStatus | .verifyKycBvn => input.purpose = .kyc
  | .getIntent id | .authorizeIntent id =>
      input.purpose = .authorize &&
        (orNull input.intentId).all fun named => pf.uuid named = pf.uuid id

/-- What the tables say, apart from when a user was last seen and what time it is. -/
def FourState.content (S : FourState) : FourState :=
  { S with
    users := S.users.map fun u => { u with lastSeenAt := none }
    intents := { S.intents with time := 0 } }

/-- A program changes nothing, whatever the outside does. -/
def Quiet (S : FourState) {α : Type} (p : Prog RouteSql α) : Prop :=
  ∀ i os, (p.advance routes.machine i os S).2.content = S.content

/-- The link does only what it is for: the route is permitted, or the request changes nothing. -/
def Confined (pf : Platform) (input : SecureTokenInput) (r : Request) : Prop :=
  Permits pf input r.route = true ∨ ∀ S, Quiet S (r.call pf).run

/-- The route has nothing to change for the request. -/
def Request.Idle (pf : Platform) (r : Request) : Prop :=
  match r.route with
  | .session _ | .getKycStatus => True
  | .getIntent id => pf.uuid id = none
  | .authorizeIntent id => pf.uuid id = none ∨ (authorizeIntentBody r.body).isOk = false
  | .setupPin => ∀ pin confirmPin, setupPinBody r.body = .ok (pin, confirmPin) → pin ≠ confirmPin
  | .verifyKycBvn => (verifyKycBvnBody r.body).isOk = false

/-- The token is not accepted: it has no user, or it has expired. -/
def Refused (made : ℕ) (input : SecureTokenInput) (now : ℕ) : Prop :=
  (input.userId = "" ∨ expiry made input.ttlSeconds = 0) ∨ expiry made input.ttlSeconds < now / 1000

/-! ### The guards -/

section guards

variable {pf : Platform} {made : ℕ} {input : SecureTokenInput} {token : String} {r : Request}

/-- What is encoded is the brace of an object first. -/
theorem head_encodePayload (payload : Members) :
    ∃ rest, (encodePayload payload).toList = 'e' :: rest := by
  obtain ⟨bs, hbs⟩ : ∃ bs, utf8 (stringify payload) = UInt8.ofNat 123 :: bs := by
    refine ⟨(printMembers payload).flatMap String.utf8EncodeChar, ?_⟩
    unfold utf8 stringify
    rw [String.toList_ofList, List.flatMap_cons]
    rfl
  obtain ⟨cs, hcs⟩ : ∃ cs, (encode (utf8 (stringify payload))).map toUrl = 'e' :: cs := by
    rw [hbs]
    rcases bs with _ | ⟨b, _ | ⟨c, rest⟩⟩ <;> exact ⟨_, rfl⟩
  have hprefix : (encodePayload payload).toList <+: 'e' :: cs := by
    unfold encodePayload encodeUrl
    rw [String.toList_ofList, hcs, ← List.reverse_suffix, List.reverse_reverse]
    exact List.dropWhile_suffix _
  cases hlist : (encodePayload payload).toList with
  | nil =>
      have hempty : encodePayload payload ≠ "" := encodePayload_ne_empty
      exact absurd (String.toList_injective (by simpa using hlist)) hempty
  | cons c rest =>
      rw [hlist] at hprefix
      exact ⟨rest, by rw [(List.cons_prefix_cons.mp hprefix).1]⟩

/-- What is created is an encoded payload and its signature. -/
theorem created (h : createWhatsappSecureToken pf.toTokenPlatform made input = .ok token) :
    pf.signingSecret ≠ "" ∧
      token = encodePayload (input.payload made) ++ "." ++
        pf.signature (encodePayload (input.payload made)) := by
  unfold createWhatsappSecureToken signPayload at h
  dsimp only at h
  split_ifs at h with hsecret
  · cases h
  · exact ⟨hsecret, (Except.ok.inj h).symm⟩

/-- A link is not taken for a session. -/
theorem startsWith_token (h : createWhatsappSecureToken pf.toTokenPlatform made input = .ok token) :
    startsWith (trim token) "fs_" = false := by
  obtain ⟨-, rfl⟩ := created h
  obtain ⟨rest, hrest⟩ := head_encodePayload (input.payload made)
  have htrim : trim (encodePayload (input.payload made) ++ "." ++
        pf.signature (encodePayload (input.payload made))) =
      encodePayload (input.payload made) ++ "." ++
        pf.signature (encodePayload (input.payload made)) := trim_token
  rw [htrim]
  unfold startsWith
  rw [decide_eq_false_iff_not, String.toList_append, String.toList_append, hrest]
  intro hprefix
  exact absurd (List.cons_prefix_cons.mp hprefix).1 (by decide)

/-- A link is presented as a bearer token. -/
theorem bearerToken_of (h : createWhatsappSecureToken pf.toTokenPlatform made input = .ok token)
    (hauth : r.authorization = some ("Bearer " ++ token)) : r.bearerToken = some token := by
  obtain ⟨-, htoken⟩ := created h
  have htrim : trim token = token := by
    rw [htoken]
    exact trim_token
  have hlast : (pf.signature (encodePayload (input.payload made))).toList.getLast?.any
      (fun c => !isSpace c) = true := by
    rw [Option.any_eq_true]
    have hne : (pf.signature (encodePayload (input.payload made))).toList ≠ [] := fun hnil =>
      signature_ne_empty _ (String.toList_injective (by simpa using hnil))
    refine ⟨_, List.getLast?_eq_some_getLast hne, ?_⟩
    simpa using (encodeUrl_plain (List.getLast_mem hne)).2
  have hheader : trim ("Bearer " ++ token) = "Bearer " ++ token := by
    have hself := trim_eq_self (p := "Bearer ") (a := encodePayload (input.payload made) ++ ".")
      (by decide) hlast
    rw [htoken]
    simpa only [String.append_assoc] using hself
  have hne : token ≠ "" := by
    obtain ⟨rest, hrest⟩ := head_encodePayload (input.payload made)
    intro hempty
    have hlist := congrArg String.toList (htoken.symm.trans hempty)
    rw [String.toList_append, String.toList_append, hrest] at hlist
    cases hlist
  unfold Request.bearerToken
  rw [hauth, Option.getD_some, hheader]
  dsimp only
  have hsplit : ("Bearer " ++ token).toList = "Bearer ".toList ++ token.toList :=
    String.toList_append ..
  rw [hsplit, List.take_append_of_le_length (by decide), if_pos (by decide),
    List.drop_append_of_le_length (by decide)]
  have hdrop : List.drop 7 "Bearer ".toList = [] := by decide
  rw [hdrop, List.nil_append, String.ofList_toList, htrim, orNull_some hne]

/-- The reader of links, told no purpose. -/
theorem verify_created (h : createWhatsappSecureToken pf.toTokenPlatform made input = .ok token)
    (now : ℕ) : verifyWhatsappSecureToken pf.toTokenPlatform now token none =
      if input.userId = "" ∨ expiry made input.ttlSeconds = 0 then .error "invalid_payload"
      else if expiry made input.ttlSeconds < now / 1000 then .error "expired"
      else .ok input.token := by
  obtain ⟨hsecret, rfl⟩ := created h
  rw [verifySecure_carries hsecret (carries_token _ _), readSecure_payload]
  rfl

/-- Behind `requireFourSession` a link is refused, and nothing is stated. -/
theorem session_refused (h : createWhatsappSecureToken pf.toTokenPlatform made input = .ok token)
    (htoken : r.bearerToken = some token) :
    requireFourSession pf r = (throw .unauthorized : RouteCall FourAuthContext) := by
  have hnone : validateSessionToken pf token = (pure none : RouteCall (Option String)) := by
    unfold validateSessionToken
    rw [startsWith_token h]
    rfl
  unfold requireFourSession
  rw [htoken]
  dsimp only
  rw [hnone]
  rfl

/-- A request with a link that is not accepted is refused. -/
theorem call_refused (h : createWhatsappSecureToken pf.toTokenPlatform made input = .ok token)
    (htoken : r.bearerToken = some token)
    (hno : (∃ route, r.route = .session route) ∨ Refused made input r.now) :
    r.call pf = (throw .unauthorized : RouteCall Response) := by
  have hguard : r.guarded pf = (throw .unauthorized : RouteCall FourAuthContext) := by
    unfold Request.guarded
    split
    · exact session_refused h htoken
    · rename_i hroute
      have hrefused : Refused made input r.now := by
        rcases hno with ⟨route, hr⟩ | hrefused
        · exact absurd hr (hroute route)
        · exact hrefused
      obtain ⟨e, he⟩ : ∃ e, verifyWhatsappSecureToken pf.toTokenPlatform r.now token none =
          .error e := by
        rw [verify_created h]
        by_cases hbad : input.userId = "" ∨ expiry made input.ttlSeconds = 0
        · exact ⟨_, if_pos hbad⟩
        · exact ⟨_, by rw [if_neg hbad, if_pos (hrefused.resolve_left hbad)]⟩
      unfold requireFourSessionOrTelegramWebApp
      rw [htoken]
      dsimp only
      rw [he]
      exact session_refused h htoken
  unfold Request.call
  rw [hguard]
  rfl

/-- A request with a link that is accepted runs as the user of the link. -/
theorem call_eq (h : createWhatsappSecureToken pf.toTokenPlatform made input = .ok token)
    (htoken : r.bearerToken = some token) (hroute : ∀ route, r.route ≠ .session route)
    (haccepted : ¬ Refused made input r.now) :
    r.call pf = (touchLastSeen input.userId >>= fun _ =>
      pure ⟨input.userId, .whatsappSecure, some token, none⟩) >>= r.handle pf := by
  obtain ⟨hgood, hlate⟩ := not_or.mp haccepted
  have hverify : verifyWhatsappSecureToken pf.toTokenPlatform r.now token none =
      .ok input.token := by
    rw [verify_created h, if_neg hgood, if_neg hlate]
  have hguard : r.guarded pf = touchLastSeen input.userId >>= fun _ =>
      pure ⟨input.userId, .whatsappSecure, some token, none⟩ := by
    unfold Request.guarded
    split
    · rename_i route hr
      exact absurd hr (hroute route)
    · unfold requireFourSessionOrTelegramWebApp
      rw [htoken]
      dsimp only
      rw [hverify]
      rfl
  unfold Request.call
  rw [hguard]

end guards

/-! ### Routes that change nothing -/

/-- The statements on the accounts that change nothing but when a user was last seen. -/
def AccountSql.reads {β : Type} : AccountSql β → Bool
  | .touchLastSeen _ | .getUserById _ | .profile _ => true
  | _ => false

/-- A statement that changes nothing but when a user was last seen. -/
def Reads {β : Type} : RouteSql β → Prop
  | .account st => st.reads = true
  | .intent _ => False

section quiet

variable {S : FourState} {α β : Type}

theorem content_tick (n : ℕ) : (S.tick n).content = S.content := rfl

theorem content_touch (userId : String) (t : ℕ) :
    (S.write userId fun u => { u with lastSeenAt := some t }).content = S.content := by
  have hrows : (S.users.map fun u =>
      if u.userId = userId then { u with lastSeenAt := some t } else u).map
        (fun u => { u with lastSeenAt := none }) =
      S.users.map fun u => { u with lastSeenAt := none } := by
    rw [List.map_map]
    apply List.map_congr_left
    intro u _
    dsimp only [Function.comp_apply]
    split_ifs <;> rfl
  unfold FourState.content FourState.write
  dsimp only
  rw [hrows]

theorem content_run {st : RouteSql β} (h : Reads st) (o : Outside) :
    (st.run o S).2.content = S.content := by
  cases st with
  | intent st => exact h.elim
  | account st =>
      have hreads : st.reads = true := h
      cases st with
      | touchLastSeen userId => exact content_touch userId _
      | getUserById userId => rfl
      | profile userId => rfl
      | _ => cases hreads

/-- A program of such statements is quiet. -/
theorem quiet_of_only {p : Prog RouteSql α} (h : p.Only Reads) : Quiet S p := by
  intro i os
  induction os generalizing p S with
  | nil => rfl
  | cons o os ih =>
      cases p with
      | ret a => rfl
      | act st k =>
          cases o with
          | error e => exact ih (h.2 _)
          | ok o => exact (ih (h.2 _)).trans (content_run h.1 o)

theorem Quiet.of_only {p : RouteCall α} (h : Prog.OnlyE Reads p) : Quiet S p.run := by
  unfold Prog.OnlyE at h
  exact quiet_of_only h

theorem only_sql {st : AccountSql (Ans β)} (h : st.reads = true) : Prog.OnlyE Reads (sql st) := by
  unfold Prog.OnlyE sql Backend.call
  exact ⟨h, fun _ => trivial⟩

theorem only_touchLastSeen (userId : String) : Prog.OnlyE Reads (touchLastSeen userId) :=
  (only_sql rfl).tryCatch fun _ => Prog.OnlyE.pure _

theorem only_getKycStatus (pf : Platform) (userId : String) :
    Prog.OnlyE Reads (getKycStatus pf userId) := by
  refine Prog.OnlyE.bind ?_ fun _ => ?_
  · exact (only_sql rfl).bind fun _ => Prog.OnlyE.pure _
  · exact (only_sql rfl).bind fun _ => Prog.OnlyE.pure _

end quiet

/-! ### What a program does -/

/-- A program comes to a program and a state when it runs alone. -/
abbrev Does {α : Type} (S : FourState) (p q : Prog RouteSql α) (T : FourState) : Prop :=
  Reaches routes.machine (fun _ _ _ _ => True) 0 p S q T

section does

variable {S T U : FourState} {α β : Type}

theorem not_quiet {p q : Prog RouteSql α} (h : Does S p q T) (hne : T.content ≠ S.content) :
    ¬ Quiet S p := by
  intro hquiet
  obtain ⟨os, hos⟩ := h.advance
  have hsame := hquiet 0 os
  rw [hos] at hsame
  exact hne hsame

theorem does_sql {st : AccountSql (Ans β)} {b : β} (o : Outside)
    (h : st.act o (S.tick o.intents.elapsed) = (.ok b, T)) :
    Does S (sql st).run (Prog.ret (.ok b)) T :=
  .step (.ok o) trivial (congrArg some h) (.refl _ _)

/-- A statement of a call of the intents. -/
theorem does_intent {st : Intents.IntentSql (Intents.Ans β)} {b : β} (o : Outside)
    (h : (RouteSql.intent st).run o S = (.ok b, T)) :
    Does S (intentCall (Intents.sql st)).run (Prog.ret (.ok b)) T :=
  .step (.ok o) trivial (congrArg some h) (.refl _ _)

theorem does_touch (userId : String) (hS : S.write userId (fun u =>
    { u with lastSeenAt := some S.intents.time }) = S) :
    Does S (touchLastSeen userId).run (Prog.ret (.ok ())) S := by
  have hsql : Does S (sql (.touchLastSeen userId)).run (Prog.ret (.ok ())) S :=
    does_sql {} (congrArg (Prod.mk (Except.ok ())) hS)
  exact hsql.tryCatch_of _

/-- A program comes to a state. -/
def Comes {α : Type} (S : FourState) (p : Prog RouteSql α) (T : FourState) : Prop :=
  ∃ q, Does S p q T

theorem Comes.bind {p : Prog RouteSql α} (h : Comes S p T) (f : α → Prog RouteSql β) :
    Comes S (p >>= f) T := by
  obtain ⟨q, hq⟩ := h
  exact ⟨_, Reaches.bind hq f⟩

/-- After a first part that has answered. -/
theorem Comes.after {p : RouteCall α} {a : α} {f : α → RouteCall β}
    (hp : Does S p.run (Prog.ret (.ok a)) T) (hf : Comes T (f a).run U) :
    Comes S (p >>= f).run U := by
  obtain ⟨q, hq⟩ := hf
  exact ⟨q, (hp.bind_ok f).trans hq⟩

/-- The same in a call of the intents. -/
theorem Comes.afterIntent {p : Intents.IntentCall α} {a : α} {f : α → Intents.IntentCall β}
    (hp : Does S (intentCall p).run (Prog.ret (.ok a)) T)
    (hf : Comes T (intentCall (f a)).run U) : Comes S (intentCall (p >>= f)).run U := by
  unfold intentCall at *
  rw [embedCall_bind]
  exact Comes.after hp hf

/-- The first part of a call of the intents. -/
theorem Comes.bindIntent {p : Intents.IntentCall α} (h : Comes S (intentCall p).run T)
    (f : α → Intents.IntentCall β) : Comes S (intentCall (p >>= f)).run T := by
  unfold intentCall at *
  rw [embedCall_bind]
  exact h.bind _

/-- A row of an intent that a user has confirmed or is asked to. -/
def askedFor (userId : String) (id : ℕ) (status : Intents.IntentStatus) : Intents.Intent where
  id := id
  conversationId := ""
  userId := userId
  intent := .sendMoney
  status := status
  slots := []
  metadata := []
  expiresAt := 0
  asked := ⟨0, .sendMoney, []⟩

/-- The tables of a user with one intent. -/
def withIntent (userId : String) (pin : Option String) (id : ℕ) (status : Intents.IntentStatus) :
    FourState where
  users := [{ userId := userId, transactionPin := pin, lastSeenAt := some 0 }]
  intents := { intents := [askedFor userId id status] }

section intents

variable {userId : String} {pin : Option String} {n : ℕ} {status status' : Intents.IntentStatus}

theorem does_find : Does (withIntent userId pin n status)
    (intentCall (Intents.getIntentForUser userId n)).run
    (Prog.ret (.ok (some (askedFor userId n status)))) (withIntent userId pin n status) := by
  refine does_intent {} ?_
  simp [RouteSql.run, Intents.IntentSql.run, Intents.IntentSql.act, withIntent, Intents.Tables.tick,
    Intents.Tables.intentForUser, askedFor]

theorem does_update : Does (withIntent userId pin n status)
    (intentCall (Intents.updateIntent userId n status')).run
    (Prog.ret (.ok (some (askedFor userId n status')))) (withIntent userId pin n status') := by
  have hupdate : Does (withIntent userId pin n status)
      (intentCall (Intents.sql (.update userId n ⟨status', [], []⟩))).run
      (Prog.ret (.ok (askedFor userId n status'))) (withIntent userId pin n status') := by
    refine does_intent {} ?_
    simp [RouteSql.run, Intents.IntentSql.run, Intents.IntentSql.act, withIntent,
      Intents.Tables.tick, Intents.Tables.update, Intents.Tables.intentForUser, askedFor,
      Intents.Tables.IntentPatch.apply]
  unfold Intents.updateIntent
  unfold intentCall at *
  rw [embedCall_bind]
  refine (Reaches.bind_ok does_find _).trans ?_
  dsimp only
  rw [embedCall_bind]
  exact hupdate.bind_ok _

theorem touched_withIntent : (withIntent userId pin n status).write userId (fun u =>
    { u with lastSeenAt := some (withIntent userId pin n status).intents.time }) =
      withIntent userId pin n status := by
  simp [withIntent, FourState.write]

/-- The status of the intent is another one. -/
theorem content_withIntent (hne : status' ≠ status) :
    (withIntent userId pin n status').content ≠ (withIntent userId pin n status).content := by
  intro h
  have hrows := congrArg (fun S : FourState => S.intents.intents.map (·.status)) h
  simp [FourState.content, withIntent, askedFor] at hrows
  exact hne hrows

end intents

end does

/-! ### Routes that change something -/

/-- A request changes something: from tables in which its user has been seen just now. -/
def Changes (pf : Platform) (r : Request) (auth : FourAuthContext) : Prop :=
  ∃ S T, S.write auth.userId (fun u => { u with lastSeenAt := some S.intents.time }) = S ∧
    Comes S (r.handle pf auth).run T ∧ T.content ≠ S.content

section handlers

variable {pf : Platform} {r : Request} {auth : FourAuthContext} {id : String} {n : ℕ}

theorem digitsField_ok {body : List (String × BodyValue)} {key s : String} {low high : ℕ}
    (h : digitsField body key low high = .ok s) : isDigits low high s = true := by
  unfold digitsField at h
  split at h
  · rename_i d hd
    obtain rfl : d = s := Except.ok.inj h
    exact (Option.filter_eq_some_iff.mp hd).2
  · cases h

/-- What a schema has let through in steps. -/
theorem bind_ok {α β : Type} {x : Ans α} {f : α → Ans β} {b : β} (h : x >>= f = .ok b) :
    ∃ a, x = .ok a ∧ f a = .ok b := by
  cases x with
  | error e => cases h
  | ok a => exact ⟨a, rfl, h⟩

theorem Comes.changes {pin : Option String} {status status' : Intents.IntentStatus}
    (h : Comes (withIntent auth.userId pin n status) (r.handle pf auth).run
      (withIntent auth.userId pin n status')) (hne : status' ≠ status) : Changes pf r auth :=
  ⟨_, _, touched_withIntent, h, content_withIntent hne⟩

/-- The page of an intent promotes it. -/
theorem changes_getIntent (hroute : r.route = .getIntent id) (hid : pf.uuid id = some n) :
    Changes pf r auth := by
  have hpage : Comes (withIntent auth.userId none n .awaitingConfirmation)
      (intentCall (Intents.getIntentForMiniApp auth.userId n)).run
      (withIntent auth.userId none n .awaitingAuthorization) := by
    unfold Intents.getIntentForMiniApp
    refine Comes.afterIntent does_find ?_
    dsimp only
    rw [if_pos (by rfl)]
    exact Comes.bindIntent ⟨_, does_update⟩ _
  have hcomes : Comes (withIntent auth.userId none n .awaitingConfirmation)
      (r.handle pf auth).run (withIntent auth.userId none n .awaitingAuthorization) := by
    unfold Request.handle
    rw [hroute]
    dsimp only
    unfold intentId
    rw [hid]
    exact hpage.bind _
  exact hcomes.changes (by decide)

/-- A payment that is authorised with the PIN is processed. -/
theorem changes_authorizeIntent {pin : String} (hroute : r.route = .authorizeIntent id)
    (hid : pf.uuid id = some n) (hbody : authorizeIntentBody r.body = .ok pin) :
    Changes pf r auth := by
  have hpin : orNull (some pin) = some pin := by
    refine orNull_some fun hempty => ?_
    have hdigits := digitsField_ok hbody
    rw [hempty] at hdigits
    exact absurd hdigits (by decide)
  have hread : Does (withIntent auth.userId (some pin) n .awaitingAuthorization)
      (intentCall (Intents.sql (.transactionPin auth.userId))).run
      (Prog.ret (.ok (some pin))) (withIntent auth.userId (some pin) n .awaitingAuthorization) := by
    refine does_intent {} ?_
    simp [RouteSql.run, Intents.IntentSql.run, Intents.IntentSql.act, withIntent, pinOwner,
      Intents.Tables.tick, FourState.pin, FourState.row]
  have hverify : Does (withIntent auth.userId (some pin) n .awaitingAuthorization)
      (intentCall (Intents.verifyUserPin auth.userId pin)).run
      (Prog.ret (.ok true)) (withIntent auth.userId (some pin) n .awaitingAuthorization) := by
    refine does_intent {} ?_
    simp [RouteSql.run, Intents.IntentSql.run, Intents.IntentSql.act, withIntent, pinOwner,
      Intents.Tables.tick, FourState.pin, FourState.row, hpin]
  have hauthorize : Comes (withIntent auth.userId (some pin) n .awaitingAuthorization)
      (intentCall (Intents.authorizeIntentWithPin auth.userId n pin)).run
      (withIntent auth.userId (some pin) n .processing) := by
    unfold Intents.authorizeIntentWithPin
    refine Comes.afterIntent does_find ?_
    dsimp only
    rw [if_neg (by simp [askedFor]), if_neg (by simp [askedFor])]
    unfold Intents.authorize
    refine Comes.afterIntent hread ?_
    rw [hpin, if_neg (by simp)]
    refine Comes.afterIntent hverify ?_
    rw [if_neg (by simp)]
    exact Comes.bindIntent ⟨_, does_update⟩ _
  have hcomes : Comes (withIntent auth.userId (some pin) n .awaitingAuthorization)
      (r.handle pf auth).run (withIntent auth.userId (some pin) n .processing) := by
    unfold Request.handle
    rw [hroute]
    dsimp only
    rw [hbody]
    unfold intentId
    rw [hid]
    exact hauthorize.bind _
  exact hcomes.changes (by decide)

/-- A PIN is set. -/
theorem changes_setupPin {pin : String} (hroute : r.route = .setupPin)
    (hbody : setupPinBody r.body = .ok (pin, pin)) : Changes pf r auth := by
  have hdigits : isDigits 4 4 pin = true := by
    unfold setupPinBody at hbody
    obtain ⟨p, hp, hbody⟩ := bind_ok hbody
    obtain ⟨c, -, hbody⟩ := bind_ok hbody
    cases hbody
    exact digitsField_ok hp
  let S : FourState := { users := [{ userId := auth.userId, lastSeenAt := some 0 }] }
  let T : FourState :=
    { users := [{ userId := auth.userId, transactionPin := some pin, lastSeenAt := some 0 }] }
  have hread : Does S (sql (.getUserById auth.userId)).run
      (Prog.ret (.ok (some { userId := auth.userId, lastSeenAt := some 0 }))) S := by
    refine does_sql {} ?_
    simp [AccountSql.act, FourState.tick, Intents.Tables.tick, FourState.row, S]
  have hset : Does S (sql (.setTransactionPin auth.userId pin)).run (Prog.ret (.ok ())) T := by
    refine does_sql {} ?_
    simp [AccountSql.act, FourState.tick, Intents.Tables.tick, FourState.write, S, T]
  have hsetup : Comes S (setupTransactionPin auth.userId pin pin).run T := by
    unfold setupTransactionPin
    rw [if_neg (by simp), if_neg (by simp [hdigits])]
    refine Comes.after hread ?_
    dsimp only
    rw [if_neg (by simp [orNull])]
    exact Comes.bind ⟨_, hset⟩ _
  refine ⟨S, T, by simp [S, FourState.write], ?_, by simp [FourState.content, S, T]⟩
  unfold Request.handle
  rw [hroute]
  dsimp only
  rw [hbody]
  exact hsetup.bind _

/-- A row with names and a BVN. -/
def named (userId : String) (firstName lastName bvn : Option String) : Account where
  userId := userId
  firstName := firstName
  lastName := lastName
  bvn := bvn
  lastSeenAt := some 0

section named

variable {userId : String} {firstName lastName firstName' lastName' bvn bvn' : Option String}

theorem does_getUser : Does { users := [named userId firstName lastName bvn] }
    (sql (.getUserById userId)).run
    (Prog.ret (.ok (some (named userId firstName lastName bvn))))
    { users := [named userId firstName lastName bvn] } := by
  refine does_sql {} ?_
  simp [AccountSql.act, FourState.tick, Intents.Tables.tick, FourState.row, named]

theorem touched_named : ({ users := [named userId firstName lastName bvn] } : FourState).write
    userId (fun u => { u with lastSeenAt := some 0 }) =
      { users := [named userId firstName lastName bvn] } := by
  simp [named, FourState.write]

theorem content_named (hne : named userId firstName' lastName' bvn' ≠
      named userId firstName lastName bvn) :
    ({ users := [named userId firstName' lastName' bvn'] } : FourState).content ≠
      ({ users := [named userId firstName lastName bvn] } : FourState).content := by
  intro h
  have hrows := congrArg FourState.users h
  simp only [FourState.content, List.map_cons, List.map_nil, List.cons.injEq, and_true] at hrows
  simp only [named, Account.mk.injEq, true_and, and_true] at hrows
  obtain ⟨rfl, rfl, rfl⟩ := hrows
  exact hne rfl

theorem Comes.changes_named {pf : Platform} {r : Request} {auth : FourAuthContext}
    (h : Comes { users := [named auth.userId firstName lastName bvn] } (r.handle pf auth).run
      { users := [named auth.userId firstName' lastName' bvn'] })
    (hne : named auth.userId firstName' lastName' bvn' ≠ named auth.userId firstName lastName bvn) :
    Changes pf r auth :=
  ⟨_, _, touched_named, h, content_named hne⟩

/-- The names of a form are saved. -/
theorem does_saveNames {first last : String} (h : first ≠ "" ∨ last ≠ "") :
    Does { users := [named userId none none none] }
      (saveNames (named userId none none none) first last).run
      (Prog.ret (.ok (named userId (orNull (some first)) (orNull (some last)) none)))
      { users := [named userId (orNull (some first)) (orNull (some last)) none] } := by
  unfold saveNames
  rw [if_pos h]
  refine does_sql {} ?_
  simp [AccountSql.act, FourState.tick, Intents.Tables.tick, FourState.row, FourState.write,
    NamePatch.apply, named]

/-- The BVN of a user with names is saved. -/
theorem comes_verifyUserIdentity {pf : Platform} {digits : String} (htrim : trim digits = digits)
    (hdigits : isDigits 11 11 digits = true) :
    Comes { users := [named userId (some "Ada") (some "Obi") none] }
      (verifyUserIdentity pf userId digits "Ada" "Obi").run
      { users := [named userId (some "Ada") (some "Obi") (some digits)] } := by
  have hlookup : Does { users := [named userId (some "Ada") (some "Obi") none] }
      (sql (.initiateBvnLookup digits "Ada" "Obi")).run (Prog.ret (.ok ⟨true, false⟩))
      { users := [named userId (some "Ada") (some "Obi") none] } := does_sql {} rfl
  have hsave : Does { users := [named userId (some "Ada") (some "Obi") none] }
      (sql (.saveUserBvn userId digits)).run (Prog.ret (.ok ()))
      { users := [named userId (some "Ada") (some "Obi") (some digits)] } := by
    refine does_sql {} ?_
    simp [AccountSql.act, FourState.tick, Intents.Tables.tick, FourState.write, named]
  have hfirst : trim "Ada" = "Ada" := by decide
  have hlast : trim "Obi" = "Obi" := by decide
  unfold verifyUserIdentity
  dsimp only
  rw [htrim, hfirst, hlast, if_neg (by simp [hdigits]), if_neg (by decide)]
  refine Comes.after (a := ()) (Reaches.tryCatch_of (hlookup.bind_ok _) _) ?_
  exact Comes.bind ⟨_, hsave⟩ _

end named

/-- A BVN is verified, or the names that come with it are saved. -/
theorem changes_verifyKycBvn {form : BvnForm} (hroute : r.route = .verifyKycBvn)
    (hbody : verifyKycBvnBody r.body = .ok form) : Changes pf r auth := by
  have hdigits : isDigits 11 11 form.bvn = true := by
    unfold verifyKycBvnBody at hbody
    obtain ⟨bvn, hbvn, hbody⟩ := bind_ok hbody
    obtain ⟨firstName, -, hbody⟩ := bind_ok hbody
    obtain ⟨lastName, -, hbody⟩ := bind_ok hbody
    cases hbody
    exact digitsField_ok hbvn
  have hall : ∀ c ∈ form.bvn.toList, c.isDigit = true := by
    unfold isDigits at hdigits
    rw [Bool.and_eq_true, Bool.and_eq_true, List.all_eq_true] at hdigits
    exact hdigits.1.1
  have hbvn : String.ofList (form.bvn.toList.filter Char.isDigit) = form.bvn := by
    rw [List.filter_eq_self.mpr hall, String.ofList_toList]
  have htrim : trim form.bvn = form.bvn :=
    trim_eq_of_forall fun c hc => isSpace_of_isDigit (hall c hc)
  have hhandle : (r.handle pf auth) = verifyBvnFromFour pf auth.userId form >>= fun snapshot =>
      pure (.bvnVerified snapshot) := by
    unfold Request.handle
    rw [hroute]
    dsimp only
    rw [hbody]
    rfl
  obtain ⟨first, hfirst⟩ : ∃ first, first = trim ((orNull form.firstName).getD "") := ⟨_, rfl⟩
  obtain ⟨last, hlast⟩ : ∃ last, last = trim ((orNull form.lastName).getD "") := ⟨_, rfl⟩
  unfold verifyBvnFromFour at hhandle
  dsimp only at hhandle
  rw [hbvn, if_neg (by simp [hdigits]), ← hfirst, ← hlast] at hhandle
  by_cases hnames : first ≠ "" ∨ last ≠ ""
  · -- the names of the form are saved at once
    have hcomes : Comes { users := [named auth.userId none none none] } (r.handle pf auth).run
        { users := [named auth.userId (orNull (some first)) (orNull (some last)) none] } := by
      rw [hhandle]
      exact Comes.bind (Comes.after does_getUser (Comes.bind ⟨_, does_saveNames hnames⟩ _)) _
    refine hcomes.changes_named fun hsame => ?_
    simp only [named, Account.mk.injEq] at hsame
    rcases hnames with hne | hne
    · simp [orNull_some hne] at hsame
    · simp [orNull_some hne] at hsame
  · -- the names of the account are used
    obtain ⟨hfirst', hlast'⟩ : first = "" ∧ last = "" := by simpa using hnames
    have hcomes : Comes { users := [named auth.userId (some "Ada") (some "Obi") none] }
        (r.handle pf auth).run
        { users := [named auth.userId (some "Ada") (some "Obi") (some form.bvn)] } := by
      rw [hhandle]
      refine Comes.bind (Comes.after does_getUser ?_) _
      rw [hfirst', hlast']
      have hkeep : Does { users := [named auth.userId (some "Ada") (some "Obi") none] }
          (saveNames (named auth.userId (some "Ada") (some "Obi") none) "" "").run
          (Prog.ret (.ok (named auth.userId (some "Ada") (some "Obi") none)))
          { users := [named auth.userId (some "Ada") (some "Obi") none] } := .refl _ _
      refine Comes.after hkeep ?_
      have hada : orDefault (some "") (trim ((named auth.userId (some "Ada") (some "Obi")
          none).firstName.getD "")) = "Ada" := by
        rw [named, Option.getD_some]
        decide
      have hobi : orDefault (some "") (trim ((named auth.userId (some "Ada") (some "Obi")
          none).lastName.getD "")) = "Obi" := by
        rw [named, Option.getD_some]
        decide
      rw [hada, hobi, if_neg (by decide)]
      exact comes_verifyUserIdentity htrim hdigits
    refine hcomes.changes_named fun hsame => ?_
    simp [named] at hsame

end handlers

/-! ### The limits -/

section limits

variable {pf : Platform} {made : ℕ} {input : SecureTokenInput} {token : String} {r : Request}

theorem only_checked_error {α β : Type} {body : Ans α} (h : body.isOk = false)
    (f : α → RouteCall β) : Prog.OnlyE Reads (checked body >>= f) := by
  cases body with
  | ok a => cases h
  | error e => exact Prog.OnlyE.throw e

theorem only_intentId_none {β : Type} {id : String} (h : pf.uuid id = none)
    (f : ℕ → RouteCall β) : Prog.OnlyE Reads (intentId pf id >>= f) := by
  unfold intentId
  rw [h]
  exact Prog.OnlyE.throw _

/-- A route that is idle only reads. -/
theorem only_handle (hidle : r.Idle pf) (hroute : ∀ route, r.route ≠ .session route)
    (auth : FourAuthContext) : Prog.OnlyE Reads (r.handle pf auth) := by
  unfold Request.Idle at hidle
  unfold Request.handle
  cases hr : r.route with
  | session route => exact absurd hr (hroute route)
  | getIntent id =>
      rw [hr] at hidle
      exact only_intentId_none hidle _
  | authorizeIntent id =>
      rw [hr] at hidle
      rcases hidle with hid | hbody
      · refine Prog.OnlyE.bind ?_ fun pin => only_intentId_none hid _
        cases authorizeIntentBody r.body with
        | error e => exact Prog.OnlyE.throw e
        | ok pin => exact Prog.OnlyE.pure pin
      · exact only_checked_error hbody _
  | setupPin =>
      rw [hr] at hidle
      dsimp only at hidle ⊢
      cases hbody : setupPinBody r.body with
      | error e => exact Prog.OnlyE.throw e
      | ok pins =>
          have hne : pins.1 ≠ pins.2 := hidle pins.1 pins.2 hbody
          show Prog.OnlyE Reads (setupTransactionPin auth.userId pins.1 pins.2 >>= _)
          unfold setupTransactionPin
          rw [if_pos hne]
          exact Prog.OnlyE.throw _
  | getKycStatus => exact only_getKycStatus pf auth.userId
  | verifyKycBvn =>
      rw [hr] at hidle
      exact only_checked_error hidle _

/-- What changes something behind the guard changes it for a link that is accepted. -/
theorem not_quiet_call (h : createWhatsappSecureToken pf.toTokenPlatform made input = .ok token)
    (htoken : r.bearerToken = some token) (hroute : ∀ route, r.route ≠ .session route)
    (haccepted : ¬ Refused made input r.now)
    (hchanges : ∀ auth : FourAuthContext, auth.userId = input.userId → Changes pf r auth) :
    ∃ S, ¬ Quiet S (r.call pf).run := by
  obtain ⟨S, T, hseen, ⟨q, hq⟩, hne⟩ :=
    hchanges ⟨input.userId, .whatsappSecure, some token, none⟩ rfl
  have hcall : Does S (r.call pf).run q T := by
    rw [call_eq h htoken hroute haccepted]
    exact (((does_touch input.userId hseen).bind_ok _).bind_ok _).trans hq
  exact ⟨S, not_quiet hcall hne⟩

/-- A route that has something to change changes it for a link that is accepted. -/
theorem changes_of_not_idle (hidle : ¬ r.Idle pf) (auth : FourAuthContext) :
    Changes pf r auth := by
  unfold Request.Idle at hidle
  cases hr : r.route with
  | session route => exact absurd trivial (by rw [hr] at hidle; exact hidle)
  | getKycStatus => exact absurd trivial (by rw [hr] at hidle; exact hidle)
  | getIntent id =>
      rw [hr] at hidle
      obtain ⟨n, hid⟩ := Option.ne_none_iff_exists'.mp hidle
      exact changes_getIntent hr hid
  | authorizeIntent id =>
      rw [hr] at hidle
      obtain ⟨hid, hbody⟩ := not_or.mp hidle
      obtain ⟨n, hid⟩ := Option.ne_none_iff_exists'.mp hid
      cases hpin : authorizeIntentBody r.body with
      | error e => exact absurd (by rw [hpin]; rfl) hbody
      | ok pin => exact changes_authorizeIntent hr hid hpin
  | setupPin =>
      rw [hr] at hidle
      simp only [not_forall, not_not] at hidle
      obtain ⟨pin, confirmPin, hbody, rfl⟩ := hidle
      exact changes_setupPin hr hbody
  | verifyKycBvn =>
      rw [hr] at hidle
      cases hbody : verifyKycBvnBody r.body with
      | error e => exact absurd (by rw [hbody]; rfl) hidle
      | ok form => exact changes_verifyKycBvn hr hbody

/-- **A link does only what it is for** exactly when the route is one that it permits, or it is not
accepted, or the route has nothing to change. -/
theorem link_confined
    (h : createWhatsappSecureToken pf.toTokenPlatform made input = .ok token)
    (htoken : r.bearerToken = some token) : Confined pf input r ↔
      Permits pf input r.route = true ∨ Refused made input r.now ∨ r.Idle pf := by
  constructor
  · intro hconfined
    rcases hconfined with hpermits | hquiet
    · exact .inl hpermits
    · by_contra hno
      obtain ⟨-, hno⟩ := not_or.mp hno
      obtain ⟨haccepted, hidle⟩ := not_or.mp hno
      have hroute : ∀ route, r.route ≠ .session route := by
        intro route hr
        apply hidle
        unfold Request.Idle
        rw [hr]
        trivial
      obtain ⟨S, hS⟩ := not_quiet_call h htoken hroute haccepted fun auth _ =>
        changes_of_not_idle hidle auth
      exact hS (hquiet S)
  · intro hcond
    rcases hcond with hpermits | hcond
    · exact .inl hpermits
    · right
      intro S
      by_cases hno : (∃ route, r.route = .session route) ∨ Refused made input r.now
      · rw [call_refused h htoken hno]
        exact Quiet.of_only (Prog.OnlyE.throw _)
      · obtain ⟨hroute, haccepted⟩ := not_or.mp hno
        have hroute' : ∀ route, r.route ≠ .session route := fun route hr => hroute ⟨route, hr⟩
        rw [call_eq h htoken hroute' haccepted]
        refine Quiet.of_only ?_
        exact Prog.OnlyE.bind ((only_touchLastSeen _).bind fun _ => Prog.OnlyE.pure _)
          (only_handle (hcond.resolve_left haccepted) hroute')

end limits

/-! ### A link for a PIN -/

/-- A platform with two intents. -/
def demo : Platform where
  toTokenPlatform := demoPlatform
  uuid s := if s = "0" then some 0 else if s = "1" then some 1 else none
  hashSessionToken := id
  webAppStubMode := false
  validateTelegramWebAppInitData _ := none
  handler _ _ _ := pure (.session "")

/-- A link for setting up a PIN, that names an intent. -/
def pinLink : SecureTokenInput where
  userId := "ada"
  purpose := .setup
  intentId := some "1"

/-- Its token. -/
def pinToken : String :=
  encodePayload (pinLink.payload 0) ++ "." ++ demo.signature (encodePayload (pinLink.payload 0))

theorem pinToken_created :
    createWhatsappSecureToken demo.toTokenPlatform 0 pinLink = .ok pinToken := by
  have hsecret : demo.signingSecret ≠ "" := by decide
  simp [createWhatsappSecureToken, signPayload, hsecret, Except.map, pinToken]

/-- A request with the token. -/
def withPinLink (route : Route) (body : List (String × BodyValue)) : Request where
  route := route
  authorization := some ("Bearer " ++ pinToken)
  body := body
  now := 0

theorem withPinLink_bearer (route : Route) (body : List (String × BodyValue)) :
    (withPinLink route body).bearerToken = some pinToken := bearerToken_of pinToken_created rfl

/-- The page it opens is one that it permits. -/
theorem pinLink_confined : Confined demo pinLink
    (withPinLink .setupPin [("pin", .text "1234"), ("confirmPin", .text "1234")]) :=
  (link_confined pinToken_created (withPinLink_bearer _ _)).mpr (.inl rfl)

/-- A payment that its user has confirmed, of an intent that the link does not name. -/
def confirmed : FourState where
  users := [{ userId := "ada", transactionPin := some "1234" }]
  intents := { intents := [{ askedFor "ada" 0 .awaitingAuthorization with
    slots := [("amount", .number 5000), ("recipient", .recipient Intents.payee)] }] }

/-- The payment, authorised with the link. -/
def paying : Request := withPinLink (.authorizeIntent "0") [("pin", .text "1234")]

/-- The link for a PIN authorises the payment of another intent. -/
theorem pinLink_pays :
    createWhatsappSecureToken demo.toTokenPlatform 0 pinLink = .ok pinToken ∧
    paying.bearerToken = some pinToken ∧ Permits demo pinLink paying.route = false ∧
    ((paying.call demo).run.advance routes.machine 0 (List.replicate 9 (.ok {}))
      confirmed).2.intents.executed.map (fun e => (e.payment, e.moved)) =
        [(.bank (.number 5000) Intents.payee, true)] ∧
    ¬ Confined demo pinLink paying := by
  have hbearer : paying.bearerToken = some pinToken := withPinLink_bearer _ _
  have haccepted : ¬ Refused 0 pinLink paying.now := by
    unfold Refused
    decide
  have hidle : ¬ paying.Idle demo := by
    show ¬ (demo.uuid "0" = none ∨ (authorizeIntentBody paying.body).isOk = false)
    decide
  refine ⟨pinToken_created, hbearer, by decide, ?_, fun h => ?_⟩
  · rw [call_eq pinToken_created hbearer (fun _ => by simp [paying, withPinLink]) haccepted]
    decide +kernel
  · rcases (link_confined pinToken_created hbearer).mp h with hpermits | hrefused | hreads
    · exact absurd hpermits (by decide)
    · exact haccepted hrefused
    · exact hidle hreads

end DayfiBackend.Four.SecureRoutes
