import DayfiBackend.Four.Sessions

/-!
# The life of a session

A session begins with a sign-in and ends once, by signing out or by its time. The statements keep
what tells sessions apart and take no end back (`Later`), so what was true of a session when a
request saw it is true of it at the end of the run; `sessions_end` is the result.
-/

namespace DayfiBackend.Four.Sessions

open DayfiBackend.Found DayfiBackend.Found.Keys DayfiBackend.Found.Prog

/-! ### Statements -/

/-- What no statement undoes. -/
structure Later (s t : Tables) : Prop where
  now : s.now ≤ t.now
  sessions : ∀ k ∈ s.sessions, ∃ k' ∈ t.sessions, k'.lasting = k.lasting ∧
    (k.revokedAt.isSome → k'.revokedAt.isSome)

section statements

variable {cfg : Settings} {s t u : Tables} {tokenHash : String} {k k' : SessionRow}

/-- The fields that last. -/
theorem lasting_fields (h : k'.lasting = k.lasting) : k'.id = k.id ∧ k'.userId = k.userId ∧
    k'.tokenHash = k.tokenHash ∧ k'.expiresAt = k.expiresAt := by
  have hid : k'.lasting.id = k.lasting.id := by rw [h]
  have huser : k'.lasting.userId = k.lasting.userId := by rw [h]
  have hhash : k'.lasting.tokenHash = k.lasting.tokenHash := by rw [h]
  have hexpires : k'.lasting.expiresAt = k.lasting.expiresAt := by rw [h]
  exact ⟨hid, huser, hhash, hexpires⟩

theorem Later.refl (s : Tables) : Later s s := ⟨le_rfl, fun k hk => ⟨k, hk, rfl, id⟩⟩

theorem Later.trans (h : Later s t) (h' : Later t u) : Later s u := by
  refine ⟨h.now.trans h'.now, fun k hk => ?_⟩
  obtain ⟨k', hk', heq, hrevoked⟩ := h.sessions k hk
  obtain ⟨k'', hk'', heq', hrevoked'⟩ := h'.sessions k' hk'
  exact ⟨k'', hk'', heq'.trans heq, hrevoked' ∘ hrevoked⟩

/-- A session that has ended stays so. -/
theorem Ended.later (he : Ended tokenHash s) (hl : Later s t) : Ended tokenHash t := by
  obtain ⟨k, hk, hhash, hend⟩ := he
  obtain ⟨k', hk', heq, hrevoked⟩ := hl.sessions k hk
  obtain ⟨-, -, hhash', hexpires⟩ := lasting_fields heq
  refine ⟨k', hk', hhash'.trans hhash, ?_⟩
  rcases hend with h | h
  · exact .inl (hrevoked h)
  · exact .inr (hexpires ▸ h.trans hl.now)

end statements

/-- The statement issues a session to the user. -/
def SessionSql.Issues {β : Type} (st : SessionSql β) (userId : String) : Prop :=
  match st with
  | .insertSession userId' _ => userId' = userId
  | _ => False

/-- What a statement leaves: the sessions there were, and at most one that it issues. -/
structure Leaves {β : Type} (st : SessionSql β) (s t : Tables) : Prop where
  later : Later s t
  back : ∀ k ∈ t.sessions, (∃ k' ∈ s.sessions, k'.lasting = k.lasting) ∨ st.Issues k.userId

section statements

variable {s t : Tables}

theorem Leaves.same {β : Type} {st : SessionSql β} (s : Tables) : Leaves st s s :=
  ⟨.refl s, fun k hk => .inl ⟨k, hk, rfl⟩⟩

/-- Rows that are updated keep what lasts. -/
theorem Leaves.updated {β : Type} {st : SessionSql β} (p : SessionRow → Bool)
    {f : SessionRow → SessionRow} (hf : ∀ k, (f k).tokenHash = k.tokenHash)
    (hlasting : ∀ k, (f k).lasting = k.lasting)
    (hrevoked : ∀ k, k.revokedAt.isSome → (f k).revokedAt.isSome) :
    Leaves st s (s.update p f hf) := by
  have hrow : ∀ k, (if p k then f k else k).lasting = k.lasting := by
    intro k
    split_ifs
    · exact hlasting k
    · rfl
  refine ⟨⟨le_rfl, fun k hk => ⟨_, List.mem_map.mpr ⟨k, hk, rfl⟩, hrow k, fun h => ?_⟩⟩,
    fun k hk => ?_⟩
  · split_ifs
    · exact hrevoked k h
    · exact h
  · obtain ⟨k', hk', rfl⟩ := List.mem_map.mp hk
    exact .inl ⟨k', hk', (hrow k').symm⟩

theorem act_leaves (cfg : Settings) {β : Type} (st : SessionSql β) (o : Outside) (s : Tables) :
    Leaves st s (st.act cfg o s).2 := by
  cases st with
  | insertSession userId tokenHash =>
      unfold SessionSql.act Tables.insertSession
      dsimp only
      split_ifs
      · exact .same s
      · refine ⟨⟨le_rfl, fun k hk => ⟨k, List.mem_cons_of_mem _ hk, rfl, id⟩⟩, fun k hk => ?_⟩
        rcases List.mem_cons.mp hk with rfl | hk
        · exact .inr rfl
        · exact .inl ⟨k, hk, rfl⟩
  | useSession tokenHash =>
      exact .updated _ (f := fun k => { k with lastUsedAt := s.now }) (fun _ => rfl)
        (fun _ => rfl) fun _ h => h
  | revokeSession tokenHash =>
      exact .updated _ (f := fun k => { k with revokedAt := some s.now }) (fun _ => rfl)
        (fun _ => rfl) fun _ _ => rfl
  | _ => exact .same s

/-- Time that passes takes nothing back. -/
theorem run_leaves (cfg : Settings) {β : Type} (st : SessionSql β) (o : Outside) (s : Tables) :
    Leaves st s (st.run cfg o s).2 := by
  have hl : Later s { s with now := s.now + o.elapsed } :=
    ⟨Nat.le_add_right _ _, fun k hk => ⟨k, hk, rfl, id⟩⟩
  have h := act_leaves cfg st o { s with now := s.now + o.elapsed }
  exact ⟨hl.trans h.later, h.back⟩

end statements

/-! ### The discipline -/

/-- Sessions are issued by sign-ins, and end for good. -/
def sessionDiscipline (T : Tables) (requests : List Request) :
    Discipline SessionSql (Except SessionError Outside) Tables where
  inv s := ∀ k ∈ s.sessions, Rooted T requests k
  rely _ := Later
  cond _ _ _ _ := True
  good _ _ _ s _ t := Later s t
  rely_refl _ := Later.refl
  rely_trans _ _ _ _ := Later.trans

section discipline

variable {cfg : Settings} {T : Tables} {requests : List Request} {i : ℕ}

/-- A session that is rooted stays so. -/
theorem Rooted.lasting {k k' : SessionRow} (h : Rooted T requests k)
    (heq : k'.lasting = k.lasting) : Rooted T requests k' := by
  rcases h with ⟨k₀, hk₀, h⟩ | h
  · exact .inl ⟨k₀, hk₀, h.trans heq.symm⟩
  · exact .inr ((lasting_fields heq).2.1 ▸ h)

/-- The rule of one statement. -/
theorem triple_sql {β : Type} {st : SessionSql (Ans β)} {P : Tables → Prop}
    {Q : β → Tables → Prop} (hst : ∀ e, st.fail e = .error e)
    (hstable : ∀ s t, P s → Later s t → P t)
    (hissues : ∀ userId, st.Issues userId → .signIn userId ∈ requests)
    (hans : ∀ s o b, P s → (∀ k ∈ s.sessions, Rooted T requests k) →
      (st.run cfg o s).1 = .ok b → Q b (st.run cfg o s).2) :
    Triple (sessions cfg).machine (sessionDiscipline T requests) i P (sql st)
      (fun b s => P s ∧ Q b s) fun _ _ => True := by
  refine Backend.triple_call hst hstable (fun s e _ _ => ⟨.refl s, trivial⟩)
    fun s o hs hinv _ => ?_
  have hl := run_leaves cfg st o s
  refine ⟨hl.later, fun k hk => ?_, fun j _ => hl.later, ?_⟩
  · rcases hl.back k hk with ⟨k', hk', heq⟩ | hi
    · exact (hinv k' hk').lasting heq.symm
    · exact .inr (hissues _ hi)
  · have hrun : (sessions cfg).run i st o s = st.run cfg o s := rfl
    rw [hrun]
    cases hb : (st.run cfg o s).1 with
    | ok b => exact ⟨hstable s _ hs hl.later, hans s o b hs hinv hb⟩
    | error e => trivial

/-- Who is let in, and by which session. -/
def LetIn (cfg : Settings) (T : Tables) (requests : List Request) (r : SecureRoutes.Request)
    (a : Admitted) (s : Tables) : Prop :=
  r.bearerToken = some a.token ∧ ∃ k ∈ s.sessions, k.id = a.sessionId ∧ k.userId = a.userId ∧
    k.tokenHash = cfg.hashSessionToken (trim a.token) ∧ Rooted T requests k

theorem LetIn.later {r : SecureRoutes.Request} {a : Admitted} {s t : Tables}
    (h : LetIn cfg T requests r a s) (hl : Later s t) : LetIn cfg T requests r a t := by
  obtain ⟨htoken, k, hk, hid, huser, hhash, hroot⟩ := h
  obtain ⟨k', hk', heq, -⟩ := hl.sessions k hk
  obtain ⟨hid', huser', hhash', -⟩ := lasting_fields heq
  exact ⟨htoken, k', hk', hid'.trans hid, huser'.trans huser, hhash'.trans hhash,
    hroot.lasting heq⟩

/-- The session that a token is taken for. -/
def TokenOf (cfg : Settings) (T : Tables) (requests : List Request) (token : String)
    (found : Option SessionRow) (s : Tables) : Prop :=
  ∀ row, found = some row → ∃ k ∈ s.sessions, k.id = row.id ∧ k.userId = row.userId ∧
    k.tokenHash = cfg.hashSessionToken (trim token) ∧ Rooted T requests k

theorem TokenOf.later {token : String} {found : Option SessionRow} {s t : Tables}
    (h : TokenOf cfg T requests token found s) (hl : Later s t) :
    TokenOf cfg T requests token found t := by
  intro row hrow
  obtain ⟨k, hk, hid, huser, hhash, hroot⟩ := h row hrow
  obtain ⟨k', hk', heq, -⟩ := hl.sessions k hk
  obtain ⟨hid', huser', hhash', -⟩ := lasting_fields heq
  exact ⟨k', hk', hid'.trans hid, huser'.trans huser, hhash'.trans hhash, hroot.lasting heq⟩

theorem triple_validateSessionToken (token : String) :
    Triple (sessions cfg).machine (sessionDiscipline T requests) i (fun _ => True)
      (validateSessionToken cfg token) (fun found s => TokenOf cfg T requests token found s)
      fun _ _ => True := by
  unfold validateSessionToken
  refine Triple.ite (fun _ => ?_) fun _ => Triple.pure fun _ _ row h => by cases h
  refine (triple_sql (Q := fun found s => TokenOf cfg T requests token found s) (fun _ => rfl)
    (fun _ _ _ _ => trivial) (fun _ h => by cases h)
    fun s o found _ hinv hfound row hrow => ?_).mono (fun _ h => h) (fun _ _ h => h.2)
    fun _ _ h => h
  obtain rfl := Except.ok.inj hfound
  have hlive := List.find?_some hrow
  unfold Tables.live at hlive
  simp only [Bool.and_eq_true, decide_eq_true_eq] at hlive
  have hmem : row ∈ s.sessions := List.mem_of_find?_eq_some hrow
  obtain ⟨k', hk', heq, -⟩ := (run_leaves cfg
    (.useSession (cfg.hashSessionToken (trim token))) o s).later.sessions row hmem
  obtain ⟨hid', huser', hhash', -⟩ := lasting_fields heq
  exact ⟨k', hk', hid', huser', hhash'.trans hlive.1.1, (hinv row hmem).lasting heq⟩

theorem triple_requireFourSession (r : SecureRoutes.Request) :
    Triple (sessions cfg).machine (sessionDiscipline T requests) i (fun _ => True)
      (requireFourSession cfg r) (fun a s => LetIn cfg T requests r a s) fun _ _ => True := by
  unfold requireFourSession
  cases htoken : r.bearerToken with
  | none => exact Triple.throw fun _ _ => trivial
  | some token =>
      refine Triple.bind (Triple.tryCatch (triple_validateSessionToken token) fun _ =>
        Triple.throw fun _ _ => trivial) fun found => ?_
      cases found with
      | none => exact Triple.throw fun _ _ => trivial
      | some row =>
          have htouch : Triple (sessions cfg).machine (sessionDiscipline T requests) i
              (fun s => TokenOf cfg T requests token (some row) s)
              (sql (.touchLastSeen row.userId))
              (fun _ s => TokenOf cfg T requests token (some row) s)
              fun _ s => TokenOf cfg T requests token (some row) s :=
            Backend.triple_call (fun _ => rfl) (fun _ _ h hl => h.later hl)
              (fun s e hs _ => ⟨.refl s, hs⟩) fun s o hs hinv _ => by
                have hl := (run_leaves cfg (.touchLastSeen row.userId) o s).later
                exact ⟨hl, hinv, fun _ _ => hl, hs.later hl⟩
          refine Triple.bind (Triple.tryCatch htouch fun _ => Triple.pure fun _ h => h)
            fun _ => Triple.pure fun s hs => ?_
          exact ⟨htoken, hs row rfl⟩

/-- Signing out ends the session it came in with. -/
theorem triple_logout (r : SecureRoutes.Request) :
    Triple (sessions cfg).machine (sessionDiscipline T requests) i (fun _ => True)
      (logout cfg r) (fun a s => LetIn cfg T requests r a s ∧
        Ended (cfg.hashSessionToken (trim a.token)) s) fun _ _ => True := by
  unfold logout
  refine Triple.bind (triple_requireFourSession r) fun a => ?_
  refine Triple.bind (triple_sql (Q := fun _ s => Ended (cfg.hashSessionToken (trim a.token)) s)
    (fun _ => rfl) (fun _ _ h hl => h.later hl) (fun _ h => by cases h)
    fun s o _ hs _ _ => ?_) fun _ => Triple.pure fun s hs => hs
  obtain ⟨-, k, hk, -, -, hhash, -⟩ := hs
  refine ⟨_, List.mem_map.mpr ⟨k, hk, rfl⟩, ?_⟩
  split_ifs with hrevoked
  · exact ⟨hhash, .inl rfl⟩
  · refine ⟨hhash, .inl ?_⟩
    simpa [hhash, Option.isSome_iff_ne_none] using hrevoked

theorem triple_createSession {userId : String} (h : .signIn userId ∈ requests) :
    Triple (sessions cfg).machine (sessionDiscipline T requests) i (fun _ => True)
      (createSession cfg userId) (fun _ _ => True) fun _ _ => True := by
  unfold createSession
  refine Triple.bind (triple_sql (Q := fun _ _ => True) (fun _ => rfl) (fun _ _ _ _ => trivial)
    (fun _ h => by cases h) fun _ _ _ _ _ _ => trivial) fun body => ?_
  refine Triple.bind ((triple_sql (P := fun _ => True) (Q := fun _ _ => True) (fun _ => rfl)
    (fun _ _ _ _ => trivial) (fun userId' h' => ?_) fun _ _ _ _ _ _ => trivial).mono
    (fun _ _ => trivial) (fun _ _ h => h) fun _ _ h => h) fun _ => Triple.pure fun _ _ => trivial
  exact (show userId = userId' from h') ▸ h

end discipline

/-! ### Once a session has ended -/

/-- The session of a hash has ended. -/
def endedDiscipline (tokenHash : String) :
    Discipline SessionSql (Except SessionError Outside) Tables where
  inv := Ended tokenHash
  rely _ := Later
  cond _ _ _ _ := True
  good _ _ _ s _ t := Later s t
  rely_refl _ := Later.refl
  rely_trans _ _ _ _ := Later.trans

section ended

variable {cfg : Settings} {tokenHash : String} {i : ℕ}

theorem ended_open (cfg : Settings) (tokenHash : String) :
    (endedDiscipline tokenHash).Open (sessions cfg).machine := by
  constructor
  intro β i st o s b t hinv _ he
  rcases Backend.exec_cases he with ⟨e, -, -, rfl⟩ | ⟨o', -, -, rfl⟩
  · exact ⟨.refl t, hinv, fun _ => .refl t⟩
  · have hl : Later s ((sessions cfg).run i st o' s).2 := (run_leaves _ st o' s).later
    exact ⟨hl, Ended.later hinv hl, fun _ => hl⟩

/-- A session that has ended is not found by its hash. -/
theorem find_ended {s : Tables} (he : Ended tokenHash s) :
    s.sessions.find? (s.live tokenHash) = none := by
  obtain ⟨k, hk, hhash, hend⟩ := he
  refine List.find?_eq_none.mpr fun k' hk' hlive => ?_
  unfold Tables.live at hlive
  simp only [Bool.and_eq_true, decide_eq_true_eq, Option.isNone_iff_eq_none] at hlive
  obtain ⟨⟨hhash', hnone⟩, hlt⟩ := hlive
  obtain rfl := List.inj_on_of_nodup_map s.uniqueHashes hk' hk (hhash'.trans hhash.symm)
  rcases hend with h | h
  · rw [hnone] at h
    exact absurd h Bool.false_ne_true
  · exact absurd hlt (not_lt.mpr h)

/-- Nobody is let in with the token. -/
theorem triple_require_ended {r : SecureRoutes.Request} {token : String}
    (htoken : r.bearerToken = some token) :
    Triple (sessions cfg).machine (endedDiscipline (cfg.hashSessionToken (trim token))) i
      (fun _ => True) (requireFourSession cfg r) (fun _ _ => False) fun _ _ => True := by
  have hvalidate : Triple (sessions cfg).machine
      (endedDiscipline (cfg.hashSessionToken (trim token))) i (fun _ => True)
      (validateSessionToken cfg token) (fun found _ => found = none) fun _ _ => True := by
    unfold validateSessionToken
    refine Triple.ite (fun _ => ?_) fun _ => Triple.pure fun _ _ => rfl
    refine Backend.triple_call (fun _ => rfl) (fun _ _ _ _ => trivial)
      (fun s e _ _ => ⟨.refl s, trivial⟩) fun s o _ hinv _ => ?_
    have hl := (run_leaves cfg
      (.useSession (cfg.hashSessionToken (trim token))) o s).later
    refine ⟨hl, Ended.later hinv hl, fun _ _ => hl, ?_⟩
    have hpassed : Later s { s with now := s.now + o.elapsed } :=
      ⟨Nat.le_add_right _ _, fun k hk => ⟨k, hk, rfl, id⟩⟩
    exact find_ended (Ended.later hinv hpassed)
  unfold requireFourSession
  rw [htoken]
  refine Triple.bind (Triple.tryCatch hvalidate fun _ => Triple.throw fun _ _ => trivial)
    fun found => ?_
  cases found with
  | none => exact Triple.throw fun _ _ => trivial
  | some row => exact fun s h => absurd h (Option.some_ne_none row)

/-- A request that begins is not let in with it. -/
theorem wp_request_ended {q : Request} {r : SecureRoutes.Request} {token : String}
    (hq : q.guarded = some r) (htoken : r.bearerToken = some token) (s : Tables) :
    wp (sessions cfg).machine (endedDiscipline (cfg.hashSessionToken (trim token))) i
      (q.program cfg) (fun outcome _ => ∀ a, outcome ≠ .guarded (.ok a)) s := by
  have hends : ∀ p : SessionCall Admitted, Triple (sessions cfg).machine
      (endedDiscipline (cfg.hashSessionToken (trim token))) i (fun _ => True) p
      (fun _ _ => False) (fun _ _ => True) →
      wp (sessions cfg).machine (endedDiscipline (cfg.hashSessionToken (trim token))) i
        (p.run >>= fun a => pure (Outcome.guarded a))
        (fun outcome _ => ∀ a, outcome ≠ .guarded (.ok a)) s := by
    intro p hp
    refine (wp_bind _ _ _ _).mpr (wp_mono (fun result t ht => ?_) _ _ (hp s trivial))
    refine (wp_ret _ _ _ _ _ _).mpr fun a ha => ?_
    obtain rfl := Outcome.guarded.inj ha
    exact ht
  cases q with
  | signIn userId => cases hq
  | route r' =>
      obtain rfl := Option.some.inj hq
      exact hends _ (triple_require_ended htoken)
  | logout r' =>
      obtain rfl := Option.some.inj hq
      refine hends _ ?_
      unfold logout
      exact Triple.bind (triple_require_ended htoken) fun a s h => absurd h id

end ended

/-! ### Every run -/

section runs

variable (cfg : Settings) (T : Tables) (requests : List Request)

/-- What a request comes to. -/
def Ends (i : ℕ) (outcome : Outcome) (s : Tables) : Prop :=
  ∀ q r a, requests[i]? = some q → q.guarded = some r → outcome = .guarded (.ok a) →
    LetIn cfg T requests r a s ∧
      (q = .logout r → Ended (cfg.hashSessionToken (trim a.token)) s)

theorem verified_request {i : ℕ} {q : Request} (hi : requests[i]? = some q) (s : Tables) :
    wp (sessions cfg).machine (sessionDiscipline T requests) i (q.program cfg)
      (Ends cfg T requests i) s := by
  cases q with
  | signIn userId =>
      have hsign : Triple (sessions cfg).machine (sessionDiscipline T requests) i (fun _ => True)
          (createSession cfg userId) (fun _ _ => True) fun _ _ => True :=
        triple_createSession (List.mem_of_getElem? hi)
      refine (wp_bind _ _ _ _).mpr (wp_mono (fun x t _ => ?_) _ _ (hsign s trivial))
      exact (wp_ret _ _ _ _ _ _).mpr fun _ _ _ _ _ h => by cases h
  | route r =>
      refine (wp_bind _ _ _ _).mpr (wp_mono (fun x t ht => ?_) _ _
        (triple_requireFourSession r s trivial))
      refine (wp_ret _ _ _ _ _ _).mpr fun q r' a hq hr ha => ?_
      obtain rfl := Option.some.inj (hi.symm.trans hq)
      obtain rfl := Option.some.inj hr
      obtain rfl := Outcome.guarded.inj ha
      exact ⟨ht, fun h => by cases h⟩
  | logout r =>
      refine (wp_bind _ _ _ _).mpr (wp_mono (fun x t ht => ?_) _ _ (triple_logout r s trivial))
      refine (wp_ret _ _ _ _ _ _).mpr fun q r' a hq hr ha => ?_
      obtain rfl := Option.some.inj (hi.symm.trans hq)
      obtain rfl := Option.some.inj hr
      obtain rfl := Outcome.guarded.inj ha
      exact ⟨ht.1, fun _ => ht.2⟩

/-- The requests run under the discipline. -/
theorem run_verified (sched : List (ℕ × Except SessionError Outside)) :
    Pool.Verified (sessions cfg).machine (sessionDiscipline T requests) (Ends cfg T requests)
      ((begun cfg T requests).run (sessions cfg).machine sched) := by
  refine (Pool.run_sound (Pool.Verified.start (fun k hk => .inl ⟨k, hk, rfl⟩) fun i p hp => ?_)
    sched (Pool.along_of_forall _ (fun P e => by unfold Pool.CondAt; split <;> trivial) _ _)).1
  obtain ⟨q, hi, rfl⟩ := Option.map_eq_some_iff.mp ((List.getElem?_map ..).symm.trans hp)
  exact verified_request cfg T requests hi _

/-- **Sessions end for good**: in every run, who is let in has a session that was issued to them,
signing out ends it, and a session that has ended lets in no request that begins later. -/
theorem sessions_end (before after : List (ℕ × Except SessionError Outside)) :
    SessionsEnd cfg T requests before after := by
  have hbefore := run_verified cfg T requests before
  refine ⟨fun i q r a hi hq hret => ?_, fun j r a hj hret => ?_,
    fun i q r token a hi hq htoken hlate hended hin => ?_⟩
  · obtain ⟨s, hs, hl⟩ := hbefore.result hret
    exact (hs q r a hi hq rfl).1.later hl
  · obtain ⟨s, hs, hl⟩ := hbefore.result hret
    exact ((hs _ r a hj rfl rfl).2 rfl).later hl
  · have hproc : ((begun cfg T requests).run (sessions cfg).machine before).procs[i]? =
        some (q.program cfg) := by
      rw [Pool.run_untouched before _ hlate]
      exact (List.getElem?_map ..).trans (by rw [hi]; rfl)
    have hmid : Pool.Verified (sessions cfg).machine
        (endedDiscipline (cfg.hashSessionToken (trim token)))
        (fun n outcome _ => n = i → ∀ a, outcome ≠ .guarded (.ok a))
        ((begun cfg T requests).run (sessions cfg).machine before) := by
      refine Pool.Verified.midway (ended_open cfg _) hended hproc ?_
        fun n _ _ hne heq => absurd heq hne
      exact wp_mono (fun _ _ h _ => h) _ _ (wp_request_ended hq htoken _)
    have hend := (Pool.run_sound hmid after
      (Pool.along_of_forall _ (fun P e => by unfold Pool.CondAt; split <;> trivial) _ _)).1
    rw [Pool.run_append] at hin
    obtain ⟨s, hs, -⟩ := hend.result hin
    exact hs rfl a rfl

end runs

end DayfiBackend.Four.Sessions
