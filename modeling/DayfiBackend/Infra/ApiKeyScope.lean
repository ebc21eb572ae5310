import DayfiBackend.Infra.ApiKeys

/-!
# What API keys reach

`Scoped` says what holds in any run of any requests, whatever the order of their statements. A key
is made or revoked by a request that speaks for its organisation in its environment, with a key of
that environment or with a session; every key goes back to one that was there at the start, or to a
session that has asked for its environment. A request is let in for nobody but whom it speaks for,
into the live environment only where the organisation has been verified, and is told of no other
keys.
-/

namespace DayfiBackend.Infra.ApiKeys

open DayfiBackend.Found DayfiBackend.Found.Prog DayfiBackend.Found.Keys

/-! ### The property -/

/-- What no statement changes of a key. -/
def ApiKeyRow.lasting (k : ApiKeyRow) : ApiKeyRow :=
  { k with lastUsedAt := none, revokedAt := none }

/-- Keys stay, and stay revoked. -/
def Later (s t : Tables) : Prop :=
  ∀ k ∈ s.keys, ∃ k' ∈ t.keys, k'.lasting = k.lasting ∧ (k.revokedAt.isSome → k'.revokedAt.isSome)

section property

variable (S : Secrets) (T : Tables) (requests : List Request)

/-- The token of a request is the secret of a key. -/
structure KeySpeaks (h : Headers) (orgId : String) (env : Environment) (s : Tables) : Prop where
  isKey : isApiKeySecret (bearer h.authorization) = true
  key : ∃ k ∈ s.keys, k.keyHash = S.hashApiKey (trim (bearer h.authorization)) ∧
    k.orgId = orgId ∧ k.environment = env
  placed : misplaced (trim (bearer h.authorization)) env = false

/-- The token of a request is that of a session. -/
structure SessionSpeaks (h : Headers) (orgId : String) (env : Environment) : Prop where
  notKey : isApiKeySecret (bearer h.authorization) = false
  session : ∃ a, S.decodeInfraToken (bearer h.authorization) = some a ∧ a.orgId = some orgId
  asked : envFromHeader h.environment = env

/-- A request speaks for an organisation in an environment. -/
def Speaks (h : Headers) (orgId : String) (env : Environment) (s : Tables) : Prop :=
  KeySpeaks S h orgId env s ∨ SessionSpeaks S h orgId env

/-- The organisation has been verified at some time. -/
def Cleared (orgId : String) : Prop :=
  T.organizations orgId = some .verified ∨ .setVerification orgId .verified ∈ requests

/-- A request may act for an organisation in an environment. -/
structure Entitled (h : Headers) (orgId : String) (env : Environment) (s : Tables) : Prop where
  speaks : Speaks S h orgId env s
  cleared : env = .live → Cleared T requests orgId

/-- There was a key of the environment at the start, or a session has asked for it. -/
def Rooted (orgId : String) (env : Environment) : Prop :=
  (∃ k ∈ T.keys, k.orgId = orgId ∧ k.environment = env) ∨
    ∃ h r, .route h r ∈ requests ∧ SessionSpeaks S h orgId env

/-- The routes that make keys. -/
def Route.Makes : Route → Prop
  | apiKeysCreate _ | apiKeysRotate _ => True
  | _ => False

/-- A request makes keys of the organisation and the environment of a key. -/
def Acts (i : ℕ) (k : ApiKeyRow) (s : Tables) : Prop :=
  ∃ h r, requests[i]? = some (.route h r) ∧ r.Makes ∧
    Entitled S T requests h k.orgId k.environment s

/-- A key is new, or is revoked now. -/
def Changed (s : Tables) (k : ApiKeyRow) : Prop :=
  ∀ k' ∈ s.keys, k'.lasting = k.lasting → k'.revokedAt ≠ k.revokedAt

/-- What a step leaves: the keys there were, and those that its request makes or revokes. -/
structure Stepped (i : ℕ) (s t : Tables) : Prop where
  later : Later s t
  changed : ∀ k ∈ t.keys, Changed s k → Acts S T requests i k t

/-- A key of the organisation and the environment has this secret. -/
def HasSecret (orgId : String) (env : Environment) (id secret : String) (s : Tables) : Prop :=
  ∃ k ∈ s.keys, k.id = id ∧ k.orgId = orgId ∧ k.environment = env ∧
    k.keyHash = S.hashApiKey secret

/-- What is answered is of the organisation and the environment alone; the secret of a new key is
the secret of a row. -/
def Reply.Within (a : Admitted) (s : Tables) : Reply → Prop
  | .keys rows => ∀ x ∈ rows, x.1.orgId = a.orgId ∧ x.1.environment = a.env
  | .created key => HasSecret S a.orgId a.env key.id key.secret s
  | .audit rows => ∀ r ∈ rows, r.orgId = a.orgId
  | .other => True

/-- The key is revoked. -/
def Revoked (id : String) (s : Tables) : Prop :=
  ∃ k ∈ s.keys, k.id = id ∧ k.revokedAt.isSome

/-- What is answered: no other keys are told of, and a key that is to be rotated is revoked. -/
structure Route.Answered (r : Route) (a : Admitted) (x : Reply) (s : Tables) : Prop where
  within : x.Within S a s
  rotated : ∀ id, r = .apiKeysRotate id → Revoked id s

/-- What is asked of a run. -/
structure Scoped (sched : List (ℕ × Except AccessError Outside)) : Prop where
  steps : Pool.Along access.machine
    (Pool.GoodAt access.machine fun i _ _ s _ t => Stepped S T requests i s t)
    (begun S T requests) sched
  rooted : ∀ k ∈ ((begun S T requests).run access.machine sched).store.keys,
    Rooted S T requests k.orgId k.environment
  admitted : ∀ (i : ℕ) h r a reply, requests[i]? = some (.route h r) →
    ((begun S T requests).run access.machine sched).procs[i]? =
        some (.ret (.replied a reply)) →
      Entitled S T requests h a.orgId a.env
          ((begun S T requests).run access.machine sched).store ∧
        ∀ x, reply = .ok x →
          r.Answered S a x ((begun S T requests).run access.machine sched).store

end property

/-! ### Statements -/

/-- The statement revokes a key. -/
def KeySql.Revokes {β : Type} (st : KeySql β) (id : String) : Prop :=
  match st with
  | .revoke id' => id' = id
  | _ => False

/-- The statement inserts a key. -/
def KeySql.Inserts {β : Type} (st : KeySql β) (row : ApiKeyRow) : Prop :=
  match st with
  | .insertKey row' => row' = row
  | _ => False

/-- The statement decides on the verification of an organisation. -/
def KeySql.Decides {β : Type} (st : KeySql β) (orgId : String) (status : VerificationStatus) :
    Prop :=
  match st with
  | .setVerification orgId' status' => orgId' = orgId ∧ status' = status
  | _ => False

section statements

variable {s t u : Tables} {β : Type} {st : KeySql β}

/-- The fields that last. -/
theorem lasting_fields {k k' : ApiKeyRow} (h : k'.lasting = k.lasting) :
    k'.id = k.id ∧ k'.orgId = k.orgId ∧ k'.environment = k.environment ∧
      k'.keyHash = k.keyHash := by
  have hid : k'.lasting.id = k.lasting.id := by rw [h]
  have horg : k'.lasting.orgId = k.lasting.orgId := by rw [h]
  have henv : k'.lasting.environment = k.lasting.environment := by rw [h]
  have hhash : k'.lasting.keyHash = k.lasting.keyHash := by rw [h]
  exact ⟨hid, horg, henv, hhash⟩

theorem Later.refl (s : Tables) : Later s s := fun k hk => ⟨k, hk, rfl, id⟩

theorem Later.trans (h : Later s t) (h' : Later t u) : Later s u := fun k hk => by
  obtain ⟨k', hk', heq, hrevoked⟩ := h k hk
  obtain ⟨k'', hk'', heq', hrevoked'⟩ := h' k' hk'
  exact ⟨k'', hk'', heq'.trans heq, hrevoked' ∘ hrevoked⟩

/-- What a statement leaves: the keys there were, and at most one that it inserts. -/
structure Leaves (st : KeySql β) (o : Outside) (s t : Tables) : Prop where
  later : Later s t
  back : ∀ k ∈ t.keys, (∃ k' ∈ s.keys, k'.lasting = k.lasting ∧
      (k'.revokedAt = k.revokedAt ∨ st.Revokes k'.id)) ∨
    ∃ row, st.Inserts row ∧ k = { row with id := o.newId, createdAt := s.now }
  organizations : ∀ id, t.organizations id = s.organizations id ∨
    ∃ status, st.Decides id status ∧
      t.organizations id = (s.organizations id).map fun _ => status

/-- The keys stay as they are. -/
theorem Leaves.same {o : Outside} (hkeys : t.keys = s.keys)
    (horganizations : t.organizations = s.organizations) : Leaves st o s t where
  later k hk := ⟨k, hkeys ▸ hk, rfl, id⟩
  back k hk := .inl ⟨k, hkeys ▸ hk, rfl, .inl rfl⟩
  organizations id := .inl (congrFun horganizations id)

/-- One row is updated. -/
theorem Leaves.updated {o : Outside} (id : String) {f : ApiKeyRow → ApiKeyRow}
    (hid : ∀ k, (f k).id = k.id) (hlasting : ∀ k, (f k).lasting = k.lasting)
    (hrevoked : ∀ k, k.revokedAt.isSome → (f k).revokedAt.isSome)
    (hst : ∀ k, k.id = id → k.revokedAt = (f k).revokedAt ∨ st.Revokes k.id) :
    Leaves st o s (s.update id f hid) where
  later k hk := by
    refine ⟨if k.id = id then f k else k, List.mem_map.mpr ⟨k, hk, rfl⟩, ?_⟩
    split_ifs
    · exact ⟨hlasting k, hrevoked k⟩
    · exact ⟨rfl, fun h => h⟩
  back k hk := by
    obtain ⟨k', hk', rfl⟩ := List.mem_map.mp hk
    refine .inl ⟨k', hk', ?_⟩
    split_ifs with h
    · exact ⟨(hlasting k').symm, hst k' h⟩
    · exact ⟨rfl, .inl rfl⟩
  organizations _ := .inl rfl

theorem insertKey_leaves (s : Tables) (o : Outside) (row : ApiKeyRow) :
    Leaves (KeySql.insertKey row) o s (s.insertKey o.newId row).2 := by
  unfold Tables.insertKey
  dsimp only
  split_ifs with hfits hforeign hkeys
  · exact .same rfl rfl
  · exact .same rfl rfl
  · refine ⟨fun k hk => ⟨k, List.mem_cons_of_mem _ hk, rfl, id⟩, fun k hk => ?_,
      fun _ => .inl rfl⟩
    rcases List.mem_cons.mp hk with rfl | hk
    · exact .inr ⟨row, rfl, rfl⟩
    · exact .inl ⟨k, hk, rfl, .inl rfl⟩
  · exact .same rfl rfl

/-- What a statement does. -/
theorem act_leaves (st : KeySql β) (o : Outside) (s : Tables) :
    Leaves st o s (st.act o s).2 := by
  cases st with
  | insertKey row => exact insertKey_leaves s o row
  | touch id =>
      exact .updated id (f := fun k => { k with lastUsedAt := some s.now }) (fun _ => rfl)
        (fun _ => rfl) (fun _ h => h) fun _ _ => .inl rfl
  | revoke id =>
      exact .updated id (f := fun k => { k with revokedAt := some s.now }) (fun _ => rfl)
        (fun _ => rfl) (fun _ _ => rfl) fun _ h => .inr h.symm
  | insertAudit orgId keyId action actorEmail =>
      unfold KeySql.act Tables.insertAudit
      dsimp only
      split_ifs <;> exact .same rfl rfl
  | setVerification orgId status =>
      refine ⟨.refl s, fun k hk => .inl ⟨k, hk, rfl, .inl rfl⟩, fun id => ?_⟩
      by_cases h : id = orgId
      · exact .inr ⟨status, ⟨h.symm, rfl⟩, if_pos h⟩
      · exact .inl (if_neg h)
  | _ => exact .same rfl rfl

end statements

/-! ### The discipline -/

section discipline

variable {S : Secrets} {T : Tables} {requests : List Request} {i : ℕ} {s t : Tables}
  {h : Headers} {orgId : String} {env : Environment}

theorem Speaks.later (hs : Speaks S h orgId env s) (hl : Later s t) : Speaks S h orgId env t := by
  rcases hs with ⟨hkey, ⟨k, hk, hhash, horg, henv⟩, hplaced⟩ | hsession
  · obtain ⟨k', hk', heq, -⟩ := hl k hk
    refine .inl ⟨hkey, ⟨k', hk', ?_, ?_, ?_⟩, hplaced⟩
    · exact (congrArg ApiKeyRow.keyHash heq).trans hhash
    · exact (congrArg ApiKeyRow.orgId heq).trans horg
    · exact (congrArg ApiKeyRow.environment heq).trans henv
  · exact .inr hsession

theorem Entitled.later (he : Entitled S T requests h orgId env s) (hl : Later s t) :
    Entitled S T requests h orgId env t := ⟨he.speaks.later hl, he.cleared⟩

theorem Acts.later {k : ApiKeyRow} (ha : Acts S T requests i k s) (hl : Later s t) :
    Acts S T requests i k t := by
  obtain ⟨h, r, hi, hmakes, he⟩ := ha
  exact ⟨h, r, hi, hmakes, he.later hl⟩

theorem HasSecret.later {id secret : String} (hs : HasSecret S orgId env id secret s)
    (hl : Later s t) : HasSecret S orgId env id secret t := by
  obtain ⟨k, hk, hid, horg, henv, hhash⟩ := hs
  obtain ⟨k', hk', heq, -⟩ := hl k hk
  obtain ⟨hid', horg', henv', hhash'⟩ := lasting_fields heq
  exact ⟨k', hk', hid'.trans hid, horg'.trans horg, henv'.trans henv, hhash'.trans hhash⟩

theorem Reply.Within.later {a : Admitted} {x : Reply} (hx : x.Within S a s) (hl : Later s t) :
    x.Within S a t := by
  cases x with
  | created key => exact HasSecret.later hx hl
  | keys _ | audit _ => exact hx
  | other => trivial

theorem Revoked.later {id : String} (hr : Revoked id s) (hl : Later s t) : Revoked id t := by
  obtain ⟨k, hk, hid, hrevoked⟩ := hr
  obtain ⟨k', hk', heq, hrevoked'⟩ := hl k hk
  exact ⟨k', hk', (lasting_fields heq).1.trans hid, hrevoked' hrevoked⟩

theorem Route.Answered.later {r : Route} {a : Admitted} {x : Reply} (hx : r.Answered S a x s)
    (hl : Later s t) : r.Answered S a x t :=
  ⟨hx.within.later hl, fun id hid => (hx.rotated id hid).later hl⟩

/-- What holds of the tables all along. -/
structure KeyInv (S : Secrets) (T : Tables) (requests : List Request) (s : Tables) : Prop where
  rooted : ∀ k ∈ s.keys, Rooted S T requests k.orgId k.environment
  cleared : ∀ orgId, s.organizations orgId = some .verified → Cleared T requests orgId

/-- What a statement may do. -/
structure May {β : Type} (S : Secrets) (T : Tables) (requests : List Request) (i : ℕ)
    (st : KeySql β) (s : Tables) : Prop where
  revokes : ∀ k ∈ s.keys, st.Revokes k.id → Acts S T requests i k s
  inserts : ∀ row, st.Inserts row → Acts S T requests i row s
  decides : ∀ orgId, st.Decides orgId .verified → Cleared T requests orgId

/-- Who may act for an environment has it from a key or from a session. -/
theorem Acts.rooted {k : ApiKeyRow} (ha : Acts S T requests i k s) (hinv : KeyInv S T requests s) :
    Rooted S T requests k.orgId k.environment := by
  obtain ⟨h, r, hi, -, ⟨-, ⟨k', hk', -, horg, henv⟩, -⟩ | hsession, -⟩ := ha
  · exact horg ▸ henv ▸ hinv.rooted k' hk'
  · exact .inr ⟨h, r, List.mem_of_getElem? hi, hsession⟩

/-- Statements that do what they may keep the invariant, and say who has changed a key. -/
theorem KeyInv.after {β : Type} {st : KeySql β} {o : Outside} (hinv : KeyInv S T requests s)
    (hm : May S T requests i st s) (hl : Leaves st o s t) :
    KeyInv S T requests t ∧ Stepped S T requests i s t := by
  refine ⟨⟨fun k hk => ?_, fun orgId hverified => ?_⟩, hl.later, fun k hk hchanged => ?_⟩
  · rcases hl.back k hk with ⟨k', hk', heq, -⟩ | ⟨row, hrow, rfl⟩
    · obtain ⟨-, horg, henv, -⟩ := lasting_fields heq
      exact horg ▸ henv ▸ hinv.rooted k' hk'
    · exact (hm.inserts row hrow).rooted hinv
  · rcases hl.organizations orgId with heq | ⟨status, hdecides, heq⟩
    · exact hinv.cleared orgId (heq.symm.trans hverified)
    · obtain ⟨old, -, rfl⟩ := Option.map_eq_some_iff.mp (heq.symm.trans hverified)
      exact hm.decides orgId hdecides
  · rcases hl.back k hk with ⟨k', hk', heq, hsame | hrevokes⟩ | ⟨row, hrow, rfl⟩
    · exact absurd hsame (hchanged k' hk' heq)
    · have ha : Acts S T requests i k' t := (hm.revokes k' hk' hrevokes).later hl.later
      obtain ⟨-, horg, henv, -⟩ := lasting_fields heq
      unfold Acts at ha ⊢
      rwa [horg, henv] at ha
    · exact (hm.inserts row hrow).later hl.later

/-- The discipline of the runs. -/
def keyDiscipline (S : Secrets) (T : Tables) (requests : List Request) :
    Discipline KeySql (Except AccessError Outside) Tables where
  inv := KeyInv S T requests
  rely _ := Later
  cond _ _ _ _ := True
  good i _ _ s _ t := Stepped S T requests i s t
  rely_refl _ := Later.refl
  rely_trans _ _ _ _ := Later.trans

/-- The rule of one statement. -/
theorem triple_sql {β : Type} {st : KeySql (Ans β)} {P : Tables → Prop} {Q : β → Tables → Prop}
    (hst : ∀ e, st.fail e = .error e) (hstable : ∀ s t, P s → Later s t → P t)
    (hmay : ∀ s, P s → May S T requests i st s)
    (hans : ∀ s o b, P s → KeyInv S T requests s → (st.act o s).1 = .ok b →
      Q b (st.act o s).2) :
    Triple access.machine (keyDiscipline S T requests) i P (sql st) Q fun _ _ => True := by
  refine Backend.triple_call hst hstable
    (fun s e _ _ => ⟨⟨.refl s, fun k hk hchanged => absurd rfl (hchanged k hk rfl)⟩, trivial⟩)
    fun s o hs hinv _ => ?_
  have hrun : access.run i st o s = st.act o { s with now := o.now } := rfl
  rw [hrun]
  -- The clock has moved, which no row and no assertion is about.
  have hs' : P { s with now := o.now } := hstable s _ hs fun k hk => ⟨k, hk, rfl, id⟩
  have hinv' : KeyInv S T requests { s with now := o.now } := ⟨hinv.rooted, hinv.cleared⟩
  have hl := act_leaves st o { s with now := o.now }
  obtain ⟨hafter, hgood⟩ := hinv'.after (hmay _ hs') hl
  refine ⟨⟨hgood.later, hgood.changed⟩, hafter, fun j _ => hl.later, ?_⟩
  cases hb : (st.act o { s with now := o.now }).1 with
  | ok b => exact hans _ o b hs' hinv' hb
  | error e => trivial

/-- A statement that changes no key and decides nothing. -/
def KeySql.Reads {β : Type} (st : KeySql β) : Prop :=
  (∀ id, ¬ st.Revokes id) ∧ (∀ row, ¬ st.Inserts row) ∧ ∀ orgId status, ¬ st.Decides orgId status

theorem KeySql.Reads.may {β : Type} {st : KeySql β} (hst : st.Reads) (s : Tables) :
    May S T requests i st s :=
  ⟨fun k _ h => absurd h (hst.1 k.id), fun row h => absurd h (hst.2.1 row),
    fun orgId h => absurd h (hst.2.2 orgId .verified)⟩

/-- What is known stays known when the tables are read. -/
theorem triple_read {β : Type} {st : KeySql (Ans β)} {P : Tables → Prop}
    {Q : β → Tables → Prop} (hst : ∀ e, st.fail e = .error e) (hreads : st.Reads)
    (hstable : ∀ s t, P s → Later s t → P t)
    (hans : ∀ s o b, P s → KeyInv S T requests s → (st.act o s).1 = .ok b →
      Q b (st.act o s).2) :
    Triple access.machine (keyDiscipline S T requests) i P (sql st)
      (fun b s => P s ∧ Q b s) fun _ _ => True :=
  triple_sql hst hstable (fun s _ => hreads.may s) fun s o b hs hinv hb =>
    ⟨hstable s _ hs (act_leaves st o s).later, hans s o b hs hinv hb⟩

end discipline

/-! ### Calls -/

section calls

variable {S : Secrets} {T : Tables} {requests : List Request} {i : ℕ}

/-- The rows that are found by a hash. -/
theorem mem_of_findByHash {s : Tables} {keyHash : String} {pick : ℕ} {k : ApiKeyRow}
    (h : s.findByHash keyHash pick = some k) :
    k ∈ s.keys ∧ k.keyHash = keyHash ∧ k.revokedAt = none := by
  obtain ⟨hmem, hprop⟩ := List.mem_filter.mp (List.mem_of_getElem? h)
  simp only [Bool.and_eq_true, decide_eq_true_eq, Option.isNone_iff_eq_none] at hprop
  exact ⟨hmem, hprop⟩

/-- What a key says of whom it is of. -/
def KeyFound (S : Secrets) (secret : String) (x : InfraApiKeyAuth) (s : Tables) : Prop :=
  (∃ k ∈ s.keys, k.keyHash = S.hashApiKey (trim secret) ∧ x.infra.orgId = some k.orgId ∧
    k.environment = x.env) ∧ misplaced (trim secret) x.env = false

theorem KeyFound.later {secret : String} {x : InfraApiKeyAuth} {s t : Tables}
    (hx : KeyFound S secret x s) (hl : Later s t) : KeyFound S secret x t := by
  obtain ⟨⟨k, hk, hhash, horg, henv⟩, hplaced⟩ := hx
  obtain ⟨k', hk', heq, -⟩ := hl k hk
  obtain ⟨-, horg', henv', hhash'⟩ := lasting_fields heq
  exact ⟨⟨k', hk', hhash'.trans hhash, horg' ▸ horg, henv'.trans henv⟩, hplaced⟩

theorem triple_authenticateApiKey (secret : String) :
    Triple access.machine (keyDiscipline S T requests) i (fun _ => True)
      (authenticateApiKey S secret) (fun r s => ∀ x, r = some x → KeyFound S secret x s)
      fun _ _ => True := by
  unfold authenticateApiKey
  refine Triple.ite (fun _ => Triple.pure fun _ _ x h => by cases h) fun _ => ?_
  refine Triple.bind (R := fun found s => ∀ row member, found = some (row, member) →
      ∃ k ∈ s.keys, k.lasting = row.lasting ∧ row.keyHash = S.hashApiKey (trim secret))
    (triple_sql (fun _ => rfl) (fun _ _ _ _ => trivial)
      (fun s _ => ⟨fun _ _ h => h.elim, fun _ h => h.elim, fun _ h => h.elim⟩)
      fun s o b _ _ hb row member hrow => ?_) fun found => ?_
  · obtain rfl := Except.ok.inj hb
    obtain ⟨k, hk, heq⟩ := Option.map_eq_some_iff.mp hrow
    obtain ⟨hmem, hhash, -⟩ := mem_of_findByHash hk
    obtain rfl := congrArg Prod.fst heq
    exact ⟨_, hmem, rfl, hhash⟩
  cases found with
  | none => exact Triple.pure fun _ _ x h => by cases h
  | some found =>
      obtain ⟨row, member⟩ := found
      refine Triple.ite (fun _ => Triple.pure fun _ _ x h => by cases h) fun _ => ?_
      refine Triple.ite (fun _ => Triple.pure fun _ _ x h => by cases h) fun hplaced => ?_
      have hstable : ∀ s t : Tables, (∀ row' member', some (row, member) = some (row', member') →
          ∃ k ∈ s.keys, k.lasting = row'.lasting ∧
            row'.keyHash = S.hashApiKey (trim secret)) → Later s t →
          ∀ row' member', some (row, member) = some (row', member') →
            ∃ k ∈ t.keys, k.lasting = row'.lasting ∧
              row'.keyHash = S.hashApiKey (trim secret) := by
        intro s t hs hl row' member' h
        obtain ⟨k, hk, heq, hhash⟩ := hs row' member' h
        obtain ⟨k', hk', heq', -⟩ := hl k hk
        exact ⟨k', hk', heq'.trans heq, hhash⟩
      refine Triple.bind (triple_read (Q := fun _ _ => True) (fun _ => rfl)
        ⟨fun _ h => h, fun _ h => h, fun _ _ h => h⟩ hstable fun _ _ _ _ _ _ => trivial)
        fun _ => Triple.pure fun s hs x hx => ?_
      obtain rfl := Option.some.inj hx
      obtain ⟨k, hk, heq, hhash⟩ := hs.1 row member rfl
      obtain ⟨-, horg, henv, hhash'⟩ := lasting_fields heq
      exact ⟨⟨k, hk, hhash'.trans hhash, congrArg some horg.symm, henv⟩, by simpa using hplaced⟩

/-- What is known of a request after the first middleware. -/
def Authenticated (S : Secrets) (h : Headers) (a : InfraAuth) (env : Environment) (s : Tables) :
    Prop :=
  ∀ orgId, a.orgId = some orgId → Speaks S h orgId env s

theorem triple_infraAuthMiddleware (h : Headers) :
    Triple access.machine (keyDiscipline S T requests) i (fun _ => True)
      (infraAuthMiddleware S h) (fun r s => Authenticated S h r.1 r.2 s) fun _ _ => True := by
  unfold infraAuthMiddleware
  refine Triple.ite (fun _ => Triple.throw fun _ _ => trivial) fun _ => ?_
  refine Triple.ite (fun hkey => ?_) fun hkey => ?_
  · refine Triple.bind (triple_authenticateApiKey _) fun found => ?_
    cases found with
    | none => exact Triple.throw fun _ _ => trivial
    | some x =>
        refine Triple.pure fun s hs orgId horg => ?_
        obtain ⟨⟨k, hk, hhash, horg', henv⟩, hplaced⟩ := hs x rfl
        exact .inl ⟨hkey, ⟨k, hk, hhash, Option.some.inj (horg'.symm.trans horg), henv⟩, hplaced⟩
  · cases hdecode : S.decodeInfraToken (bearer h.authorization) with
    | none => exact Triple.throw fun _ _ => trivial
    | some a =>
        exact Triple.pure fun s _ orgId horg =>
          .inr ⟨by simpa using hkey, ⟨a, hdecode, horg⟩, rfl⟩

theorem triple_requireOrgMiddleware (a : InfraAuth) (P : Tables → Prop) :
    Triple access.machine (keyDiscipline S T requests) i P (requireOrgMiddleware a)
      (fun orgId s => a.orgId = some orgId ∧ P s) fun _ _ => True := by
  unfold requireOrgMiddleware
  cases horg : orNull a.orgId with
  | none => exact Triple.throw fun _ _ => trivial
  | some orgId => exact Triple.pure fun s hs => ⟨(Option.filter_eq_some_iff.mp horg).1, hs⟩

/-- Live requests go on only where the organisation has been verified. -/
theorem triple_requireVerifiedForLive (orgId : String) (env : Environment) {P : Tables → Prop}
    (hstable : ∀ s t, P s → Later s t → P t) :
    Triple access.machine (keyDiscipline S T requests) i P
      (requireVerifiedForLiveMiddleware orgId env)
      (fun _ s => P s ∧ (env = .live → Cleared T requests orgId)) fun _ _ => True := by
  unfold requireVerifiedForLiveMiddleware
  refine Triple.ite (fun h => Triple.pure fun s hs => ⟨hs, fun h' => absurd h' h⟩) fun _ => ?_
  refine Triple.bind (triple_read (Q := fun status _ => status = some .verified →
      Cleared T requests orgId) (fun _ => rfl) ⟨fun _ h => h, fun _ h => h, fun _ _ h => h⟩ hstable
    fun s o b _ hinv hb hverified => ?_) fun status => ?_
  · exact hinv.cleared orgId ((Except.ok.inj hb).trans hverified)
  · exact Triple.ite (fun _ => Triple.throw fun _ _ => trivial) fun h =>
      Triple.pure fun s hs => ⟨hs.1, fun _ => hs.2 (not_not.mp h)⟩

theorem triple_letIn (h : Headers) :
    Triple access.machine (keyDiscipline S T requests) i (fun _ => True) (letIn S h)
      (fun a s => Entitled S T requests h a.orgId a.env s) fun _ _ => True := by
  unfold letIn
  refine Triple.bind (triple_infraAuthMiddleware h) fun r => ?_
  obtain ⟨a, env⟩ := r
  refine Triple.bind (triple_requireOrgMiddleware a _) fun orgId => ?_
  refine Triple.bind (triple_requireVerifiedForLive orgId env
    (P := fun s => a.orgId = some orgId ∧ Authenticated S h a env s) fun s t hs hl =>
      ⟨hs.1, fun orgId' h' => (hs.2 orgId' h').later hl⟩) fun _ => ?_
  exact Triple.pure fun s hs => ⟨hs.1.2 orgId hs.1.1, hs.2⟩

/-- A request that makes keys of an organisation and an environment. -/
def Making (S : Secrets) (T : Tables) (requests : List Request) (i : ℕ) (orgId : String)
    (env : Environment) (s : Tables) : Prop :=
  ∃ h r, requests[i]? = some (.route h r) ∧ r.Makes ∧ Entitled S T requests h orgId env s

theorem Making.later {orgId : String} {env : Environment} {s t : Tables}
    (hm : Making S T requests i orgId env s) (hl : Later s t) :
    Making S T requests i orgId env t := by
  obtain ⟨h, r, hi, hmakes, he⟩ := hm
  exact ⟨h, r, hi, hmakes, he.later hl⟩

theorem triple_createApiKey (orgId : String) (env : Environment) (name : String)
    (actor : InfraAuth) :
    Triple access.machine (keyDiscipline S T requests) i (Making S T requests i orgId env)
      (createApiKey S orgId env name actor)
      (fun key s => HasSecret S orgId env key.id key.secret s) fun _ _ => True := by
  unfold createApiKey
  refine Triple.bind (triple_read (Q := fun _ _ => True) (fun _ => rfl)
    ⟨fun _ h => h, fun _ h => h, fun _ _ h => h⟩ (fun _ _ h hl => h.later hl)
    fun _ _ _ _ _ _ => trivial) fun body => ?_
  refine Triple.bind (R := fun row s => HasSecret S orgId env row.id (secretPrefix env ++ body) s)
    (triple_sql (fun _ => rfl) (fun _ _ h hl => ⟨h.1.later hl, trivial⟩)
      (fun s hs => ⟨fun _ _ h => h.elim, fun row hrow => hrow ▸ hs.1, fun _ h => h.elim⟩)
      fun s o b _ _ hb => ?_) fun row => ?_
  · revert hb
    unfold KeySql.act Tables.insertKey
    dsimp only
    split_ifs with hfits hforeign hkeys
    · intro hb
      cases hb
    · intro hb
      cases hb
    · intro hb
      obtain rfl := Except.ok.inj hb
      exact ⟨_, List.mem_cons_self, rfl, rfl, rfl, rfl⟩
    · intro hb
      cases hb
  · refine Triple.bind (triple_read (Q := fun _ _ => True) (fun _ => rfl)
      ⟨fun _ h => h, fun _ h => h, fun _ _ h => h⟩ (fun _ _ h hl => h.later hl)
      fun _ _ _ _ _ _ => trivial) fun _ => Triple.pure fun s hs => hs.1

/-- A key that is rotated is one of the organisation and the environment. -/
theorem triple_rotateApiKey (orgId : String) (env : Environment) (keyId : String)
    (actor : InfraAuth) :
    Triple access.machine (keyDiscipline S T requests) i (Making S T requests i orgId env)
      (rotateApiKey S orgId env keyId actor)
      (fun key s => ∀ x, key = some x →
        HasSecret S orgId env x.id x.secret s ∧ Revoked keyId s) fun _ _ => True := by
  unfold rotateApiKey
  refine Triple.bind (triple_read (Q := fun found s => ∀ id, found = some id →
      ∃ k ∈ s.keys, k.id = keyId ∧ k.orgId = orgId ∧ k.environment = env) (fun _ => rfl)
    ⟨fun _ h => h, fun _ h => h, fun _ _ h => h⟩ (fun _ _ h hl => h.later hl)
    fun s o b _ _ hb id hid => ?_) fun found => ?_
  · obtain rfl := Except.ok.inj hb
    obtain ⟨k, hk, -⟩ := Option.map_eq_some_iff.mp hid
    have hprop := List.find?_some hk
    simp only [Bool.and_eq_true, decide_eq_true_eq] at hprop
    exact ⟨k, List.mem_of_find?_eq_some hk, hprop.1.1.1, hprop.1.1.2, hprop.1.2⟩
  cases found with
  | none => exact Triple.pure fun _ _ x h => by cases h
  | some id =>
      -- The row that is revoked is the one that was found, for no two have one identifier.
      refine Triple.bind (R := fun _ s => Making S T requests i orgId env s ∧ Revoked keyId s)
        (triple_sql (fun _ => rfl) (fun s t hs hl => ?_) (fun s hs => ?_)
          fun s o _ hs _ _ => ⟨hs.1.later (act_leaves _ o s).later, ?_⟩) fun _ => ?_
      · refine ⟨hs.1.later hl, fun id' h => ?_⟩
        obtain ⟨k, hk, hid, horg, henv⟩ := hs.2 id' h
        obtain ⟨k', hk', heq, -⟩ := hl k hk
        obtain ⟨hid', horg', henv', -⟩ := lasting_fields heq
        exact ⟨k', hk', hid'.trans hid, horg'.trans horg, henv'.trans henv⟩
      · refine ⟨fun k hk hrevokes => ?_, fun _ h => h.elim, fun _ h => h.elim⟩
        obtain ⟨k', hk', hid, horg, henv⟩ := hs.2 id rfl
        obtain rfl : k' = k := List.inj_on_of_nodup_map s.uniqueKeys hk' hk (hid.trans hrevokes)
        obtain ⟨h, r, hi, hmakes, he⟩ := hs.1
        exact ⟨h, r, hi, hmakes, by rwa [horg, henv]⟩
      · obtain ⟨k, hk, hid, -⟩ := hs.2 id rfl
        refine ⟨_, List.mem_map.mpr ⟨k, hk, rfl⟩, ?_⟩
        rw [if_pos hid]
        exact ⟨hid, rfl⟩
      · have hcreate : Triple access.machine (keyDiscipline S T requests) i
            (Making S T requests i orgId env) (createApiKey S orgId env "Rotated key" actor)
            (fun key s => HasSecret S orgId env key.id key.secret s) fun _ _ => True :=
          triple_createApiKey orgId env "Rotated key" actor
        have hframe := hcreate.frame (F := Revoked keyId) (fun _ _ hr hl => hr.later hl)
          fun _ _ _ _ _ hg hr => hr.later hg.later
        refine Triple.bind (hframe.mono (fun _ h => h) (fun _ _ h => h) fun _ _ h => h.1)
          fun created => ?_
        refine Triple.bind (triple_read (Q := fun _ _ => True) (fun _ => rfl)
          ⟨fun _ h => h, fun _ h => h, fun _ _ h => h⟩
          (fun s t hs hl => ⟨hs.1.later hl, hs.2.later hl⟩) fun _ _ _ _ _ _ => trivial)
          fun _ => Triple.pure fun s hs x hx => ?_
        obtain rfl := Option.some.inj hx
        exact hs.1

/-- What a route answers is of the organisation and the environment that the request is let in
for. -/
theorem triple_route {h : Headers} {r : Route} (hi : requests[i]? = some (.route h r))
    (a : Admitted) :
    Triple access.machine (keyDiscipline S T requests) i
      (fun s => Entitled S T requests h a.orgId a.env s) (r.call S a)
      (fun x s => r.Answered S a x s) fun _ _ => True := by
  cases r with
  | apiKeysList =>
      refine Triple.bind (triple_read (Q := fun rows _ => ∀ x ∈ rows,
          x.1.orgId = a.orgId ∧ x.1.environment = a.env) (fun _ => rfl)
        ⟨fun _ h => h, fun _ h => h, fun _ _ h => h⟩ (fun _ _ h hl => h.later hl)
        fun s o b _ _ hb x hx => ?_) fun rows => Triple.pure fun s hs =>
          ⟨fun x hx => hs.2 x hx, fun _ h => by cases h⟩
      obtain rfl := Except.ok.inj hb
      obtain ⟨k, hk, rfl⟩ := List.mem_map.mp hx
      have hprop := (List.mem_filter.mp (List.mem_mergeSort.mp hk)).2
      simp only [Bool.and_eq_true, decide_eq_true_eq] at hprop
      exact hprop.1
  | apiKeysCreate name =>
      refine Triple.bind ((triple_createApiKey a.orgId a.env _ a.infra).mono
        (fun s hs => ⟨h, _, hi, trivial, hs⟩) (fun _ _ h => h) fun _ _ h => h) fun key => ?_
      exact Triple.pure fun s hs => ⟨hs, fun _ h => by cases h⟩
  | apiKeysRotate id =>
      refine Triple.bind ((triple_rotateApiKey a.orgId a.env id a.infra).mono
        (fun s hs => ⟨h, _, hi, trivial, hs⟩) (fun _ _ h => h) fun _ _ h => h) fun key => ?_
      cases key with
      | none => exact Triple.throw fun _ _ => trivial
      | some key =>
          refine Triple.pure fun s hs => ⟨(hs key rfl).1, fun id' h => ?_⟩
          obtain rfl := Route.apiKeysRotate.inj h
          exact (hs key rfl).2
  | apiKeysAudit =>
      refine Triple.bind (triple_read (Q := fun rows _ => ∀ r ∈ rows, r.orgId = a.orgId)
        (fun _ => rfl) ⟨fun _ h => h, fun _ h => h, fun _ _ h => h⟩ (fun _ _ h hl => h.later hl)
        fun s o b _ _ hb r hr => ?_) fun rows => Triple.pure fun s hs =>
          ⟨fun r hr => hs.2 r hr, fun _ h => by cases h⟩
      obtain rfl := Except.ok.inj hb
      exact of_decide_eq_true
        (List.mem_filter.mp (List.mem_mergeSort.mp (List.mem_of_mem_take hr))).2
  | other => exact Triple.pure fun _ _ => ⟨trivial, fun _ h => by cases h⟩

end calls

/-! ### Every run -/

section runs

variable {S : Secrets} {T : Tables} {requests : List Request} {i : ℕ}

/-- What a request comes to. -/
def Ends (S : Secrets) (T : Tables) (requests : List Request) (i : ℕ) (outcome : Outcome)
    (s : Tables) : Prop :=
  ∀ h r a reply, requests[i]? = some (.route h r) → outcome = .replied a reply →
    Entitled S T requests h a.orgId a.env s ∧ ∀ x, reply = .ok x → r.Answered S a x s

theorem verified_request {r : Request} (hi : requests[i]? = some r) (s : Tables) :
    wp access.machine (keyDiscipline S T requests) i (r.program S) (Ends S T requests i) s := by
  cases r with
  | route h r =>
      refine (wp_bind _ _ _ _).mpr (wp_mono (fun admitted t ha => ?_) _ _
        (triple_letIn h s trivial))
      cases admitted with
      | error e => exact (wp_ret _ _ _ _ _ _).mpr fun _ _ _ _ _ h => by cases h
      | ok a =>
          have hroute : Triple access.machine (keyDiscipline S T requests) i
              (fun s => Entitled S T requests h a.orgId a.env s) (r.call S a)
              (fun x s => r.Answered S a x s) fun _ _ => True := triple_route hi a
          have hframe := (hroute.frame (fun _ _ he hl => he.later hl)
            fun _ _ _ _ _ hg he => he.later hg.later) t ⟨ha, ha⟩
          refine (wp_bind _ _ _ _).mpr (wp_mono (fun reply u hu => ?_) _ _ hframe)
          refine (wp_ret _ _ _ _ _ _).mpr fun h' r' a' reply' hi' heq => ?_
          obtain ⟨rfl, rfl⟩ := Request.route.inj (Option.some.inj (hi.symm.trans hi'))
          obtain ⟨rfl, rfl⟩ := Outcome.replied.inj heq
          cases reply with
          | ok x =>
              refine ⟨hu.2, fun x' hx => ?_⟩
              obtain rfl := Except.ok.inj hx
              exact hu.1
          | error e => exact ⟨hu.2, fun x' hx => by cases hx⟩
  | setVerification orgId status =>
      have hsql : Triple access.machine (keyDiscipline S T requests) i (fun _ => True)
          (sql (.setVerification orgId status)) (fun _ _ => True) fun _ _ => True := by
        refine triple_sql (fun _ => rfl) (fun _ _ _ _ => trivial) (fun s _ => ?_)
          fun _ _ _ _ _ _ => trivial
        refine ⟨fun _ _ h => h.elim, fun _ h => h.elim, fun orgId' h => ?_⟩
        obtain ⟨rfl, rfl⟩ := h
        exact .inr (List.mem_of_getElem? hi)
      refine (wp_bind _ _ _ _).mpr (wp_mono (fun _ _ _ => ?_) _ _ (hsql s trivial))
      exact (wp_ret _ _ _ _ _ _).mpr fun _ _ _ _ _ h => by cases h

/-- The requests run under the discipline. -/
theorem verified_begun (S : Secrets) (T : Tables) (requests : List Request) :
    Pool.Verified access.machine (keyDiscipline S T requests) (Ends S T requests)
      (begun S T requests) := by
  refine Pool.Verified.start ⟨fun k hk => .inl ⟨k, hk, rfl, rfl⟩, fun orgId h => .inl h⟩
    fun i p hp => ?_
  obtain ⟨r, hi, rfl⟩ := Option.map_eq_some_iff.mp ((List.getElem?_map ..).symm.trans hp)
  exact verified_request hi _

theorem run_verified (S : Secrets) (T : Tables) (requests : List Request)
    (sched : List (ℕ × Except AccessError Outside)) :
    Pool.Verified access.machine (keyDiscipline S T requests) (Ends S T requests)
        ((begun S T requests).run access.machine sched) ∧
      Pool.Along access.machine
        (Pool.GoodAt access.machine fun i _ _ s _ t => Stepped S T requests i s t)
        (begun S T requests) sched :=
  Pool.run_sound (verified_begun S T requests) sched
    (Pool.along_of_forall _ (fun P e => by unfold Pool.CondAt; split <;> trivial) _ _)

/-- **Keys reach their organisation's environment** and no other, in every run of any requests. -/
theorem keys_scoped (S : Secrets) (T : Tables) (requests : List Request)
    (sched : List (ℕ × Except AccessError Outside)) : Scoped S T requests sched := by
  obtain ⟨hend, hgood⟩ := run_verified S T requests sched
  refine ⟨hgood, hend.1.rooted, fun i h r a reply hi hret => ?_⟩
  obtain ⟨s, hs, hl⟩ := hend.result hret
  obtain ⟨hentitled, hanswered⟩ := hs h r a reply hi rfl
  exact ⟨hentitled.later hl, fun x hx => (hanswered x hx).later hl⟩

end runs

end DayfiBackend.Infra.ApiKeys
