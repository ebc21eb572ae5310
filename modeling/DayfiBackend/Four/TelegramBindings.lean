import DayfiBackend.Four.TelegramLinks

/-!
# A Telegram account keeps its user

`Bindings` says what messages and requests for links leave of who speaks for whom: an account is
linked to one user, a session is one of the user its account is linked to, a user is created once
for an account that is linked to nobody, and only a message of the account itself changes what it
is linked to.

A request for a link takes any account it is told, and two first messages of one account side by
side create a user each; `bindings` is the result for the runs in which neither happens
(`Careful`).
-/

namespace DayfiBackend.Four.Telegram

open DayfiBackend.Found DayfiBackend.Found.Prog

/-! ### The property -/

/-- The account that the caller of a statement speaks for. -/
def LinkSql.speaksFor {β : Type} : LinkSql β → Option ℕ
  | .linkTelegramUser true l => some l.telegramUserId
  | _ => none

/-- What a step does to the links: that of an account is changed by a message of the account. -/
def Owned {β : Type} (st : LinkSql β) (s t : Tables) : Prop :=
  ∀ n, t.links.bound n ≠ s.links.bound n → st.speaksFor = some n

/-- What is asked of a run from tables `T`. -/
structure Bindings (T : Tables) (requests : List Request)
    (sched : List (ℕ × Except LinkError Outside)) : Prop where
  one : (((begun T requests).run links.machine sched).store.links.rows.map
    (·.telegramUserId)).Nodup
  owned : Pool.Along links.machine
    (Pool.GoodAt links.machine fun _ st _ s _ t => Owned st s t) (begun T requests) sched
  created : ∀ n userId, (n, userId) ∈ ((begun T requests).run links.machine sched).store.created →
    T.links.bound n = none
  once : (((begun T requests).run links.machine sched).store.created.map (·.1)).Nodup
  sessions : ∀ (i : ℕ) (input : TelegramIdentityInput) (session : TelegramSession),
    requests[i]? = some (.resolveTelegramSession input) →
      ((begun T requests).run links.machine sched).procs[i]? =
        some (.ret (.session (.ok session))) →
      session.link.userId = session.user.userId ∧
        ((begun T requests).run links.machine sched).store.links.bound input.telegramUserId =
          some session.user.userId ∧
        (T.links.bound input.telegramUserId = none →
          (((begun T requests).run links.machine sched).store.created.map (·.1)).count
            input.telegramUserId = 1)

/-! ### The condition -/

/-- The condition on the steps of a run: no user has been created for the account that one is
created for, and a request for a link asks for one there is. -/
def Careful {β : Type} (_i : ℕ) (st : LinkSql β) (_o : Except LinkError Outside) (s : Tables) :
    Prop :=
  match st with
  | .insertUser n _ _ => n ∉ s.created.map (·.1)
  | .linkTelegramUser fromTelegram l =>
      fromTelegram = true ∨ s.links.bound l.telegramUserId = some l.userId
  | _ => True

instance {β : Type} (i : ℕ) (st : LinkSql β) (o : Except LinkError Outside) (s : Tables) :
    Decidable (Careful i st o s) := by
  unfold Careful
  split <;> infer_instance

/-! ### Links -/

section rows

variable {l : LinkInput}

/-- An account is linked to what an upsert says, and the others stay. -/
theorem bound_upserted {L L' : Links} {now : ℕ} (hrows : L'.rows = L.upserted l now) (n : ℕ) :
    L'.bound n = if n = l.telegramUserId then some l.userId else L.bound n := by
  unfold Links.bound Links.find
  rw [hrows]
  unfold Links.upserted Links.find
  split_ifs with hsome hn hn
  · subst hn
    obtain ⟨r, hr⟩ := Option.isSome_iff_exists.mp hsome
    rw [List.find?_map]
    have hsame : ((fun r : TelegramLink => decide (r.telegramUserId = l.telegramUserId)) ∘
        fun r => if r.telegramUserId = l.telegramUserId then Links.overwritten r l now else r) =
        fun r => decide (r.telegramUserId = l.telegramUserId) := by
      funext r
      dsimp only [Function.comp_apply]
      split_ifs with h
      · simp [Links.overwritten, h]
      · simp [h]
    rw [hsame, hr]
    have hid : r.telegramUserId = l.telegramUserId := by simpa using List.find?_some hr
    simp [hid, Links.overwritten]
  · rw [List.find?_map, Option.map_map]
    have hsame : ((fun r : TelegramLink => decide (r.telegramUserId = n)) ∘
        fun r => if r.telegramUserId = l.telegramUserId then Links.overwritten r l now else r) =
        fun r => decide (r.telegramUserId = n) := by
      funext r
      dsimp only [Function.comp_apply]
      split_ifs <;> rfl
    rw [hsame]
    cases hr : L.rows.find? (fun r => decide (r.telegramUserId = n)) with
    | none => rfl
    | some r =>
        have hid : r.telegramUserId = n := by simpa using List.find?_some hr
        simp [hid, hn]
  · subst hn
    simp
  · rw [List.find?_cons_of_neg (by simpa using Ne.symm hn)]

/-- What an upsert does. -/
theorem upsert_cases (T : Tables) (l : LinkInput) :
    (∃ e, T.upsert l = (.error e, T)) ∨
      ∃ L r, T.upsert l = (.ok r, { T with links := L }) ∧ L.rows = T.links.upserted l T.time ∧
        r.userId = l.userId := by
  unfold Tables.upsert
  split_ifs with hfits hkey hunique
  · exact .inl ⟨_, rfl⟩
  · exact .inl ⟨_, rfl⟩
  · cases hr : (Links.mk (T.links.upserted l T.time) hunique).find l.telegramUserId with
    | none => exact .inl ⟨_, rfl⟩
    | some r =>
        refine .inr ⟨_, r, rfl, rfl, ?_⟩
        have hrows : (Links.mk (T.links.upserted l T.time) hunique).rows =
            T.links.upserted l T.time := rfl
        have hbound := bound_upserted hrows l.telegramUserId
        unfold Links.bound at hbound
        rw [hr, if_pos rfl] at hbound
        exact Option.some.inj hbound
  · exact .inl ⟨_, rfl⟩

/-- What the insert of a user does. -/
theorem insertUser_cases (T : Tables) (n : ℕ) (user : User) :
    (∃ e, T.insertUser n user = (.error e, T)) ∨
      ∃ U, T.insertUser n user =
        (.ok user, { T with users := U, created := (n, user.userId) :: T.created }) := by
  unfold Tables.insertUser
  split_ifs with hfits hunique
  · exact .inl ⟨_, rfl⟩
  · exact .inr ⟨_, rfl⟩
  · exact .inl ⟨_, rfl⟩

/-- What a touch does. -/
theorem touch_cases (T : Tables) (userId : String) :
    (∃ e, T.touch userId = (.error e, T)) ∨
      ∃ U, T.touch userId = (.ok (), { T with users := U }) := by
  unfold Tables.touch
  dsimp only
  split_ifs with hunique
  · exact .inr ⟨_, rfl⟩
  · exact .inl ⟨_, rfl⟩

end rows

/-! ### The discipline -/

/-- The invariant of the runs from `T`. -/
structure Kept (T s : Tables) : Prop where
  kept : ∀ n userId, T.links.bound n = some userId → s.links.bound n = some userId
  made : ∀ n userId, s.links.bound n = some userId →
    T.links.bound n = some userId ∨ (n, userId) ∈ s.created
  fresh : ∀ n userId, (n, userId) ∈ s.created → T.links.bound n = none
  once : (s.created.map (·.1)).Nodup

/-- What stays while the others step. -/
structure Later (s t : Tables) : Prop where
  bound : ∀ n userId, s.links.bound n = some userId → t.links.bound n = some userId
  created : ∀ x ∈ s.created, x ∈ t.created

theorem Later.refl (s : Tables) : Later s s := ⟨fun _ _ h => h, fun _ h => h⟩

theorem Later.trans {s t u : Tables} (h : Later s t) (h' : Later t u) : Later s u :=
  ⟨fun n userId hs => h'.bound n userId (h.bound n userId hs),
    fun x hx => h'.created x (h.created x hx)⟩

/-- The discipline of the runs from `T`. -/
def linkDiscipline (T : Tables) : Discipline LinkSql (Except LinkError Outside) Tables where
  inv := Kept T
  rely _ := Later
  cond := Careful
  good _ st _ s _ t := Owned st s t
  rely_refl _ := Later.refl
  rely_trans _ _ _ _ := Later.trans

section statements

variable {T s t : Tables} {i n : ℕ} {userId : String} {l : LinkInput}

theorem Owned.of_links {β : Type} {st : LinkSql β} (h : t.links = s.links) : Owned st s t :=
  fun n hne => absurd (by rw [h]) hne

/-- The links and the users created are as they were. -/
theorem Kept.of_same (h : Kept T s) (hlinks : t.links = s.links)
    (hcreated : t.created = s.created) : Kept T t := by
  refine ⟨?_, ?_, ?_, ?_⟩
  · rw [hlinks]
    exact h.kept
  · rw [hlinks, hcreated]
    exact h.made
  · rw [hcreated]
    exact h.fresh
  · rw [hcreated]
    exact h.once

theorem Later.of_same (hlinks : t.links = s.links) (hcreated : t.created = s.created) :
    Later s t :=
  ⟨fun n userId h => by rwa [hlinks], fun x hx => by rwa [hcreated]⟩

/-- The rule of a statement that leaves the links and the users created. -/
theorem triple_same {β : Type} {st : LinkSql (Ans β)} {P : Tables → Prop} {Q : β → Tables → Prop}
    (hstable : ∀ s t, P s → Later s t → P t) (hst : ∀ e, links.fail st e = .error e)
    (hrun : ∀ s o, P s → (st.run o s).2.links = s.links ∧ (st.run o s).2.created = s.created ∧
      ∀ b, (st.run o s).1 = .ok b → Q b (st.run o s).2) :
    Triple links.machine (linkDiscipline T) i P (sql st) Q fun _ _ => True := by
  refine Backend.triple_call hst hstable (fun s e _ _ => ⟨.of_links rfl, trivial⟩)
    fun s o hs hinv _ => ?_
  obtain ⟨hlinks, hcreated, hans⟩ := hrun s o hs
  refine ⟨.of_links hlinks, hinv.of_same hlinks hcreated,
    fun j _ => Later.of_same hlinks hcreated, ?_⟩
  cases hb : (links.run i st o s).1 with
  | ok b => exact hans b hb
  | error e => trivial

/-- A user is created for an account that is linked to nobody. -/
theorem triple_insertUser (firstName : String) (lastName : Option String)
    (hfree : T.links.bound n = none) :
    Triple links.machine (linkDiscipline T) i (fun _ => True)
      (sql (.insertUser n firstName lastName))
      (fun user t => (n, user.userId) ∈ t.created) fun _ _ => True := by
  refine Backend.triple_call (fun _ => rfl) (fun _ _ _ _ => trivial)
    (fun s e _ _ => ⟨.of_links rfl, trivial⟩) fun s o _ hinv hcond => ?_
  have hnew : n ∉ s.created.map (·.1) := hcond
  have hcases := insertUser_cases (s.tick o.elapsed) n
    (newTelegramUser o.newUserId firstName lastName (s.tick o.elapsed).time)
  have hrun : links.run i (.insertUser n firstName lastName) o s =
      (s.tick o.elapsed).insertUser n
        (newTelegramUser o.newUserId firstName lastName (s.tick o.elapsed).time) := rfl
  rw [hrun]
  rcases hcases with ⟨e, he⟩ | ⟨U, hU⟩
  · rw [he]
    exact ⟨.of_links rfl, hinv.of_same rfl rfl, fun j _ => Later.of_same rfl rfl, trivial⟩
  · rw [hU]
    refine ⟨.of_links rfl, ⟨hinv.kept, fun m v hv => ?_, fun m v hv => ?_, ?_⟩,
      fun j _ => ⟨fun m v hv => hv, fun x hx => List.mem_cons_of_mem _ hx⟩, List.mem_cons_self⟩
    · exact (hinv.made m v hv).imp_right (List.mem_cons_of_mem _)
    · rcases List.mem_cons.mp hv with heq | hv
      · rw [(Prod.mk.inj heq).1]
        exact hfree
      · exact hinv.fresh m v hv
    · exact List.nodup_cons.mpr ⟨hnew, hinv.once⟩

/-- Whom an account can be linked to, when a user was created for it. -/
theorem Kept.unique (h : Kept T s) (hmem : (n, userId) ∈ s.created) {v : String}
    (hv : s.links.bound n = some v) : v = userId := by
  rcases h.made n v hv with hbase | hmade
  · rw [h.fresh n userId hmem] at hbase
    cases hbase
  · exact (Prod.mk.inj (List.inj_on_of_nodup_map h.once hmade hmem rfl)).2

/-- An account is linked to the user it is linked to already, or to the one created for it. -/
theorem triple_link {fromTelegram : Bool} {P : Tables → Prop}
    (hstable : ∀ s t, P s → Later s t → P t)
    (hP : ∀ s, P s → (fromTelegram = true ∨ s.links.bound l.telegramUserId = some l.userId) →
      s.links.bound l.telegramUserId = some l.userId ∨
        fromTelegram = true ∧ (l.telegramUserId, l.userId) ∈ s.created) :
    Triple links.machine (linkDiscipline T) i P (sql (.linkTelegramUser fromTelegram l))
      (fun r t => r.userId = l.userId ∧ t.links.bound l.telegramUserId = some l.userId ∧ P t)
      fun _ _ => True := by
  refine Backend.triple_call (fun _ => rfl) hstable
    (fun s e _ _ => ⟨.of_links rfl, trivial⟩) fun s o hs hinv hcond => ?_
  have hrun : links.run i (.linkTelegramUser fromTelegram l) o s =
      (s.tick o.elapsed).upsert l := by
    simp only [links, LinkSql.run, LinkSql.act]
  rw [hrun]
  rcases upsert_cases (s.tick o.elapsed) l with ⟨e, he⟩ | ⟨L, r, hL, hrows, hr⟩
  · rw [he]
    exact ⟨.of_links rfl, hinv.of_same rfl rfl, fun j _ => Later.of_same rfl rfl, trivial⟩
  · rw [hL]
    have hbound : ∀ m, L.bound m =
        if m = l.telegramUserId then some l.userId else s.links.bound m := bound_upserted hrows
    have hcases := hP s hs hcond
    -- what was linked stays linked as it was
    have hkeeps : ∀ m v, s.links.bound m = some v → L.bound m = some v := by
      intro m v hv
      rw [hbound]
      split_ifs with hm
      · subst hm
        rcases hcases with hsame | ⟨-, hmade⟩
        · rw [← hv, hsame]
        · rw [hinv.unique hmade hv]
      · exact hv
    refine ⟨fun m hne => ?_, ⟨fun m v hv => hkeeps m v (hinv.kept m v hv), fun m v hv => ?_,
      hinv.fresh, hinv.once⟩, fun j _ => ⟨hkeeps, fun x hx => hx⟩, hr, ?_,
      hstable s _ hs ⟨hkeeps, fun x hx => hx⟩⟩
    · have hm : m = l.telegramUserId := by
        by_contra hm
        exact hne ((hbound m).trans (if_neg hm))
      subst hm
      rcases hcases with hsame | ⟨rfl, -⟩
      · exact absurd ((hbound _).trans ((if_pos rfl).trans hsame.symm)) hne
      · rfl
    · rw [hbound] at hv
      split_ifs at hv with hm
      · subst hm
        obtain rfl := Option.some.inj hv
        rcases hcases with hsame | ⟨-, hmade⟩
        · exact hinv.made _ _ hsame
        · exact .inr hmade
      · exact hinv.made m v hv
    · exact (hbound _).trans (if_pos rfl)

end statements

/-! ### Every run -/

section runs

variable {T : Tables} {i : ℕ}

/-- What a session is, where nothing is left to be done. -/
def Answers (T : Tables) (n : ℕ) (session : TelegramSession) (t : Tables) : Prop :=
  session.link.userId = session.user.userId ∧
    t.links.bound n = some session.user.userId ∧
    (T.links.bound n = none → (n, session.user.userId) ∈ t.created)

/-- A message of an account that was found to be linked. -/
theorem triple_knownSession {n : ℕ} (link : TelegramLink) :
    Triple links.machine (linkDiscipline T) i
      (fun s => s.links.bound n = some link.userId ∧
        (T.links.bound n = none → (n, link.userId) ∈ s.created))
      (knownSession link) (Answers T n) fun _ _ => True := by
  have hstable : ∀ (v : String) (s t : Tables),
      (s.links.bound n = some v ∧ (T.links.bound n = none → (n, v) ∈ s.created)) → Later s t →
        t.links.bound n = some v ∧ (T.links.bound n = none → (n, v) ∈ t.created) :=
    fun v s t hs hr => ⟨hr.bound n v hs.1, fun hnone => hr.created _ (hs.2 hnone)⟩
  refine Triple.bind (R := fun found s => (∀ u ∈ found, u.userId = link.userId) ∧
    s.links.bound n = some link.userId ∧
      (T.links.bound n = none → (n, link.userId) ∈ s.created)) ?_ fun found => ?_
  · refine triple_same (hstable _) (fun _ => rfl) fun s o hs => ⟨rfl, rfl, fun b hb => ?_⟩
    obtain rfl := Except.ok.inj hb
    refine ⟨fun u hu => ?_, hs⟩
    obtain ⟨hfind, -⟩ := Option.filter_eq_some_iff.mp hu
    simpa using List.find?_some hfind
  · cases found with
    | none => exact Triple.throw fun _ _ => trivial
    | some user =>
        refine Triple.bind (R := fun _ s => user.userId = link.userId ∧
          s.links.bound n = some link.userId ∧
            (T.links.bound n = none → (n, link.userId) ∈ s.created)) ?_ fun _ => ?_
        · refine triple_same (fun s t hs hr => ⟨hs.1, hstable _ s t hs.2 hr⟩) (fun _ => rfl)
            fun s o hs => ?_
          have hrun : (LinkSql.touchLastSeen user.userId).run o s =
            (s.tick o.elapsed).touch user.userId := rfl
          have hid := hs.1 user rfl
          rw [hrun]
          rcases touch_cases (s.tick o.elapsed) user.userId with ⟨e, he⟩ | ⟨U, hU⟩
          · rw [he]
            exact ⟨rfl, rfl, fun b hb => (by cases hb)⟩
          · rw [hU]
            exact ⟨rfl, rfl, fun _ _ => ⟨hid, hs.2⟩⟩
        · refine Triple.pure fun s hs => ⟨hs.1.symm, ?_, ?_⟩
          · rw [hs.1]
            exact hs.2.1
          · rw [hs.1]
            exact hs.2.2

/-- A message of an account that was found to be linked to nobody. -/
theorem triple_newSession {input : TelegramIdentityInput}
    (hfree : T.links.bound input.telegramUserId = none) :
    Triple links.machine (linkDiscipline T) i (fun _ => True) (newSession input)
      (Answers T input.telegramUserId) fun _ _ => True := by
  unfold newSession
  refine Triple.bind (triple_insertUser _ _ hfree) fun user => ?_
  refine Triple.bind (triple_link (P := fun s => (input.telegramUserId, user.userId) ∈ s.created)
    (fun s t hs hr => hr.created _ hs) fun s hs _ => .inr ⟨rfl, hs⟩) fun link => ?_
  exact Triple.pure fun s hs => ⟨hs.1, hs.2.1, fun _ => hs.2.2⟩

/-- What the lookup of a Telegram account has found. -/
def LookedUp (T : Tables) (n : ℕ) (t : Tables) : Option TelegramLink → Prop
  | some link => t.links.bound n = some link.userId ∧
      (T.links.bound n = none → (n, link.userId) ∈ t.created)
  | none => T.links.bound n = none

/-- A message runs under the discipline. -/
theorem triple_resolve (input : TelegramIdentityInput) :
    Triple links.machine (linkDiscipline T) i (fun _ => True) (resolveTelegramSession input)
      (Answers T input.telegramUserId) fun _ _ => True := by
  refine Triple.bind (R := fun found s => LookedUp T input.telegramUserId s found) ?_
    fun found => ?_
  · refine Backend.triple_call (fun _ => rfl) (fun _ _ _ _ => trivial)
      (fun s e _ _ => ⟨.of_links rfl, trivial⟩) fun s o _ hinv _ => ?_
    refine ⟨.of_links rfl, hinv.of_same rfl rfl, fun j _ => Later.of_same rfl rfl, ?_⟩
    show LookedUp T input.telegramUserId s (s.links.find input.telegramUserId)
    cases hfind : s.links.find input.telegramUserId with
    | some link =>
        have hbound : s.links.bound input.telegramUserId = some link.userId :=
          congrArg (Option.map _) hfind
        refine ⟨hbound, fun hnone => (hinv.made _ _ hbound).resolve_left ?_⟩
        rw [hnone]
        simp
    | none =>
        have hbound : s.links.bound input.telegramUserId = none := congrArg (Option.map _) hfind
        by_contra hsome
        obtain ⟨v, hv⟩ := Option.ne_none_iff_exists'.mp hsome
        rw [hinv.kept _ v hv] at hbound
        cases hbound
  · cases found with
    | some link => exact triple_knownSession link
    | none =>
        intro s hfree
        exact triple_newSession hfree s trivial

/-- What a request comes to, where nothing is left to be done. -/
def Ends (T : Tables) (requests : List Request) (i : ℕ) (outcome : Outcome) (t : Tables) : Prop :=
  ∀ input session, requests[i]? = some (.resolveTelegramSession input) →
    outcome = .session (.ok session) → Answers T input.telegramUserId session t

theorem verified_request {requests : List Request} {r : Request} (hi : requests[i]? = some r)
    (s : Tables) :
    wp links.machine (linkDiscipline T) i r.program (Ends T requests i) s := by
  cases r with
  | resolveTelegramSession input =>
      refine (wp_bind _ _ _ _).mpr (wp_mono (fun b t hb => ?_) _ _ (triple_resolve input s trivial))
      refine (wp_ret _ _ _ _ _ _).mpr fun input' session hi' hsession => ?_
      obtain rfl : input = input' :=
        Request.resolveTelegramSession.inj (Option.some.inj (hi.symm.trans hi'))
      obtain rfl := Outcome.session.inj hsession
      exact hb
  | linkTelegram l =>
      refine (wp_bind _ _ _ _).mpr (wp_mono (fun b t _ => ?_) _ _
        (triple_link (P := fun _ => True) (fun _ _ _ _ => trivial)
          (fun s _ hs => .inl (hs.resolve_left (by simp))) s trivial))
      exact (wp_ret _ _ _ _ _ _).mpr fun input session _ hsession => (by cases hsession)

/-- **Telegram accounts stay bound to their owner**, in every run in which no user is created twice
for an account, and a request for a link asks for one there is. -/
theorem bindings (T : Tables) (requests : List Request)
    (sched : List (ℕ × Except LinkError Outside))
    (hc : Pool.Along links.machine (Pool.CondAt Careful) (begun T requests) sched) :
    Bindings T requests sched := by
  have hstart : Pool.Verified links.machine (linkDiscipline T) (Ends T requests)
      (begun T requests) := by
    refine Pool.Verified.start ⟨fun _ _ h => h, fun _ _ h => .inl h, fun _ _ h => (by cases h),
      List.nodup_nil⟩ fun i p hp => ?_
    obtain ⟨r, hi, rfl⟩ := Option.map_eq_some_iff.mp ((List.getElem?_map ..).symm.trans hp)
    exact verified_request hi _
  obtain ⟨hend, hgood⟩ := Pool.run_sound hstart sched hc
  refine ⟨((begun T requests).run links.machine sched).store.links.unique.1, hgood,
    hend.1.fresh, hend.1.once, fun i input session hi hret => ?_⟩
  obtain ⟨s, hs, hlater⟩ := hend.result hret
  obtain ⟨hlink, hbound, hcreated⟩ := hs input session hi rfl
  refine ⟨hlink, hlater.bound _ _ hbound, fun hnone => ?_⟩
  exact List.count_eq_one_of_mem hend.1.once
    (List.mem_map_of_mem (hlater.created _ (hcreated hnone)))

end runs

/-! ### Two users and one account -/

/-- Ada has linked her Telegram account, and Bola has an account with the app. -/
def adaLinked : Tables where
  users := ⟨[{ userId := "ada", status := .active }, { userId := "bola", status := .active }],
    by decide +kernel⟩
  links := ⟨[⟨1, "ada", some 1, none, 0⟩], by decide⟩

/-- The turns of a request. -/
def turns (i n : ℕ) (newUserId : String := "new") : List (ℕ × Except LinkError Outside) :=
  List.replicate n (i, .ok { newUserId := newUserId })

/-- The user of a session that was returned. -/
def sessionUser : Prog LinkSql Outcome → Option String
  | .ret (.session (.ok session)) => some session.user.userId
  | _ => none

/-- Bola asks for a link to Ada's account, and a message of Ada. -/
def stolen : List Request := [.linkTelegram ⟨"bola", 1, none, none⟩,
  .resolveTelegramSession { telegramUserId := 1, chatId := 1 }]

/-- Ada's next message is answered as Bola. -/
theorem bola_speaks_for_ada :
    ((begun adaLinked stolen).run links.machine (turns 0 1 ++ turns 1 3)).procs.map sessionUser =
        [none, some "bola"] ∧
      ¬ Bindings adaLinked stolen (turns 0 1 ++ turns 1 3) := by
  refine ⟨by decide +kernel, fun h => ?_⟩
  have howned : Owned (LinkSql.linkTelegramUser false ⟨"bola", 1, none, none⟩) adaLinked
      ((adaLinked.tick 0).upsert ⟨"bola", 1, none, none⟩).2 := h.owned.1 _ _ rfl
  have hspeaks := howned 1 (by decide +kernel)
  cases hspeaks

/-- Two first messages of one account, side by side. -/
def twice : List Request := [.resolveTelegramSession { telegramUserId := 2, chatId := 2 },
  .resolveTelegramSession { telegramUserId := 2, chatId := 2 }]

/-- They create a user each, and the first session is of a user whom nothing leads to. -/
theorem two_users_for_one_account :
    ((begun adaLinked twice).run links.machine
      (turns 0 1 ++ turns 1 1 ++ turns 0 2 "c" ++ turns 1 2 "d")).procs.map sessionUser =
        [some "c", some "d"] ∧
      ¬ Bindings adaLinked twice (turns 0 1 ++ turns 1 1 ++ turns 0 2 "c" ++ turns 1 2 "d") := by
  refine ⟨by decide +kernel, fun h => ?_⟩
  have honce := h.once
  revert honce
  decide +kernel

/-- Messages of Ada and, twice, of an account that is linked to nobody, and a request of Ada. -/
theorem bindings_side_by_side : Bindings adaLinked
    [.resolveTelegramSession { telegramUserId := 1, chatId := 1 },
      .resolveTelegramSession { telegramUserId := 2, chatId := 2 },
      .resolveTelegramSession { telegramUserId := 2, chatId := 2 },
      .linkTelegram ⟨"ada", 1, some 1, none⟩]
    (turns 0 1 ++ turns 1 2 ++ turns 3 1 ++ turns 0 2 ++ turns 1 1 ++ turns 2 3) :=
  bindings adaLinked _ _ (by decide +kernel)

end DayfiBackend.Four.Telegram
