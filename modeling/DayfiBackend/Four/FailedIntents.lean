import DayfiBackend.Four.Intents

/-!
# Failed intents

An authorization records how its execution has ended: `RecordedTruly` says that an intent is
recorded as failed only if nothing was moved for it, and that it is recorded as completed when its
execution has succeeded. The execution, the bookkeeping after it and the messages share one `try`;
`intents_are_recorded_truly` is the result for the runs in which an execution that throws has moved
nothing, and nothing but a push fails after an execution that has succeeded.
-/

namespace DayfiBackend.Four.Intents

open DayfiBackend.Found DayfiBackend.Found.Prog

/-! ### The property -/

/-- What a call has come to: whether something it executed has moved money, whether its execution
has succeeded, and the status that it has recorded last. -/
structure Told where
  moved : Bool := false
  sent : Bool := false
  recorded : Option IntentStatus := none
  deriving DecidableEq, Repr

/-- What a call has come to, once a statement is answered. -/
def IntentSql.told {β : Type} (st : IntentSql β) (o : Outside) (b : β) (told : Told) : Told :=
  match st, b with
  | .execute .., _ =>
      { told with moved := told.moved || o.moves, sent := told.sent || o.answer.isOk }
  | .recordOutbound .., _ => { told with moved := told.moved || o.moves }
  | .update _ _ p, .ok _ => { told with recorded := some p.status }
  | _, _ => told

/-- What has come is noted. -/
def telling {β : Type} (st : IntentSql β) (o : Except IntentError Outside) (_ : Tables) (b : β)
    (_ : Tables) (told : Told) : Told :=
  match o with
  | .ok o => st.told o b told
  | .error _ => told

/-- The tables, and what each call has come to. -/
abbrev Telling := Tables × (ℕ → Told)

/-- The statements over the tables, and what each call has come to. -/
def toldIntents : Machine IntentSql (Except IntentError Outside) Telling :=
  intents.machine.noting telling

/-- Calls record how their executions have ended. -/
structure RecordedTruly (P : Pool IntentSql Outcome Telling) : Prop where
  failed : ∀ i, (P.store.2 i).recorded = some .failed → (P.store.2 i).moved = false
  completed : ∀ i outcome, P.procs[i]? = some (.ret outcome) → (P.store.2 i).sent = true →
    (P.store.2 i).recorded = some .completed

/-- The requests from given tables, before any has begun. -/
def begunFrom (T : Tables) (requests : List Request) : Pool IntentSql Outcome Telling :=
  Pool.noted ⟨T, (begun requests).procs⟩ {}

/-! ### The condition -/

/-- The condition on a statement: an execution that throws has not moved money, and after one that
has succeeded its debits are recorded and nothing fails but a push. -/
def IntentSql.Undisturbed {β : Type} (st : IntentSql β) (o : Except IntentError Outside)
    (told : Told) : Prop :=
  match st, o with
  | .execute .., .ok o => o.answer.isOk = false → o.moves = false
  | .execute .., .error _ => True
  | .recordOutbound .., .ok o => o.answer.isOk = true
  | .recordOutbound .., .error _ => False
  | .push .., _ => True
  | _, .ok _ => True
  | _, .error _ => told.sent = false

/-- The condition on the steps of a run. -/
def Undisturbed {β : Type} (i : ℕ) (st : IntentSql β) (o : Except IntentError Outside)
    (s : Telling) : Prop := st.Undisturbed o (s.2 i)

instance {β : Type} (i : ℕ) (st : IntentSql β) (o : Except IntentError Outside) (s : Telling) :
    Decidable (Undisturbed i st o s) :=
  decidable_of_bool (match st, o with
    | .execute .., .ok o => decide (o.answer.isOk = false → o.moves = false)
    | .execute .., .error _ => true
    | .recordOutbound .., .ok o => o.answer.isOk
    | .recordOutbound .., .error _ => false
    | .push .., _ => true
    | _, .ok _ => true
    | _, .error _ => !(s.2 i).sent) (by
      cases o <;> cases st <;>
        first | exact decide_eq_true_iff | simp [Undisturbed, IntentSql.Undisturbed])

/-! ### The discipline -/

/-- A call that has recorded a failure has moved nothing. -/
def Told.Honest (told : Told) : Prop := told.recorded = some .failed → told.moved = false

/-- The discipline of the records. -/
def toldDiscipline : Discipline IntentSql (Except IntentError Outside) Telling where
  inv s := ∀ i, (s.2 i).Honest
  rely := Counts
  cond := Undisturbed
  good _ _ _ s _ t := s.1.Later t.1
  rely_refl := Counts.refl
  rely_trans _ _ _ _ := Counts.trans

/-- What a call does under the discipline. -/
abbrev Tells (i : ℕ) {α : Type} (P : Telling → Prop) (call : IntentCall α)
    (Q : α → Telling → Prop) (E : IntentError → Telling → Prop) : Prop :=
  Triple toldIntents toldDiscipline i P call Q E

/-- What is known of a call. -/
def Knows (i : ℕ) (φ : Told → Prop) (s : Telling) : Prop := φ (s.2 i)

/-- Its row is there. -/
def Has (userId : String) (id : ℕ) (s : Telling) : Prop :=
  ∃ r ∈ s.1.intents, r.id = id ∧ r.userId = userId

/-- Nothing was executed. -/
structure Told.Idle (told : Told) : Prop where
  moved : told.moved = false
  sent : told.sent = false
  recorded : told.recorded ≠ some .failed

/-- The execution has succeeded. -/
structure Told.Sent (told : Told) : Prop where
  sent : told.sent = true
  recorded : told.recorded ≠ some .failed

/-- An execution that has succeeded is recorded. -/
def Told.Settled (told : Told) : Prop := told.sent = true → told.recorded = some .completed

section records

variable {i : ℕ} {s t : Telling} {T : Tables} {N : ℕ → Told} {told : Told} {φ : Told → Prop}
  {α : Type}

theorem Told.Idle.settled (h : told.Idle) : told.Settled := fun hsent => by
  rw [h.sent] at hsent
  cases hsent

theorem stays_knows (i : ℕ) (φ : Told → Prop) : Stays i (Knows i φ) := fun _ _ hs h => by
  unfold Knows
  rw [h.own]
  exact hs

theorem Has.later {userId : String} {id : ℕ} (hs : Has userId id s) (h : s.1.Later t.1) :
    Has userId id t := by
  obtain ⟨r, hr, hid, huser⟩ := hs
  obtain ⟨r', hr', hid', huser'⟩ := h.rows r hr
  exact ⟨r', hr', hid'.trans hid, huser'.trans huser⟩

theorem stays_has (userId : String) (id : ℕ) : Stays i (Has userId id) :=
  fun _ _ hs h => hs.later h.later

/-- A row that is there stays there. -/
theorem told_has {P : Telling → Prop} {call : IntentCall α} {Q : α → Telling → Prop}
    {E : IntentError → Telling → Prop} (h : Tells i P call Q E) (userId : String) (id : ℕ) :
    Tells i (fun s => P s ∧ Has userId id s) call (fun a s => Q a s ∧ Has userId id s)
      fun e s => E e s ∧ Has userId id s :=
  h.frame (fun _ _ hs hst => hs.later hst.later) fun _ _ _ _ _ hgood hs => hs.later hgood

theorem Stays.and {P P' : Telling → Prop} (h : Stays i P) (h' : Stays i P') :
    Stays i fun s => P s ∧ P' s := fun s t hs hst => ⟨h s t hs.1 hst, h' s t hs.2 hst⟩

/-- The rule of a statement. -/
theorem triple_told {st : IntentSql (Ans α)} {P : Telling → Prop} {Q : α → Telling → Prop}
    {E : IntentError → Telling → Prop} (hst : ∀ e, st.fail e = .error e) (hP : Stays i P)
    (hfail : ∀ s e, P s → st.Undisturbed (.error e) (s.2 i) → E e s)
    (hhonest : ∀ T N o, P (T, N) → st.Undisturbed (.ok o) (N i) → (N i).Honest →
      (st.told o (st.act o T).1 (N i)).Honest)
    (hok : ∀ T N o b, P (T, N) → st.Undisturbed (.ok o) (N i) → (st.act o T).1 = .ok b →
      Q b ((st.act o T).2, Function.update N i (st.told o (.ok b) (N i))))
    (herror : ∀ T N o e, P (T, N) → st.Undisturbed (.ok o) (N i) → (st.act o T).1 = .error e →
      E e ((st.act o T).2, Function.update N i (st.told o (.error e) (N i)))) :
    Tells i P (sql st) Q E := by
  refine Backend.triple_noted hst (fun _ _ _ _ _ => rfl) hP
    (fun s e hs hc => ⟨.refl s.1, hfail s e hs hc⟩) fun s o t hs hinv hc ht hnote => ?_
  set T := s.1.tick o.elapsed
  have hticked : Counts i s (T, s.2) := ⟨rfl, .of_rows rfl fun _ h => h⟩
  have hs' : P (T, s.2) := hP _ _ hs hticked
  have hfull : t = ((st.act o T).2, Function.update s.2 i (st.told o (st.act o T).1 (s.2 i))) :=
    Prod.ext ht hnote
  subst hfull
  have hlater : s.1.Later (st.act o T).2 := hticked.later.trans (st.later_act o T)
  refine ⟨hlater, fun j => ?_, fun j hj => ⟨Function.update_of_ne hj .., hlater⟩, ?_⟩
  · show (Function.update s.2 i (st.told o (st.act o T).1 (s.2 i)) j).Honest
    by_cases hj : j = i
    · subst hj
      rw [Function.update_self]
      exact hhonest T s.2 o hs' hc (hinv j)
    · rw [Function.update_of_ne hj]
      exact hinv j
  · cases hb : (intents.run i st o s.1).1 with
    | error e =>
        have hb' : (st.act o T).1 = .error e := hb
        rw [hb']
        exact herror T s.2 o e hs' hc hb'
    | ok b =>
        have hb' : (st.act o T).1 = .ok b := hb
        rw [hb']
        exact hok T s.2 o b hs' hc hb'

/-- A statement of which nothing is noted, and which the condition lets fail only before the
execution has succeeded. -/
theorem told_quiet {st : IntentSql (Ans α)} {P : Telling → Prop} {Q : α → Telling → Prop}
    (hst : ∀ e, st.fail e = .error e) (hP : Stays i P)
    (htold : ∀ o b told, st.told o b told = told)
    (hfail : ∀ e told, st.Undisturbed (.error e) told → told.sent = false)
    (hact : ∀ o T e, (st.act o T).1 ≠ .error e)
    (hQ : ∀ T N o b, P (T, N) → (st.act o T).1 = .ok b → P ((st.act o T).2, N) →
      Q b ((st.act o T).2, N)) :
    Tells i P (sql st) Q fun _ s => P s ∧ (s.2 i).sent = false := by
  refine triple_told hst hP (fun s e hs hc => ⟨hs, hfail e _ hc⟩) (fun T N o _ _ h => ?_)
    (fun T N o b hs _ hb => ?_) fun T N o e _ _ he => absurd he (hact o T e)
  · rw [htold]
    exact h
  · rw [htold, Function.update_eq_self]
    exact hQ T N o b hs hb (hP _ _ hs ⟨rfl, st.later_act o T⟩)

/-- The row is read. -/
theorem told_read (userId : String) (id : ℕ) {P : Telling → Prop} (hP : Stays i P) :
    Tells i P (getIntentForUser userId id) (fun found s => P s ∧
      (Has userId id s → ∃ r, found = some r) ∧
        ∀ r, found = some r → r.id = id ∧ Has userId id s)
      fun _ s => P s ∧ (s.2 i).sent = false := by
  refine told_quiet (fun _ => rfl) hP (fun _ _ _ => rfl) (fun _ _ h => h)
    (fun _ _ _ h => by cases h) fun T N o b _ hb hs => ⟨hs, ?_, ?_⟩
  · rintro ⟨r, hr, hid, huser⟩
    obtain rfl := Except.ok.inj hb
    refine Option.isSome_iff_exists.mp (List.find?_isSome.mpr ⟨r, hr, ?_⟩)
    simp [hid, huser]
  · intro r hfound
    obtain rfl := Except.ok.inj hb
    obtain ⟨hmem, hid, huser⟩ := intentForUser_some hfound
    exact ⟨hid, r, hmem, hid, huser⟩

/-- A row is written with a new status. -/
theorem told_write {userId : String} {id : ℕ} {p : Tables.IntentPatch} {ψ : Told → Prop}
    {E : IntentError → Telling → Prop}
    (hfail : ∀ s e, Knows i φ s ∧ Has userId id s → (s.2 i).sent = false → E e s)
    (hhonest : ∀ told : Told, φ told → Told.Honest { told with recorded := some p.status })
    (hψ : ∀ told : Told, φ told → ψ { told with recorded := some p.status }) :
    Tells i (fun s => Knows i φ s ∧ Has userId id s) (sql (.update userId id p))
      (fun _ s => Knows i ψ s ∧ Has userId id s) E := by
  have hsome : ∀ T N, Has userId id (T, N) → ∃ r, T.intentForUser userId id = some r := by
    rintro T N ⟨r, hr, hid, huser⟩
    refine Option.isSome_iff_exists.mp (List.find?_isSome.mpr ⟨r, hr, ?_⟩)
    simp [hid, huser]
  refine triple_told (fun _ => rfl) ((stays_knows i φ).and (stays_has userId id)) hfail
    (fun T N o hs _ _ => ?_) (fun T N o b hs _ hb => ⟨?_, ?_⟩) fun T N o e hs _ he => ?_
  · obtain ⟨r, hr⟩ := hsome T N hs.2
    rw [act_update, hr]
    exact hhonest _ hs.1
  · show ψ (Function.update N i _ i)
    rw [Function.update_self]
    exact hψ _ hs.1
  · exact hs.2.later (IntentSql.later_act _ o T)
  · obtain ⟨r, hr⟩ := hsome T N hs.2
    rw [act_update, hr] at he
    cases he

/-- A row is updated when nothing was executed. -/
theorem told_idle (userId : String) (id : ℕ) {status : IntentStatus} {ψ : Told → Prop}
    (metadata : Option (List (String × String))) (hidle : ∀ told : Told, told.Idle → ψ told)
    (hψ : ∀ told : Told, told.Idle → ψ { told with recorded := some status }) :
    Tells i (Knows i Told.Idle) (updateIntent userId id status metadata)
      (fun _ => Knows i ψ) fun _ => Knows i Told.Idle := by
  refine Triple.bind (Triple.mono (told_read userId id (stays_knows i Told.Idle))
    (fun _ hs => hs) (fun _ _ hs => hs) fun _ _ hs => hs.1) fun found => ?_
  cases found with
  | none => exact Triple.pure fun s hs => hidle _ hs.1
  | some existing =>
      refine Triple.mono (Triple.bind (told_write (fun s _ hs _ => hs.1)
        (fun told h _ => h.moved) hψ) fun _ => Triple.pure fun _ hs => hs.1)
          (fun s hs => ⟨hs.1, ?_⟩) (fun _ _ hs => hs) fun _ _ hs => hs
      exact (hs.2.2 existing rfl).2

/-- A row is marked before anything is executed. -/
theorem told_mark (userId : String) (id : ℕ) {status : IntentStatus} (hstatus : status ≠ .failed) :
    Tells i (Knows i Told.Idle) (updateIntent userId id status) (fun _ => Knows i Told.Idle)
      fun _ => Knows i Told.Idle :=
  told_idle userId id none (fun _ h => h) fun _ h =>
    ⟨h.moved, h.sent, fun he => hstatus (Option.some.inj he)⟩

/-- The execution is called. -/
theorem told_execute (intent : Intent) (payment : Payment) :
    Tells i (Knows i Told.Idle) (sql (.execute intent payment)) (fun _ => Knows i Told.Sent)
      fun _ => Knows i Told.Idle := by
  refine triple_told (fun _ => rfl) (stays_knows i _) (fun s e hs _ => hs)
    (fun T N o hs _ _ => ?_) (fun T N o b hs _ hb => ?_) fun T N o e hs hc he => ?_
  · exact fun hfailed => absurd hfailed hs.recorded
  · have hanswer : o.answer.isOk = true := by
      cases ha : o.answer with
      | ok x => rfl
      | error x =>
          have hb' : o.answer.mapError IntentError.execution = .ok b := hb
          rw [ha] at hb'
          cases hb'
    show Told.Sent (Function.update N i _ i)
    rw [Function.update_self]
    exact ⟨by simp [IntentSql.told, hanswer], hs.recorded⟩
  · -- an execution that throws has not moved money
    have hanswer : o.answer.isOk = false := by
      cases ha : o.answer with
      | error x => rfl
      | ok x =>
          have he' : o.answer.mapError IntentError.execution = .error e := he
          rw [ha] at he'
          cases he'
    show Told.Idle (Function.update N i _ i)
    rw [Function.update_self]
    have hidle : (N i).Idle := hs
    exact ⟨by simp [IntentSql.told, hidle.moved, hc hanswer],
      by simp [IntentSql.told, hidle.sent, hanswer], hidle.recorded⟩

/-- The debits are recorded. -/
theorem told_record (intent : Intent) (payment : Payment) (txHash : String)
    {E : IntentError → Telling → Prop} :
    Tells i (Knows i Told.Sent) (sql (.recordOutbound intent payment txHash))
      (fun _ => Knows i Told.Sent) E := by
  refine triple_told (fun _ => rfl) (stays_knows i _) (fun s e _ hc => absurd hc id)
    (fun T N o hs _ _ => ?_) (fun T N o b hs _ _ => ?_) fun T N o e hs hc he => ?_
  · exact fun hfailed => absurd hfailed hs.recorded
  · show Told.Sent (Function.update N i _ i)
    rw [Function.update_self]
    exact ⟨hs.sent, hs.recorded⟩
  · have he' : (o.answer.mapError IntentError.execution).map (fun _ => ()) = .error e := he
    have hc' : o.answer.isOk = true := hc
    cases ha : o.answer with
    | ok x =>
        rw [ha] at he'
        cases he'
    | error x =>
        rw [ha] at hc'
        cases hc'

/-- The intent is executed. -/
theorem told_payment (intent : Intent) :
    Tells i (Knows i Told.Idle) (execute intent) (fun _ => Knows i Told.Sent)
      fun _ => Knows i Told.Idle := by
  unfold execute
  split
  · exact Triple.throw fun _ hs => hs
  · rename_i payment hpayment
    refine Triple.bind (told_execute intent payment) fun sent => ?_
    cases payment with
    | crypto amount asset network recipient =>
        exact Triple.bind (told_record intent _ sent.reference) fun _ => Triple.pure fun _ hs => hs
    | _ => exact Triple.pure fun _ hs => hs

/-- The execution has succeeded, and is recorded. -/
structure Told.Done (told : Told) : Prop where
  sent : told.sent = true
  recorded : told.recorded = some .completed

/-- The row of an execution that has succeeded is completed. -/
theorem told_completed (userId : String) (id : ℕ) (metadata : Option (List (String × String)))
    {E : IntentError → Telling → Prop} :
    Tells i (fun s => Knows i Told.Sent s ∧ Has userId id s)
      (updateIntent userId id .completed metadata)
      (fun row s => Knows i Told.Done s ∧ row.isSome) E := by
  have hsent : ∀ s, (Knows i Told.Sent s ∧ Has userId id s) ∧ (s.2 i).sent = false → False := by
    rintro s ⟨⟨hs, -⟩, hfalse⟩
    exact absurd (hs.sent.symm.trans hfalse) (by simp)
  refine Triple.bind (Triple.mono
    (told_read userId id ((stays_knows i Told.Sent).and (stays_has userId id))) (fun _ hs => hs)
      (fun _ _ hs => hs) fun _ s hs => (hsent s hs).elim) fun found => ?_
  cases found with
  | none =>
      refine Triple.pure fun s hs => ?_
      obtain ⟨r, hr⟩ := hs.2.1 hs.1.2
      cases hr
  | some existing =>
      refine Triple.mono (Triple.bind (told_write (ψ := Told.Done)
        (fun s _ hs hfalse => (hsent s ⟨hs, hfalse⟩).elim) (fun told _ => ?_)
          fun told h => ⟨h.sent, rfl⟩) fun _ => Triple.pure fun _ hs => ⟨hs.1, rfl⟩)
            (fun s hs => hs.1) (fun _ _ hs => hs) fun _ _ hs => hs
      intro hfailed
      cases hfailed

/-- A message is stored. -/
theorem told_append (m : Message) {P : Telling → Prop} (hP : Stays i P) :
    Tells i P (sql (.appendMessage m)) (fun _ => P) fun _ s => P s ∧ (s.2 i).sent = false :=
  told_quiet (fun _ => rfl) hP (fun _ _ _ => rfl) (fun _ _ h => h) (fun _ _ _ h => by cases h)
    fun _ _ _ _ _ _ hs => hs

/-- A push is delivered, or not. -/
theorem told_push (userId content : String) {P : Telling → Prop} (hP : Stays i P)
    {E : IntentError → Telling → Prop} :
    Tells i P (deliverAzapPush userId content) (fun _ => P) E := by
  refine Triple.tryCatch (F := fun _ => P) ?_ fun _ => Triple.pure fun _ hs => hs
  refine triple_told (fun _ => rfl) hP (fun _ _ hs _ => hs) (fun _ _ _ _ _ h => h)
    (fun T N o b hs _ _ => ?_) fun T N o e _ _ he => by cases he
  show P (T, Function.update N i (N i))
  rwa [Function.update_eq_self]

/-- The intent is executed and completed. -/
theorem told_complete (userId : String) (intent : Intent) :
    Tells i (fun s => Knows i Told.Idle s ∧ Has userId intent.id s) (complete userId intent)
      (fun _ => Knows i Told.Done) fun _ => Knows i Told.Idle := by
  have hdone : ∀ s, Knows i Told.Done s ∧ (s.2 i).sent = false → False := by
    rintro s ⟨hs, hfalse⟩
    exact absurd (hs.sent.symm.trans hfalse) (by simp)
  refine Triple.bind (Triple.mono (told_has (told_payment intent) userId intent.id)
    (fun _ hs => hs) (fun _ _ hs => hs) fun _ _ hs => hs.1) fun execution => ?_
  refine Triple.bind (told_completed userId intent.id _) fun completed => ?_
  cases completed with
  | none =>
      intro s hs
      cases hs.2
  | some row =>
      refine Triple.mono (Triple.bind (Triple.mono (told_append _ (stays_knows i Told.Done))
        (fun _ hs => hs) (fun _ _ hs => hs) fun _ s hs => (hdone s hs).elim) fun _ =>
          Triple.bind (told_push _ _ (stays_knows i Told.Done)) fun _ =>
            Triple.pure fun _ hs => hs) (fun _ hs => hs.1) (fun _ _ hs => hs) fun _ _ hs => hs

/-- Nothing has been sent. -/
def Told.Unsent (told : Told) : Prop := told.sent = false

/-- The intent has failed. -/
theorem told_failed (userId : String) (intent : Intent) (e : IntentError)
    {Q : Intent × Execution → Telling → Prop} :
    Tells i (Knows i Told.Idle) (failed userId intent e) Q fun _ => Knows i Told.Unsent := by
  have hunsent : ∀ s, Knows i Told.Idle s → Knows i Told.Unsent s := fun s hs => hs.sent
  refine Triple.bind (Triple.mono (told_idle userId intent.id _ (ψ := Told.Unsent)
    (fun _ h => h.sent) fun _ h => h.sent) (fun _ hs => hs) (fun _ _ hs => hs)
      fun _ s hs => hunsent s hs) fun _ => ?_
  refine Triple.bind (Triple.mono (told_append _ (stays_knows i Told.Unsent)) (fun _ hs => hs)
    (fun _ _ hs => hs) fun _ _ hs => hs.1) fun _ => ?_
  exact Triple.bind (told_push _ _ (stays_knows i Told.Unsent)) fun _ => Triple.throw fun _ hs => hs

/-- A statement that nothing is noted of, before anything is executed. -/
theorem told_look {st : IntentSql (Ans α)} (hst : ∀ e, st.fail e = .error e)
    (htold : ∀ o b told, st.told o b told = told) :
    Tells i (Knows i Told.Idle) (sql st) (fun _ => Knows i Told.Idle)
      fun _ => Knows i Told.Idle := by
  have hidle : ∀ T N o b, Knows i Told.Idle (T, N) →
      Knows i Told.Idle ((st.act o T).2, Function.update N i (st.told o b (N i))) := by
    intro T N o b hs
    rw [htold, Function.update_eq_self]
    exact hs
  refine triple_told hst (stays_knows i _) (fun _ _ hs _ => hs) (fun T N o _ _ h => ?_)
    (fun T N o b hs _ _ => hidle T N o _ hs) fun T N o e hs _ _ => hidle T N o _ hs
  rw [htold]
  exact h

theorem told_first (userId : String) (id : ℕ) :
    Tells i (Knows i Told.Idle) (getIntentForUser userId id)
      (fun found s => Knows i Told.Idle s ∧ ∀ r, found = some r → r.id = id ∧ Has userId id s)
        fun _ => Knows i Told.Idle :=
  Triple.mono (told_read userId id (stays_knows i Told.Idle)) (fun _ hs => hs)
    (fun _ _ hs => ⟨hs.1, hs.2.2⟩) fun _ _ hs => hs.1

/-- From the PIN on. -/
theorem told_authorize (userId pin : String) (intent : Intent) :
    Tells i (fun s => Knows i Told.Idle s ∧ Has userId intent.id s) (authorize userId pin intent)
      (fun _ => Knows i Told.Settled) fun _ => Knows i Told.Settled := by
  have hsettled : ∀ s, Knows i Told.Idle s → Knows i Told.Settled s := fun s hs => hs.settled
  have hlook : ∀ {β : Type} {st : IntentSql (Ans β)}, (∀ e, st.fail e = .error e) →
      (∀ o b told, st.told o b told = told) →
        Tells i (fun s => Knows i Told.Idle s ∧ Has userId intent.id s) (sql st)
          (fun _ s => Knows i Told.Idle s ∧ Has userId intent.id s)
            fun _ => Knows i Told.Settled :=
    fun hst htold => Triple.mono (told_has (told_look hst htold) userId intent.id) (fun _ hs => hs)
      (fun _ _ hs => hs) fun _ s hs => hsettled s hs.1
  refine Triple.bind (hlook (fun _ => rfl) fun _ _ _ => rfl) fun transactionPin => ?_
  refine Triple.ite (fun _ => Triple.throw fun s hs => hsettled s hs.1) fun _ => ?_
  refine Triple.bind (hlook (fun _ => rfl) fun _ _ _ => rfl) fun pinOk => ?_
  refine Triple.ite (fun _ => Triple.throw fun s hs => hsettled s hs.1) fun _ => ?_
  refine Triple.bind (Triple.mono (told_has (told_mark userId intent.id (by simp)) userId
    intent.id) (fun _ hs => hs) (fun _ _ hs => hs) fun _ s hs => hsettled s hs.1) fun _ => ?_
  refine Triple.tryCatch (Triple.mono (told_complete userId intent) (fun _ hs => hs)
    (fun _ s hs _ => hs.recorded) fun _ _ hs => hs) fun e => ?_
  refine Triple.mono (told_failed userId intent e) (fun _ hs => hs) (fun _ _ hs => hs)
    fun _ s hs hsent => ?_
  exact absurd (hsent.symm.trans hs) (by simp)

/-- An authorization records how its execution has ended. -/
theorem told_authorizeIntentWithPin (userId : String) (id : ℕ) (pin : String) :
    Tells i (Knows i Told.Idle) (authorizeIntentWithPin userId id pin)
      (fun _ => Knows i Told.Settled) fun _ => Knows i Told.Settled := by
  have hsettled : ∀ s, Knows i Told.Idle s → Knows i Told.Settled s := fun s hs => hs.settled
  refine Triple.bind (Triple.mono (told_first userId id) (fun _ hs => hs) (fun _ _ hs => hs)
    fun _ s hs => hsettled s hs) fun found => ?_
  cases found with
  | none => exact Triple.throw fun s hs => hsettled s hs.1
  | some r =>
      refine Triple.ite (fun _ => Triple.throw fun s hs => hsettled s hs.1) fun _ => ?_
      refine Triple.ite (fun _ => Triple.throw fun s hs => hsettled s hs.1) fun _ => ?_
      intro s hs
      obtain ⟨hid, hhas⟩ := hs.2 r rfl
      exact told_authorize userId pin r s ⟨hs.1, hid ▸ hhas⟩

/-- The call leaves its note as it is. -/
abbrev StaysIdle (i : ℕ) (call : IntentCall α) : Prop :=
  Tells i (Knows i Told.Idle) call (fun _ => Knows i Told.Idle) fun _ => Knows i Told.Idle

theorem told_visible (intent : Intent) : StaysIdle i (visible intent) := by
  unfold visible
  exact Triple.ite (fun _ => Triple.pure fun _ hs => hs) fun _ => Triple.throw fun _ hs => hs

theorem told_getIntentForMiniApp (userId : String) (id : ℕ) :
    StaysIdle i (getIntentForMiniApp userId id) := by
  refine Triple.bind (told_first userId id) fun found => ?_
  cases found with
  | none => exact Triple.throw fun _ hs => hs.1
  | some r =>
      refine Triple.mono (Triple.ite (fun _ => ?_) fun _ => told_visible r) (fun _ hs => hs.1)
        (fun _ _ hs => hs) fun _ _ hs => hs
      refine Triple.bind (told_mark userId id (by simp)) fun promoted => ?_
      cases promoted with
      | none => exact Triple.throw fun _ hs => hs
      | some row => exact told_visible row

theorem told_confirmSend (userId : String) (id : ℕ) : StaysIdle i (confirmSend userId id) := by
  refine Triple.bind (told_first userId id) fun found => ?_
  cases found with
  | none => exact Triple.pure fun _ hs => hs.1
  | some r =>
      refine Triple.mono (Triple.ite (fun _ => Triple.pure fun _ hs => hs) fun _ => ?_)
        (fun _ hs => hs.1) (fun _ _ hs => hs) fun _ _ hs => hs
      exact Triple.bind (told_mark userId id (by simp)) fun _ => Triple.pure fun _ hs => hs

/-- Every request records how what it has executed has ended. -/
theorem told_call (r : Request) :
    Tells i (Knows i Told.Idle) r.call (fun _ => Knows i Told.Settled)
      fun _ => Knows i Told.Settled := by
  have hidle : ∀ {β : Type} {call : IntentCall β}, StaysIdle i call →
      Tells i (Knows i Told.Idle) call (fun _ => Knows i Told.Settled)
        fun _ => Knows i Told.Settled :=
    fun h => Triple.mono h (fun _ hs => hs) (fun _ _ hs => hs.settled) fun _ _ hs => hs.settled
  have hdone : ∀ {β : Type} {call : IntentCall β},
      Tells i (Knows i Told.Idle) call (fun _ => Knows i Told.Settled)
        (fun _ => Knows i Told.Settled) →
      Tells i (Knows i Told.Idle) (do let _ ← call) (fun _ => Knows i Told.Settled)
        fun _ => Knows i Told.Settled :=
    fun h => Triple.bind h fun _ => Triple.pure fun _ hs => hs
  cases r with
  | authorizeIntentWithPin userId id pin => exact hdone (told_authorizeIntentWithPin userId id pin)
  | getIntentForMiniApp userId id => exact hdone (hidle (told_getIntentForMiniApp userId id))
  | confirmSend userId id => exact hidle (told_confirmSend userId id)
  | upsertActiveIntent p => exact hdone (hidle (told_look (fun _ => rfl) fun _ _ _ => rfl))
  | cancelActiveIntent userId conversationId =>
      exact hidle (told_look (fun _ => rfl) fun _ _ _ => rfl)

end records

/-! ### Runs -/

/-- A request is reviewed, confirmed and authorized. -/
def confirmedSend : List Request :=
  [.upsertActiveIntent (sendToPayee 5000), .confirmSend "u1" 0,
    .authorizeIntentWithPin "u1" 0 "1234"]

/-- The receipt of a payment that was made cannot be stored. -/
def receiptLost : List (ℕ × Except IntentError Outside) :=
  turns 0 1 ++ turns 1 3 ++ turns 2 8 ++ [(2, .error (.database "Connection terminated"))] ++
    turns 2 4

/-- The provider refuses a payment before anything is moved. -/
def refused : Outside := { moves := false, answer := .error "Insufficient balance" }

end DayfiBackend.Four.Intents
