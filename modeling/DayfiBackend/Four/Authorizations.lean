import DayfiBackend.Four.Intents
import Mathlib.Data.List.Nodup

/-!
# One authorization, one payment

`OnePayment` says what the executions of a run are of: each request of a user is executed at most
once, with what it was asked for; `PaysLive` says that it is neither cancelled nor expired then.
The row is read, marked and executed in statements of their own; `one_payment` is the result for
the runs in which nobody else has written the row in between (`Careful`).
-/

namespace DayfiBackend.Four.Intents

open DayfiBackend.Found DayfiBackend.Found.Prog

/-! ### The property -/

/-- What is executed is what was asked for. -/
def Executed.Intended (e : Executed) : Prop :=
  paymentOf e.asked.intent e.asked.slots = some e.payment

/-- The payments, by the requests they are of. -/
def Tables.paid (T : Tables) : List ℕ :=
  (T.executed.filter (!·.debits)).map (·.asked.number)

/-- Each request is executed at most once, and as it was asked for. -/
structure OnePayment (T : Tables) : Prop where
  once : T.paid.Nodup
  intended : ∀ e ∈ T.executed, e.Intended

/-- A request that is executed is not cancelled, and is still what its row asks for, which has not
expired. -/
def IntentSql.PaysLive {β : Type} (st : IntentSql β) (T : Tables) (now : ℕ) : Prop :=
  match st with
  | .execute intent _ => intent.asked.number ∉ T.cancelled ∧
      ∃ r ∈ T.intents, r.asked = intent.asked ∧ now < r.expiresAt
  | _ => True

/-- A step executes live requests only. -/
def PaysLive {β : Type} (st : IntentSql β) (o : Except IntentError Outside) (T : Tables) : Prop :=
  match o with
  | .ok o => st.PaysLive T (T.time + o.elapsed)
  | .error _ => True

/-- Authorizations pay once, in every state and at every step of a run. -/
structure AuthorizedOnce (requests : List Request)
    (sched : List (ℕ × Except IntentError Outside)) : Prop where
  payments : OnePayment ((begun requests).run intents.machine sched).store
  live : Pool.Along intents.machine
    (Pool.GoodAt intents.machine fun _ st o T _ _ => PaysLive st o T)
    (begun requests) sched

/-! ### The condition -/

/-- What a call has seen of its row: as it has first read it, or left it; as it has last read it;
and the request whose payment it has to make. -/
structure Seen where
  base : Option Intent := none
  last : Option Intent := none
  owns : Option ℕ := none
  deriving DecidableEq, Repr

/-- What a call has seen, once a statement is answered. -/
def IntentSql.seen {β : Type} (st : IntentSql β) (b : β) (seen : Seen) : Seen :=
  match st, b with
  | .intentForUser .., .ok found => { seen with base := seen.base.or found, last := found }
  | .update _ _ p, .ok row =>
      { base := some row
        last := some row
        owns := if p.status = .processing then some row.asked.number else seen.owns }
  | .execute .., _ => { seen with owns := none }
  | _, _ => seen

/-- What is seen is noted. -/
def noticing {β : Type} (st : IntentSql β) (o : Except IntentError Outside) (_ : Tables) (b : β)
    (_ : Tables) (seen : Seen) : Seen :=
  match o with
  | .ok _ => st.seen b seen
  | .error _ => seen

/-- The tables, and what each call has seen. -/
abbrev Watched := Tables × (ℕ → Seen)

/-- The statements over the tables, and what each call has seen. -/
def watchedIntents : Machine IntentSql (Except IntentError Outside) Watched :=
  intents.machine.noting noticing

/-- The condition on a statement. When a row is marked for authorization or as being processed, it
is as its call has read it, each time. When it is executed, it is as its call has left it, and has
not expired. -/
def IntentSql.Careful {β : Type} (st : IntentSql β) (T : Tables) (now : ℕ) (seen : Seen) : Prop :=
  match st with
  | .update userId id p => p.status ∈ [.awaitingAuthorization, .processing] →
      T.intentForUser userId id = seen.base ∧ seen.last = seen.base
  | .execute .. => ∀ r ∈ seen.base, r ∈ T.intents ∧ now < r.expiresAt
  | _ => True

/-- The condition on the steps of a run. -/
def Careful {β : Type} (i : ℕ) (st : IntentSql β) (o : Except IntentError Outside) (s : Watched) :
    Prop :=
  match o with
  | .ok o => st.Careful s.1 (s.1.time + o.elapsed) (s.2 i)
  | .error _ => True

instance {β : Type} (i : ℕ) (st : IntentSql β) (o : Except IntentError Outside) (s : Watched) :
    Decidable (Careful i st o s) := by
  unfold Careful IntentSql.Careful
  repeat' split
  all_goals infer_instance

/-! ### The invariant -/

/-- A request that nobody has begun to execute. -/
def IntentStatus.Fresh (status : IntentStatus) : Prop :=
  status ≠ .processing ∧ status.isTerminal = false

/-- What holds at every step. -/
structure AuthInv (T : Tables) (N : ℕ → Seen) : Prop where
  lower : ∀ r ∈ T.intents, r.id < T.intents.length
  ids : (T.intents.map (·.id)).Nodup
  conversations : (T.intents.map (·.conversationId)).Nodup
  numbers : ∀ r ∈ T.intents, r.asked.number < T.asks
  apart : (T.intents.map (·.asked.number)).Nodup
  executed : ∀ e ∈ T.executed, e.asked.number < T.asks
  cancelled : ∀ n ∈ T.cancelled, n < T.asks
  fresh : ∀ r ∈ T.intents, r.status.Fresh →
    (∀ e ∈ T.executed, e.asked.number ≠ r.asked.number) ∧
      ∀ i, (N i).owns ≠ some r.asked.number
  intact : ∀ r ∈ T.intents, r.status.isTerminal = false →
    r.intent = r.asked.intent ∧ r.slots = r.asked.slots ∧ r.asked.number ∉ T.cancelled
  owned : ∀ i n, (N i).owns = some n →
    n < T.asks ∧ ∀ e ∈ T.executed, e.asked.number ≠ n
  ownedApart : ∀ i j n, (N i).owns = some n → (N j).owns = some n → i = j
  once : T.paid.Nodup
  intended : ∀ e ∈ T.executed, e.Intended

section authorizations

variable {i : ℕ} {s t u : Watched} {T T' : Tables} {N N' : ℕ → Seen} {r intent : Intent}

theorem AuthInv.onePayment (h : AuthInv T N) : OnePayment T := ⟨h.once, h.intended⟩

/-- The discipline of the authorizations. -/
def authDiscipline : Discipline IntentSql (Except IntentError Outside) Watched where
  inv s := AuthInv s.1 s.2
  rely := Counts
  cond := Careful
  good _ st o s _ _ := PaysLive st o s.1
  rely_refl := Counts.refl
  rely_trans _ _ _ _ := Counts.trans

/-! ### Steps -/

/-- Two rows of one request are one row. -/
theorem AuthInv.eq_of_number (h : AuthInv T N) {r r' : Intent} (hr : r ∈ T.intents)
    (hr' : r' ∈ T.intents) (hn : r.asked.number = r'.asked.number) : r = r' :=
  List.inj_on_of_nodup_map h.apart hr hr' hn

/-- Calls take note of what they read. -/
theorem AuthInv.notes (h : AuthInv T N) (howns : ∀ j, (N' j).owns = (N j).owns) :
    AuthInv T N' :=
  { h with
    fresh := fun r hr hf => ⟨(h.fresh r hr hf).1, fun j => howns j ▸ (h.fresh r hr hf).2 j⟩
    owned := fun j n hj => h.owned j n (howns j ▸ hj)
    ownedApart := fun j k n hj hk => h.ownedApart j k n (howns j ▸ hj) (howns k ▸ hk) }

/-- A message is stored. -/
theorem AuthInv.message (h : AuthInv T N) (messages : List Message) :
    AuthInv { T with messages := messages } N := { h with }

/-- What the invariant says of a row that is written. -/
structure Keepable (T : Tables) (N : ℕ → Seen) (r : Intent) : Prop where
  fresh : r.status.Fresh → (∀ e ∈ T.executed, e.asked.number ≠ r.asked.number) ∧
    ∀ i, (N i).owns ≠ some r.asked.number
  intact : r.status.isTerminal = false →
    r.intent = r.asked.intent ∧ r.slots = r.asked.slots ∧ r.asked.number ∉ T.cancelled

theorem Keepable.closed (h : r.status.isTerminal = true) : Keepable T N r :=
  ⟨fun hfresh => absurd hfresh.2 (by simp [h]), fun hopen => absurd hopen (by simp [h])⟩

theorem AuthInv.keepable (h : AuthInv T N) (hr : r ∈ T.intents) : Keepable T N r :=
  ⟨h.fresh r hr, h.intact r hr⟩

/-- Rows are written, each for the request that it is of. -/
theorem AuthInv.mapped (h : AuthInv T N) {f : Intent → Intent}
    (hid : ∀ r, (f r).id = r.id) (hconv : ∀ r, (f r).conversationId = r.conversationId)
    (hasked : ∀ r, (f r).asked = r.asked)
    (hkeep : ∀ r ∈ T.intents, Keepable T N (f r)) :
    AuthInv { T with intents := T.intents.map f } N := by
  refine { h with
    lower := ?_
    ids := ?_
    conversations := ?_
    numbers := ?_
    apart := ?_
    fresh := ?_
    intact := ?_ }
  · intro r' hr'
    obtain ⟨r, hr, rfl⟩ := List.mem_map.mp hr'
    rw [hid, List.length_map]
    exact h.lower r hr
  · rw [List.map_map, show (fun r : Intent => r.id) ∘ f = fun r => r.id from funext hid]
    exact h.ids
  · rw [List.map_map, show (fun r : Intent => r.conversationId) ∘ f =
      fun r => r.conversationId from funext hconv]
    exact h.conversations
  · intro r' hr'
    obtain ⟨r, hr, rfl⟩ := List.mem_map.mp hr'
    rw [hasked]
    exact h.numbers r hr
  · rw [List.map_map, show (fun r : Intent => r.asked.number) ∘ f = fun r => r.asked.number from
      funext fun r => congrArg Asked.number (hasked r)]
    exact h.apart
  · intro r' hr'
    obtain ⟨r, hr, rfl⟩ := List.mem_map.mp hr'
    exact (hkeep r hr).fresh
  · intro r' hr'
    obtain ⟨r, hr, rfl⟩ := List.mem_map.mp hr'
    exact (hkeep r hr).intact

/-- A request is cancelled. -/
theorem AuthInv.cancel (h : AuthInv T N) (userId conversationId : String) :
    AuthInv (T.cancel userId conversationId) N := by
  set cancels := Tables.cancels userId conversationId
  have hf : ∀ r ∈ T.intents, Keepable T N
      (if cancels r then { r with status := .cancelled } else r) := by
    intro r hr
    split_ifs
    · exact .closed rfl
    · exact h.keepable hr
  have hmapped := h.mapped (f := fun r => if cancels r then { r with status := .cancelled } else r)
    (fun r => by split_ifs <;> rfl) (fun r => by split_ifs <;> rfl)
    (fun r => by split_ifs <;> rfl) hf
  refine { hmapped with
    cancelled := fun n hn => ?_
    intact := fun r hr hopen => ?_ }
  · rcases List.mem_append.mp hn with hn | hn
    · obtain ⟨r, hr, rfl⟩ := List.mem_map.mp hn
      exact h.numbers r (List.mem_filter.mp hr).1
    · exact h.cancelled n hn
  · obtain ⟨hintent, hslots, hopen'⟩ := hmapped.intact r hr hopen
    refine ⟨hintent, hslots, fun hn => ?_⟩
    rcases List.mem_append.mp hn with hn | hn
    · -- the row of a request that is cancelled is closed
      obtain ⟨r', hr', hnumber⟩ := List.mem_map.mp hn
      obtain ⟨hr', hcancels⟩ := List.mem_filter.mp hr'
      obtain ⟨r₀, hr₀, rfl⟩ := List.mem_map.mp hr
      have hsame : r' = r₀ := h.eq_of_number hr' hr₀ (by
        rw [hnumber]
        split_ifs <;> rfl)
      subst hsame
      rw [if_pos hcancels] at hopen
      cases hopen
    · exact hopen' hn

/-- What an upsert asks for is asked for by its row only. -/
theorem AuthInv.new (h : AuthInv T N) (p : UpsertParams) {r : Intent}
    (hasked : r.asked = T.asking p) (hintent : r.intent = p.intent) (hslots : r.slots = p.slots) :
    Keepable T N r := by
  refine ⟨fun _ => ⟨fun e he hn => ?_, fun i hi => ?_⟩, fun _ => ?_⟩
  · exact (h.executed e he).ne (hn.trans (congrArg Asked.number hasked))
  · exact (h.owned i _ hi).1.ne (congrArg Asked.number hasked)
  · rw [hasked]
    exact ⟨hintent, hslots, fun hmem => (h.cancelled _ hmem).ne rfl⟩

/-- A number more has been given out. -/
theorem AuthInv.ask (h : AuthInv T N) : AuthInv { T with asks := T.asks + 1 } N :=
  { h with
    numbers := fun r hr => (h.numbers r hr).trans (Nat.lt_succ_self _)
    executed := fun e he => (h.executed e he).trans (Nat.lt_succ_self _)
    cancelled := fun n hn => (h.cancelled n hn).trans (Nat.lt_succ_self _)
    owned := fun i n hi => ⟨(h.owned i n hi).1.trans (Nat.lt_succ_self _), (h.owned i n hi).2⟩ }

/-- The row of a conversation is overwritten. -/
theorem AuthInv.overwrite (h : AuthInv T N) (p : UpsertParams) :
    AuthInv { T with
      asks := T.asks + 1
      intents := T.intents.map fun r =>
        if r.conversationId = p.conversationId then T.overwritten p r else r } N := by
  set f : Intent → Intent := fun r =>
    if r.conversationId = p.conversationId then T.overwritten p r else r with hf
  have hid : ∀ r, (f r).id = r.id := fun r => by
    rw [hf]
    dsimp only
    split_ifs <;> rfl
  have hconv : ∀ r, (f r).conversationId = r.conversationId := fun r => by
    rw [hf]
    dsimp only
    split_ifs <;> rfl
  have hkeep : ∀ r ∈ T.intents, Keepable T N (f r) := by
    intro r hr
    rw [hf]
    dsimp only
    split_ifs
    · exact h.new p rfl rfl rfl
    · exact h.keepable hr
  refine { h.ask with
    lower := fun r' hr' => ?_
    ids := ?_
    conversations := ?_
    numbers := fun r' hr' => ?_
    apart := ?_
    fresh := fun r' hr' => ?_
    intact := fun r' hr' => ?_ }
  · obtain ⟨r, hr, rfl⟩ := List.mem_map.mp hr'
    rw [hid, List.length_map]
    exact h.lower r hr
  · rw [List.map_map, show (fun r : Intent => r.id) ∘ f = fun r => r.id from funext hid]
    exact h.ids
  · rw [List.map_map, show (fun r : Intent => r.conversationId) ∘ f =
      fun r => r.conversationId from funext hconv]
    exact h.conversations
  · obtain ⟨r, hr, rfl⟩ := List.mem_map.mp hr'
    rw [hf]
    dsimp only
    split_ifs
    · exact Nat.lt_succ_self _
    · exact (h.numbers r hr).trans (Nat.lt_succ_self _)
  · rw [List.map_map]
    refine List.Nodup.map_on (fun r hr r' hr' hn => ?_) (List.Nodup.of_map _ h.ids)
    rw [hf] at hn
    simp only [Function.comp_apply] at hn
    split_ifs at hn with hc hc' hc'
    · exact List.inj_on_of_nodup_map h.conversations hr hr' (hc.trans hc'.symm)
    · exact absurd hn.symm (h.numbers r' hr').ne
    · exact absurd hn (h.numbers r hr).ne
    · exact h.eq_of_number hr hr' hn
  · obtain ⟨r, hr, rfl⟩ := List.mem_map.mp hr'
    exact (hkeep r hr).fresh
  · obtain ⟨r, hr, rfl⟩ := List.mem_map.mp hr'
    exact (hkeep r hr).intact

/-- A row is inserted for a new conversation. -/
theorem AuthInv.insert (h : AuthInv T N) (p : UpsertParams)
    (hnew : ∀ r ∈ T.intents, r.conversationId ≠ p.conversationId) :
    AuthInv { T with asks := T.asks + 1, intents := T.newIntent p :: T.intents } N := by
  have hkeep : Keepable T N (T.newIntent p) := h.new p rfl rfl rfl
  refine { h.ask with
    lower := fun r hr => ?_
    ids := ?_
    conversations := ?_
    numbers := fun r hr => ?_
    apart := ?_
    fresh := fun r hr => ?_
    intact := fun r hr => ?_ }
  · rcases List.mem_cons.mp hr with rfl | hr'
    · exact Nat.lt_succ_self _
    · exact (h.lower r hr').trans (Nat.lt_succ_self _)
  · refine List.nodup_cons.mpr ⟨fun hmem => ?_, h.ids⟩
    obtain ⟨r, hr, hid⟩ := List.mem_map.mp hmem
    exact (h.lower r hr).ne hid
  · refine List.nodup_cons.mpr ⟨fun hmem => ?_, h.conversations⟩
    obtain ⟨r, hr, hconv⟩ := List.mem_map.mp hmem
    exact hnew r hr hconv
  · rcases List.mem_cons.mp hr with rfl | hr'
    · exact Nat.lt_succ_self _
    · exact (h.numbers r hr').trans (Nat.lt_succ_self _)
  · refine List.nodup_cons.mpr ⟨fun hmem => ?_, h.apart⟩
    obtain ⟨r, hr, hn⟩ := List.mem_map.mp hmem
    exact (h.numbers r hr).ne hn
  · rcases List.mem_cons.mp hr with rfl | hr'
    · exact hkeep.fresh
    · exact h.fresh r hr'
  · rcases List.mem_cons.mp hr with rfl | hr'
    · exact hkeep.intact
    · exact h.intact r hr'

theorem AuthInv.upsert (h : AuthInv T N) (p : UpsertParams) : AuthInv (T.upsert p) N := by
  unfold Tables.upsert
  split_ifs with hany
  · exact h.overwrite p
  · refine h.insert p fun r hr hconv => hany (List.any_eq_true.mpr ⟨r, hr, ?_⟩)
    simpa using hconv

/-- A row is written. -/
theorem AuthInv.update (h : AuthInv T N) {userId : String} {id : ℕ} {p : Tables.IntentPatch}
    (hkeep : ∀ r, T.intentForUser userId id = some r → Keepable T N (p.apply r)) :
    AuthInv (T.update userId id p) N := by
  refine h.mapped (fun r => by split_ifs <;> rfl) (fun r => by split_ifs <;> rfl)
    (fun r => by split_ifs <;> rfl) fun r hr => ?_
  split_ifs with hr'
  · -- the row with this identifier is the one that is found
    have hsome : (T.intentForUser userId id).isSome := List.find?_isSome.mpr ⟨r, hr, hr'⟩
    obtain ⟨r₀, hr₀⟩ := Option.isSome_iff_exists.mp hsome
    obtain ⟨hmem, hid, -⟩ := intentForUser_some hr₀
    simp only [Bool.and_eq_true, decide_eq_true_eq] at hr'
    obtain rfl : r = r₀ := List.inj_on_of_nodup_map h.ids hr hmem (hr'.1.trans hid.symm)
    exact hkeep r hr₀
  · exact h.keepable hr

/-- A call takes over the request of the row that it marks. -/
theorem AuthInv.own (h : AuthInv T N) {userId : String} {id : ℕ} {p : Tables.IntentPatch}
    (hfound : T.intentForUser userId id = some intent)
    (hstatus : intent.status = .awaitingAuthorization) (hp : p.status = .processing)
    (hslots : p.slots = intent.slots) (howns : (N' i).owns = some intent.asked.number)
    (hothers : ∀ j, j ≠ i → (N' j).owns = (N j).owns) : AuthInv (T.update userId id p) N' := by
  obtain ⟨hmem, hid, -⟩ := intentForUser_some hfound
  have hfresh : intent.status.Fresh := by
    rw [hstatus]
    exact ⟨by simp, rfl⟩
  obtain ⟨hunpaid, hunowned⟩ := h.fresh intent hmem hfresh
  have hintact := h.intact intent hmem hfresh.2
  have hupdated : AuthInv (T.update userId id p) N := by
    refine h.update fun r hr => ?_
    obtain rfl : intent = r := Option.some.inj (hfound.symm.trans hr)
    refine ⟨fun hf => absurd hp hf.1, fun _ => ⟨hintact.1, ?_, hintact.2.2⟩⟩
    exact hslots.trans hintact.2.1
  refine { hupdated with
    fresh := fun r hr hf => ?_
    owned := fun j n hj => ?_
    ownedApart := fun j k n hj hk => ?_ }
  · refine ⟨(hupdated.fresh r hr hf).1, fun j hj => ?_⟩
    by_cases hji : j = i
    · -- the row that asks for this request is being processed
      rw [hji, howns] at hj
      have hrow : p.apply intent ∈ (T.update userId id p).intents := by
        have hupd : (T.update userId id p).intentForUser userId id = some (p.apply intent) := by
          rw [intentForUser_update, hfound]
          rfl
        exact (intentForUser_some hupd).1
      obtain rfl := hupdated.eq_of_number hr hrow (Option.some.inj hj).symm
      exact hf.1 hp
    · exact (hupdated.fresh r hr hf).2 j (hothers j hji ▸ hj)
  · by_cases hji : j = i
    · rw [hji, howns] at hj
      obtain rfl := Option.some.inj hj
      exact ⟨h.numbers intent hmem, hunpaid⟩
    · exact hupdated.owned j n (hothers j hji ▸ hj)
  · by_cases hji : j = i <;> by_cases hki : k = i
    · rw [hji, hki]
    · rw [hji, howns] at hj
      exact absurd ((hothers k hki ▸ hk).trans hj.symm) (hunowned k)
    · rw [hki, howns] at hk
      exact absurd ((hothers j hji ▸ hj).trans hk.symm) (hunowned j)
    · exact h.ownedApart j k n (hothers j hji ▸ hj) (hothers k hki ▸ hk)

/-- A request that a call owns is executed. -/
theorem AuthInv.pay (h : AuthInv T N) {e : Executed} (howns : (N i).owns = some e.asked.number)
    (hintended : e.Intended) (hdebits : e.debits = false) (hnone : (N' i).owns = none)
    (hothers : ∀ j, j ≠ i → (N' j).owns = (N j).owns) :
    AuthInv { T with executed := e :: T.executed } N' := by
  obtain ⟨hasked, hunpaid⟩ := h.owned i _ howns
  refine { h with
    executed := fun x hx => ?_
    fresh := fun r hr hf => ⟨fun x hx => ?_, fun j hj => ?_⟩
    owned := fun j n hj => ?_
    ownedApart := fun j k n hj hk => ?_
    once := ?_
    intended := fun x hx => ?_ }
  · rcases List.mem_cons.mp hx with rfl | hx
    · exact hasked
    · exact h.executed x hx
  · rcases List.mem_cons.mp hx with rfl | hx
    · intro hn
      exact (h.fresh r hr hf).2 i (howns.trans (congrArg some hn))
    · exact (h.fresh r hr hf).1 x hx
  · by_cases hji : j = i
    · rw [hji, hnone] at hj
      cases hj
    · exact (h.fresh r hr hf).2 j (hothers j hji ▸ hj)
  · have hji : j ≠ i := by
      rintro rfl
      rw [hnone] at hj
      cases hj
    rw [hothers j hji] at hj
    refine ⟨(h.owned j n hj).1, fun x hx => ?_⟩
    rcases List.mem_cons.mp hx with rfl | hx
    · rintro rfl
      exact hji (h.ownedApart j i _ hj howns)
    · exact (h.owned j n hj).2 x hx
  · have hji : j ≠ i := by
      rintro rfl
      rw [hnone] at hj
      cases hj
    have hki : k ≠ i := by
      rintro rfl
      rw [hnone] at hk
      cases hk
    exact h.ownedApart j k n (hothers j hji ▸ hj) (hothers k hki ▸ hk)
  · unfold Tables.paid
    rw [List.filter_cons_of_pos (by simp [hdebits]), List.map_cons]
    refine List.nodup_cons.mpr ⟨fun hmem => ?_, h.once⟩
    obtain ⟨x, hx, hn⟩ := List.mem_map.mp hmem
    exact hunpaid x (List.mem_filter.mp hx).1 hn
  · rcases List.mem_cons.mp hx with rfl | hx
    · exact hintended
    · exact h.intended x hx

/-- The debits of a request that was executed are recorded. -/
theorem AuthInv.debit (h : AuthInv T N) {e e' : Executed} (he' : e' ∈ T.executed)
    (hasked : e.asked = e'.asked) (hpayment : e.payment = e'.payment) (hdebits : e.debits = true) :
    AuthInv { T with executed := e :: T.executed } N := by
  have hmore : ∀ φ : Asked → Prop, (∀ x ∈ T.executed, φ x.asked) →
      ∀ x ∈ e :: T.executed, φ x.asked := by
    intro φ hφ x hx
    rcases List.mem_cons.mp hx with rfl | hx
    · rw [hasked]
      exact hφ e' he'
    · exact hφ x hx
  refine { h with
    executed := hmore (·.number < T.asks) h.executed
    fresh := fun r hr hf =>
      ⟨hmore (·.number ≠ r.asked.number) (h.fresh r hr hf).1, (h.fresh r hr hf).2⟩
    owned := fun j n hj => ⟨(h.owned j n hj).1, hmore (·.number ≠ n) (h.owned j n hj).2⟩
    once := ?_
    intended := fun x hx => ?_ }
  · unfold Tables.paid
    rw [List.filter_cons_of_neg (by simp [hdebits])]
    exact h.once
  · rcases List.mem_cons.mp hx with rfl | hx
    · unfold Executed.Intended
      rw [hasked, hpayment]
      exact h.intended e' he'
    · exact h.intended x hx

/-! ### Rules -/

/-- What a call does under the discipline. -/
abbrev Authorizes (i : ℕ) {β : Type} (P : Watched → Prop) (call : IntentCall β)
    (Q : β → Watched → Prop) : Prop :=
  Triple watchedIntents authDiscipline i P call Q fun _ _ => True

/-- What the processes have seen, once one has an answer. -/
def notedBy {β : Type} (i : ℕ) (st : IntentSql β) (b : β) (N : ℕ → Seen) : ℕ → Seen :=
  Function.update N i (st.seen b (N i))

/-- What a statement has to keep. -/
structure Keeps {β : Type} (i : ℕ) (st : IntentSql β) (b : β) (T : Tables) (N : ℕ → Seen)
    (T' : Tables) : Prop where
  inv : AuthInv T' (notedBy i st b N)
  live : st.PaysLive T T.time

@[simp] theorem notedBy_self {β : Type} (st : IntentSql β) (b : β) :
    notedBy i st b N i = st.seen b (N i) := Function.update_self ..

theorem notedBy_of_ne {β : Type} (st : IntentSql β) (b : β) {j : ℕ} (hj : j ≠ i) :
    notedBy i st b N j = N j := Function.update_of_ne hj ..

/-- The rule of a statement. -/
theorem triple_intent {β : Type} {st : IntentSql (Ans β)} {P : Watched → Prop}
    {Q : β → Watched → Prop} (hst : ∀ e, st.fail e = .error e) (hP : Stays i P)
    (hstep : ∀ T N o, P (T, N) → AuthInv T N → st.Careful T T.time (N i) →
      Keeps i st (st.act o T).1 T N (st.act o T).2 ∧
        ∀ b, (st.act o T).1 = .ok b → Q b ((st.act o T).2, notedBy i st (.ok b) N)) :
    Authorizes i P (sql st) Q := by
  refine Backend.triple_noted hst (fun _ _ _ _ _ => rfl) hP (fun _ _ _ _ => ⟨trivial, trivial⟩)
    fun s o t hs hinv hc ht hnote => ?_
  set T := s.1.tick o.elapsed
  have hticked : Counts i s (T, s.2) := ⟨rfl, .of_rows rfl fun _ h => h⟩
  have hinv' : AuthInv T s.2 := { hinv with }
  obtain ⟨hkeeps, hans⟩ := hstep T s.2 o (hP _ _ hs hticked) hinv' hc
  have hfull : t = ((st.act o T).2, notedBy i st (st.act o T).1 s.2) := Prod.ext ht hnote
  subst hfull
  refine ⟨hkeeps.live, hkeeps.inv, fun j hj => ⟨notedBy_of_ne _ _ hj, ?_⟩, ?_⟩
  · exact hticked.later.trans (st.later_act o T)
  · cases hb : (intents.run i st o s.1).1 with
    | error e => trivial
    | ok b =>
        have hb' : (st.act o T).1 = .ok b := hb
        rw [hb']
        exact hans b hb'

/-- A statement that leaves the rows and what was executed, and of which at most what was read is
noted. -/
theorem Keeps.read {β : Type} {st : IntentSql β} {b : β} (h : AuthInv T N)
    (howns : (st.seen b (N i)).owns = (N i).owns) (hlive : st.PaysLive T T.time) :
    Keeps i st b T N T := by
  refine ⟨h.notes fun j => ?_, hlive⟩
  by_cases hj : j = i
  · rw [hj, notedBy_self, howns]
  · rw [notedBy_of_ne _ _ hj]

/-- A statement of which nothing is noted. -/
theorem Keeps.blind {β : Type} {st : IntentSql β} {b : β} (h : AuthInv T' N)
    (hseen : st.seen b (N i) = N i) (hlive : st.PaysLive T T.time) : Keeps i st b T N T' := by
  refine ⟨?_, hlive⟩
  unfold notedBy
  rwa [hseen, Function.update_eq_self]

/-! ### Rows are read and written -/

/-- What a call knows of the row that it has first read, or left. -/
def Based (userId : String) (id : ℕ) (base : Intent) (i : ℕ) (s : Watched) : Prop :=
  (s.2 i).base = some base ∧ ∃ r ∈ s.1.intents, r.id = id ∧ r.userId = userId

theorem stays_based (userId : String) (id : ℕ) (base : Intent) :
    Stays i (Based userId id base i) := by
  rintro s t ⟨hbase, r, hr, hid, huser⟩ h
  obtain ⟨r', hr', hid', huser'⟩ := h.later.rows r hr
  exact ⟨h.own ▸ hbase, r', hr', hid'.trans hid, huser'.trans huser⟩

/-- What a call knows of the row that it has read again. -/
def Reread (base existing : Intent) (i : ℕ) (s : Watched) : Prop :=
  (s.2 i).base = some base ∧ (s.2 i).last = some existing

theorem stays_reread (base existing : Intent) : Stays i (Reread base existing i) :=
  fun _ _ hs h => ⟨h.own ▸ hs.1, h.own ▸ hs.2⟩

/-- What a call knows once its row is marked: it owns the request, and the row is as it was read
but for the mark. -/
def Owner (intent : Intent) (i : ℕ) (s : Watched) : Prop :=
  (s.2 i).owns = some intent.asked.number ∧ ∃ b, (s.2 i).base = some b ∧
    b.status = .processing ∧ b.asked = intent.asked ∧ b.intent = intent.intent ∧
      b.slots = intent.slots

theorem stays_owner (intent : Intent) : Stays i (Owner intent i) := by
  rintro s t ⟨howns, b, hbase, hb⟩ h
  exact ⟨h.own ▸ howns, b, h.own ▸ hbase, hb⟩

/-- What a call knows before it has read anything. -/
def Unread (i : ℕ) (s : Watched) : Prop := (s.2 i).base = none

theorem stays_unread : Stays i (Unread i) := fun _ _ hs h =>
  (congrArg Seen.base h.own).trans hs

/-- The row is read for the first time. -/
theorem first_read (userId : String) (id : ℕ) :
    Authorizes i (Unread i) (getIntentForUser userId id) fun found s =>
      ∀ intent, found = some intent → intent.id = id ∧ Based userId id intent i s := by
  refine triple_intent (fun _ => rfl) stays_unread fun T N o hs h _ =>
    ⟨.read h rfl trivial, fun b hb intent hfound => ?_⟩
  obtain rfl := Except.ok.inj hb
  obtain ⟨hmem, hid, huser⟩ := intentForUser_some hfound
  refine ⟨hid, ?_, intent, hmem, hid, huser⟩
  have hnone : (N i).base = none := hs
  simp [IntentSql.seen, hnone, hfound]

/-- The row is read again. -/
theorem next_read (userId : String) (id : ℕ) (base : Intent) :
    Authorizes i (Based userId id base i) (getIntentForUser userId id) fun found s =>
      ∃ existing, found = some existing ∧ Reread base existing i s := by
  refine triple_intent (fun _ => rfl) (stays_based userId id base) fun T N o hs h _ =>
    ⟨.read h rfl trivial, fun b hb => ?_⟩
  obtain ⟨hbase, r, hr, hid, huser⟩ := hs
  obtain rfl := Except.ok.inj hb
  have hsome : (T.intentForUser userId id).isSome :=
    List.find?_isSome.mpr ⟨r, hr, by simp [hid, huser]⟩
  obtain ⟨existing, hfound⟩ := Option.isSome_iff_exists.mp hsome
  have hbase' : (N i).base = some base := hbase
  refine ⟨existing, hfound, ?_, ?_⟩
  · simp [IntentSql.seen, hbase']
  · simp [IntentSql.seen, hfound]

/-- The row is read, for whatever it is. -/
theorem any_read (userId : String) (id : ℕ) :
    Authorizes i (fun _ => True) (getIntentForUser userId id) fun _ _ => True :=
  triple_intent (fun _ => rfl) stays_true fun _ _ _ _ h _ =>
    ⟨.read h rfl trivial, fun _ _ => trivial⟩

/-- The rule of an update. -/
theorem triple_update {userId : String} {id : ℕ} {p : Tables.IntentPatch} {P : Watched → Prop}
    {Q : Intent → Watched → Prop} (hP : Stays i P)
    (hstep : ∀ T N r, P (T, N) → AuthInv T N → T.intentForUser userId id = some r →
      (IntentSql.update userId id p).Careful T T.time (N i) →
      let N' := notedBy i (.update userId id p) (.ok (p.apply r)) N
      AuthInv (T.update userId id p) N' ∧ Q (p.apply r) (T.update userId id p, N')) :
    Authorizes i P (sql (.update userId id p)) Q := by
  refine triple_intent (fun _ => rfl) hP fun T N o hs h hc => ?_
  rw [act_update]
  cases hfound : T.intentForUser userId id with
  | none => exact ⟨.blind h rfl trivial, fun b hb => by cases hb⟩
  | some r =>
      obtain ⟨hinv, hQ⟩ := hstep T N r hs h hfound hc
      refine ⟨⟨hinv, trivial⟩, fun b hb => ?_⟩
      obtain rfl : p.apply r = b := Except.ok.inj hb
      exact hQ

/-- A row is completed, or has failed. -/
theorem closes (userId : String) (id : ℕ) {status : IntentStatus}
    (hstatus : status.isTerminal = true) (metadata : Option (List (String × String))) :
    Authorizes i (fun _ => True) (updateIntent userId id status metadata) fun _ _ => True := by
  refine Triple.bind (any_read userId id) fun found => ?_
  cases found with
  | none => exact Triple.pure fun _ _ => trivial
  | some existing =>
      refine Triple.bind (triple_update (Q := fun _ _ => True) stays_true
        fun T N r _ h hfound _ => ⟨?_, trivial⟩) fun _ => Triple.pure fun _ _ => trivial
      have hne : status ≠ .processing := by
        rintro rfl
        cases hstatus
      have hkeep : ∀ r, Keepable T N (Tables.IntentPatch.apply
          ⟨status, existing.slots, metadata.getD existing.metadata⟩ r) := fun _ => .closed hstatus
      refine (h.update fun r _ => hkeep r).notes fun j => ?_
      by_cases hj : j = i
      · rw [hj, notedBy_self]
        simp [IntentSql.seen, hne]
      · rw [notedBy_of_ne _ _ hj]

/-- A review is confirmed: its row awaits the authorization. -/
theorem promotes (userId : String) (id : ℕ) (hbase : r.status = .awaitingConfirmation) :
    Authorizes i (Based userId id r i) (updateIntent userId id .awaitingAuthorization)
      fun _ _ => True := by
  refine Triple.bind (next_read userId id r) fun found => ?_
  cases found with
  | none => exact Triple.pure fun _ _ => trivial
  | some existing =>
      have hread : ∀ s, (∃ x, some existing = some x ∧ Reread r x i s) → Reread r existing i s := by
        rintro s ⟨x, hx, hs⟩
        exact Option.some.inj hx ▸ hs
      refine Triple.mono (Triple.bind (triple_update (Q := fun _ _ => True)
        (stays_reread r existing) fun T N r' hs h hfound hc => ⟨?_, trivial⟩)
          fun _ => Triple.pure fun _ _ => trivial) hread (fun _ _ h => h) fun _ _ h => h
      obtain ⟨hnow, hlast⟩ := hc (by simp)
      have hr' : r' = r := Option.some.inj (hfound.symm.trans (hnow.trans hs.1))
      have hexisting : existing = r := Option.some.inj (hs.2.symm.trans (hlast.trans hs.1))
      subst hr' hexisting
      have hfresh : existing.status.Fresh := by
        rw [hbase]
        exact ⟨by simp, rfl⟩
      have hmem := (intentForUser_some hfound).1
      refine (h.update fun x hx => ?_).notes fun j => ?_
      · obtain rfl : existing = x := Option.some.inj (hfound.symm.trans hx)
        exact ⟨fun _ => h.fresh existing hmem hfresh, fun _ => h.intact existing hmem hfresh.2⟩
      · by_cases hj : j = i
        · rw [hj, notedBy_self]
          rfl
        · rw [notedBy_of_ne _ _ hj]

/-- The row is marked, and its request taken over. -/
theorem marks (userId : String) (hbase : intent.status = .awaitingAuthorization) :
    Authorizes i (Based userId intent.id intent i)
      (updateIntent userId intent.id .processing) fun _ => Owner intent i := by
  refine Triple.bind (next_read userId intent.id intent) fun found => ?_
  cases found with
  | none =>
      refine Triple.pure fun s hs => ?_
      obtain ⟨x, hx, -⟩ := hs
      cases hx
  | some existing =>
      have hread : ∀ s, (∃ x, some existing = some x ∧ Reread intent x i s) →
          Reread intent existing i s := by
        rintro s ⟨x, hx, hs⟩
        exact Option.some.inj hx ▸ hs
      refine Triple.mono (Triple.bind (triple_update (Q := fun _ => Owner intent i)
        (stays_reread intent existing) fun T N r' hs h hfound hc => ?_)
          fun _ => Triple.pure fun _ hs => hs) hread (fun _ _ h => h) fun _ _ h => h
      obtain ⟨hnow, hlast⟩ := hc (by simp)
      have hr' : r' = intent := Option.some.inj (hfound.symm.trans (hnow.trans hs.1))
      have hexisting : existing = intent := Option.some.inj (hs.2.symm.trans (hlast.trans hs.1))
      subst hr' hexisting
      refine ⟨h.own (i := i) hfound hbase rfl rfl ?_ fun j hj => ?_, ?_, ?_⟩
      · rw [notedBy_self]
        rfl
      · rw [notedBy_of_ne _ _ hj]
      · show (notedBy i _ _ N i).owns = _
        rw [notedBy_self]
        rfl
      · refine ⟨Tables.IntentPatch.apply ⟨.processing, existing.slots, existing.metadata⟩ existing,
          ?_, rfl, rfl, rfl, rfl⟩
        show (notedBy i _ _ N i).base = _
        rw [notedBy_self]
        rfl

/-! ### Calls -/

/-- What a call knows once the payment of its request is made. -/
def Paid (intent : Intent) (payment : Payment) (s : Watched) : Prop :=
  ∃ e ∈ s.1.executed, e.asked = intent.asked ∧ e.payment = payment

theorem stays_paid (intent : Intent) (payment : Payment) : Stays i (Paid intent payment) := by
  rintro s t ⟨e, he, hpaid⟩ h
  exact ⟨e, h.later.executed e he, hpaid⟩

/-- The payment of a request that is owned is made. -/
theorem pays {payment : Payment} (hpayment : paymentOf intent.intent intent.slots = some payment) :
    Authorizes i (Owner intent i) (sql (.execute intent payment))
      fun _ => Paid intent payment := by
  refine triple_intent (fun _ => rfl) (stays_owner intent) fun T N o hs h hc => ?_
  obtain ⟨howns, b, hbase, hstatus, hasked, hintent, hslots⟩ := hs
  have hbase' : b ∈ (N i).base := hbase
  obtain ⟨hmem, hnow⟩ := hc b hbase'
  obtain ⟨hname, hvalues, hopen⟩ := h.intact b hmem (by rw [hstatus]; rfl)
  set e : Executed := ⟨intent.id, intent.asked, payment, false, o.moves, o.answer.isOk⟩
  have hintended : e.Intended := by
    show paymentOf intent.asked.intent intent.asked.slots = some payment
    rw [← hasked, ← hname, ← hvalues, hintent, hslots, hpayment]
  refine ⟨⟨?_, ?_⟩, fun _ _ => ⟨e, List.mem_cons_self, rfl, rfl⟩⟩
  · refine h.pay (i := i) (e := e) howns hintended rfl ?_ fun j hj => ?_
    · rw [notedBy_self]
      rfl
    · rw [notedBy_of_ne _ _ hj]
  · exact ⟨hasked ▸ hopen, b, hmem, hasked, hnow⟩

/-- The debits of a request that was paid are recorded. -/
theorem records (payment : Payment) (txHash : String) :
    Authorizes i (Paid intent payment) (sql (.recordOutbound intent payment txHash))
      fun _ _ => True := by
  refine triple_intent (fun _ => rfl) (stays_paid intent payment) fun T N o hs h _ =>
    ⟨.blind ?_ rfl trivial, fun _ _ => trivial⟩
  obtain ⟨e, he, hasked, hpayment⟩ := hs
  exact h.debit he hasked.symm hpayment.symm rfl

/-- The intent is executed. -/
theorem executes (intent : Intent) :
    Authorizes i (Owner intent i) (execute intent) fun _ _ => True := by
  unfold execute
  split
  · exact Triple.throw fun _ _ => trivial
  · rename_i payment hpayment
    refine Triple.bind (pays hpayment) fun sent => ?_
    cases payment with
    | crypto amount asset network recipient =>
        exact Triple.bind (records _ sent.reference) fun _ => Triple.pure fun _ _ => trivial
    | _ => exact Triple.pure fun _ _ => trivial

/-- A message is stored. -/
theorem appends (m : Message) :
    Authorizes i (fun _ => True) (sql (.appendMessage m)) fun _ _ => True :=
  triple_intent (fun _ => rfl) stays_true fun T _ _ _ h _ =>
    ⟨.blind (h.message (m :: T.messages)) rfl trivial, fun _ _ => trivial⟩

/-- A push is delivered. -/
theorem pushes (userId content : String) :
    Authorizes i (fun _ => True) (deliverAzapPush userId content) fun _ _ => True :=
  Triple.tryCatch (F := fun _ _ => True) (triple_intent (fun _ => rfl) stays_true
    fun _ _ _ _ h _ => ⟨.blind h rfl trivial, fun _ _ => trivial⟩)
      fun _ => Triple.pure fun _ _ => trivial

/-- The intent is executed and completed. -/
theorem completes (userId : String) (intent : Intent) :
    Authorizes i (Owner intent i) (complete userId intent) fun _ _ => True := by
  refine Triple.bind (executes intent) fun execution => Triple.bind (closes _ _ rfl _)
    fun completed => Triple.bind (appends _) fun _ => Triple.bind (pushes _ _) fun _ => ?_
  cases completed with
  | none => exact Triple.throw fun _ _ => trivial
  | some row => exact Triple.pure fun _ _ => trivial

/-- The intent has failed. -/
theorem fails (userId : String) (intent : Intent) (e : IntentError) :
    Authorizes i (fun _ => True) (failed userId intent e) fun _ _ => True :=
  Triple.bind (closes _ _ rfl _) fun _ => Triple.bind (appends _) fun _ =>
    Triple.bind (pushes _ _) fun _ => Triple.throw fun _ _ => trivial

/-- A statement that reads nothing of the rows. -/
theorem looks {β : Type} {st : IntentSql (Ans β)} {P : Watched → Prop} (hP : Stays i P)
    (hst : ∀ e, st.fail e = .error e) (hseen : ∀ b seen, st.seen b seen = seen)
    (hact : ∀ o T, (st.act o T).2 = T) (hlive : ∀ T now, st.PaysLive T now) :
    Authorizes i P (sql st) fun _ => P := by
  refine triple_intent hst hP fun T N o hs h _ => ?_
  rw [hact]
  refine ⟨.blind h (hseen _ _) (hlive T _), fun b _ => ?_⟩
  unfold notedBy
  rwa [hseen, Function.update_eq_self]

/-- From the PIN on. -/
theorem authorizes (userId pin : String) (hstatus : intent.status = .awaitingAuthorization) :
    Authorizes i (Based userId intent.id intent i) (authorize userId pin intent)
      fun _ _ => True := by
  have hP := stays_based (i := i) userId intent.id intent
  refine Triple.bind (looks hP (fun _ => rfl) (fun _ _ => rfl) (fun _ _ => rfl)
    fun _ _ => trivial) fun transactionPin => ?_
  refine Triple.ite (fun _ => Triple.throw fun _ _ => trivial) fun _ => ?_
  refine Triple.bind (looks hP (fun _ => rfl) (fun _ _ => rfl) (fun _ _ => rfl)
    fun _ _ => trivial) fun pinOk => ?_
  refine Triple.ite (fun _ => Triple.throw fun _ _ => trivial) fun _ => ?_
  refine Triple.bind (marks userId hstatus) fun _ => ?_
  exact Triple.tryCatch (completes userId intent) fun e => fails userId intent e

/-- The rule of a call that reads its row first. -/
theorem from_first {β : Type} (userId : String) (id : ℕ) {k : Option Intent → IntentCall β}
    (hnone : Authorizes i (fun _ => True) (k none) fun _ _ => True)
    (hsome : ∀ r : Intent, r.id = id →
      Authorizes i (Based userId id r i) (k (some r)) fun _ _ => True) :
    Authorizes i (Unread i) (getIntentForUser userId id >>= k) fun _ _ => True := by
  refine Triple.bind (first_read userId id) fun found => ?_
  cases found with
  | none => exact Triple.mono hnone (fun _ _ => trivial) (fun _ _ h => h) fun _ _ h => h
  | some r =>
      intro s hs
      obtain ⟨hid, hbased⟩ := hs r rfl
      exact hsome r hid s hbased

theorem shows (intent : Intent) {P : Watched → Prop} :
    Authorizes i P (visible intent) fun _ _ => True := by
  unfold visible
  exact Triple.ite (fun _ => Triple.pure fun _ _ => trivial)
    fun _ => Triple.throw fun _ _ => trivial

theorem authorizes_intent (userId : String) (id : ℕ) (pin : String) :
    Authorizes i (Unread i) (authorizeIntentWithPin userId id pin) fun _ _ => True := by
  refine from_first userId id (Triple.throw fun _ _ => trivial) fun r hid => ?_
  subst hid
  refine Triple.ite (fun _ => Triple.throw fun _ _ => trivial) fun hstatus => ?_
  refine Triple.ite (fun _ => Triple.throw fun _ _ => trivial) fun _ => ?_
  exact authorizes userId pin (not_not.mp hstatus)

theorem shows_intent (userId : String) (id : ℕ) :
    Authorizes i (Unread i) (getIntentForMiniApp userId id) fun _ _ => True := by
  refine from_first userId id (Triple.throw fun _ _ => trivial) fun r _ => ?_
  refine Triple.ite (fun hstatus => ?_) fun _ => shows r
  refine Triple.bind (promotes userId id hstatus) fun promoted => ?_
  cases promoted with
  | none => exact Triple.throw fun _ _ => trivial
  | some row => exact shows row

theorem confirms (userId : String) (id : ℕ) :
    Authorizes i (Unread i) (confirmSend userId id) fun _ _ => True := by
  refine from_first userId id (Triple.pure fun _ _ => trivial) fun r _ => ?_
  refine Triple.ite (fun _ => Triple.pure fun _ _ => trivial) fun hstatus => ?_
  exact Triple.bind (promotes userId id (not_not.mp hstatus)) fun _ =>
    Triple.pure fun _ _ => trivial

theorem asks (p : UpsertParams) :
    Authorizes i (fun _ => True) (upsertActiveIntent p) fun _ _ => True := by
  refine triple_intent (fun _ => rfl) stays_true fun T N o _ h _ => ⟨?_, fun _ _ => trivial⟩
  unfold IntentSql.act
  dsimp only
  split
  · exact .blind (h.upsert p) rfl trivial
  · exact .blind h rfl trivial

theorem cancels (userId conversationId : String) :
    Authorizes i (fun _ => True) (cancelActiveIntent userId conversationId) fun _ _ => True :=
  triple_intent (fun _ => rfl) stays_true fun _ _ _ _ h _ =>
    ⟨.blind (h.cancel userId conversationId) rfl trivial, fun _ _ => trivial⟩

/-- Every request keeps the discipline. -/
theorem authorizes_call (r : Request) :
    Authorizes i (Unread i) r.call fun _ _ => True := by
  have hdone : ∀ {β : Type} {call : IntentCall β}, Authorizes i (Unread i) call (fun _ _ => True) →
      Authorizes i (Unread i) (do let _ ← call) fun _ _ => True :=
    fun h => Triple.bind h fun _ => Triple.pure fun _ _ => trivial
  have hany : ∀ {β : Type} {call : IntentCall β},
      Authorizes i (fun _ => True) call (fun _ _ => True) →
        Authorizes i (Unread i) call fun _ _ => True :=
    fun h => Triple.mono h (fun _ _ => trivial) (fun _ _ h => h) fun _ _ h => h
  cases r with
  | authorizeIntentWithPin userId id pin => exact hdone (authorizes_intent userId id pin)
  | getIntentForMiniApp userId id => exact hdone (shows_intent userId id)
  | confirmSend userId id => exact confirms userId id
  | upsertActiveIntent p => exact hdone (hany (asks p))
  | cancelActiveIntent userId conversationId => exact hany (cancels userId conversationId)

theorem AuthInv.empty : AuthInv {} fun _ => {} where
  lower r hr := by cases hr
  ids := List.nodup_nil
  conversations := List.nodup_nil
  numbers r hr := by cases hr
  apart := List.nodup_nil
  executed e he := by cases he
  cancelled n hn := by cases hn
  fresh r hr := by cases hr
  intact r hr := by cases hr
  owned i n hi := by cases hi
  ownedApart i j n hi := by cases hi
  once := List.nodup_nil
  intended e he := by cases he

end authorizations

/-! ### Runs -/

/-- **One authorization pays once** in every run in which nobody else has written the row between
what a call reads and what it does with it. -/
theorem authorizations_pay_once (requests : List Request)
    (sched : List (ℕ × Except IntentError Outside))
    (hc : Pool.Along watchedIntents (Pool.CondAt Careful) ((begun requests).noted {}) sched) :
    AuthorizedOnce requests sched := by
  have hstart : Pool.Verified watchedIntents authDiscipline (fun _ _ _ => True)
      ((begun requests).noted {}) := by
    refine Pool.Verified.start AuthInv.empty fun i p hp => ?_
    obtain ⟨r, -, rfl⟩ := Option.map_eq_some_iff.mp ((List.getElem?_map ..).symm.trans hp)
    exact Prog.wp_mono (fun _ _ _ => trivial) _ _ (authorizes_call r _ rfl)
  obtain ⟨hend, hgood⟩ := Pool.run_sound hstart sched hc
  have hrun : (((begun requests).noted {}).run watchedIntents sched).unnoted =
      (begun requests).run intents.machine sched := Pool.noting_run _ sched
  refine ⟨?_, Pool.along_of_noting (fun P e hP => ?_) hgood⟩
  · rw [← hrun]
    exact hend.1.onePayment
  · exact Pool.goodAt_of_noting P e hP

/-! ### Two taps -/

/-- A request is reviewed, shown in the Mini App and authorized twice. -/
def twoTaps : List Request :=
  [.upsertActiveIntent (sendToPayee 5000), .getIntentForMiniApp "u1" 0,
    .authorizeIntentWithPin "u1" 0 "1234", .authorizeIntentWithPin "u1" 0 "1234"]

/-- Both authorizations read the row before either marks it. -/
def tapped : List (ℕ × Except IntentError Outside) :=
  turns 0 1 ++ turns 1 3 ++ turns 2 1 ++ turns 3 1 ++ turns 2 9 ++ turns 3 9

/-- The money is sent twice. -/
theorem two_taps_pay_twice : ¬ AuthorizedOnce twoTaps tapped := by
  intro h
  have hpaid : ¬ ((begun twoTaps).run intents.machine tapped).store.paid.Nodup := by
    decide +kernel
  exact hpaid h.payments.once

/-- Taps one after the other, and a second request in the same row: the second tap is refused. -/
theorem authorizations_pay_once_in_turn :
    AuthorizedOnce (twoTaps ++ [.upsertActiveIntent (sendToPayee 200), .confirmSend "u1" 0,
        .authorizeIntentWithPin "u1" 0 "1234"])
      (turns 0 1 ++ turns 1 3 ++ turns 2 10 ++ turns 3 10 ++ turns 4 1 ++ turns 5 3 ++
        turns 6 10) :=
  authorizations_pay_once _ _ (by decide +kernel)

/-- A request that is cancelled while it awaits its authorization is not paid. -/
example :
    ((begun [.upsertActiveIntent (sendToPayee 5000), .confirmSend "u1" 0,
        .cancelActiveIntent "u1" "c1", .authorizeIntentWithPin "u1" 0 "1234"]).run intents.machine
      (turns 0 1 ++ turns 1 3 ++ turns 2 1 ++ turns 3 10)).store.paid = [] := by
  decide +kernel

end DayfiBackend.Four.Intents
