import DayfiBackend.Consumer.LedgerCalls
import DayfiBackend.Consumer.YellowCardSends

/-!
# Refunds of wallet-funded sends

A send's debit should be credited back at most once, and only when the provider's final outcome for
that send is a failure, or the provider never took it (`RefundsDue`). The first half holds in every
run: all paths credit under one key. The second half fails in three ways: a payment that is taken
while its call fails is taken for a refusal (`paid_send_refunded`), a failure to record the history
of a send that was taken is taken for one as well, and `repairFailedWalletTransactionStatuses` takes
the row of one send for another's by amount and time. In every run without these, whose provider and
webhooks report failures truthfully, the refunds are due (`refunds_due`).
-/

namespace DayfiBackend.Consumer.YellowCard

open DayfiBackend.Found DayfiBackend.Found.Prog DayfiBackend.Found.Keys

/-- A call of one of the paths. -/
inductive SendEvent where
  | send (p : SendParams)
  | webhook (id : Ref) (status : PaymentStatus)
  | sync (userId : String)
  | repairStatuses (userId : String)
  | repairDebits (userId : String)
  | reverse (userId : String) (send : ℕ)

/-- What a call runs. -/
def SendEvent.call : SendEvent → SendCall Unit
  | send p => walletFundedYellowCardSend p
  | webhook id status => updateTransactionPaymentStatus id status
  | sync userId => syncYellowCardPaymentStatusesForUser userId
  | repairStatuses userId => repairFailedWalletTransactionStatuses userId
  | repairDebits userId => repairUnreversedFailedYellowCardDebits userId
  | reverse userId n => reverseYellowCardWalletDebit userId n

/-- The program of a call. -/
def SendEvent.program (e : SendEvent) : Prog (Beside Query SendSql) Unit :=
  e.call.run >>= fun _ => pure ()

/-- The tables at the start: wallets, and nothing sent. -/
def opening (wallets : List WalletRow) (settings : Settings) (createdAt : ℕ → ℚ)
    (fails : ℕ → Bool) : Store := ({ wallets := wallets }, { settings, createdAt, fails })

/-- The calls, before any has begun. -/
def begun (s : Store) (calls : List SendEvent) : Pool (Beside Query SendSql) Unit Store :=
  ⟨s, calls.map SendEvent.program⟩

/-! ### The property -/

/-- The movement credits a send's debit back. -/
def refunds (send : ℕ) (m : MovementRow) : Bool :=
  decide (m.direction = .credit ∧ m.externalReference = some (reversalReference send))

/-- Every send is refunded at most once, and only when the provider did not take it or its final
outcome is a failure. -/
structure RefundsDue (s : Store) : Prop where
  once : ∀ n, (s.1.movements.filter (refunds n)).length ≤ 1
  due : ∀ n, ∀ m ∈ s.1.movements, refunds n m = true → n ∈ s.2.accepted → s.2.fails n = true

/-! ### The condition -/

/-- The request for a send's payout has reached the provider. -/
def Sends.Requested (T : Sends) (n : ℕ) : Prop := n ∈ T.requests.map Prod.fst

/-- Nothing more will be requested for a send: its request was made, or its end is recorded. -/
def Sends.Closed (T : Sends) (n : ℕ) : Prop := T.Requested n ∨ ∃ row ∈ T.rows, row.send = n

/-- A send that may be refunded: it fails in the end, or the provider will not take it. -/
def Sends.Refundable (T : Sends) (n : ℕ) : Prop :=
  T.fails n = true ∨ T.Closed n ∧ n ∉ T.accepted

instance (T : Sends) (n : ℕ) : Decidable (T.Refundable n) := by
  unfold Sends.Refundable Sends.Closed Sends.Requested
  infer_instance

/-- The send that a text can name. -/
def Ref.send : Ref → ℕ
  | uuid (.collection n) => n
  | uuid (.payment n) => n
  | row n => n

/-- What comes back from the provider reports a failure only of a send that fails, and reports of
every request it takes. -/
def CreateOutcome.Candid (o : CreateOutcome) (fails : Bool) : Prop :=
  match o with
  | .answered payment => resolveYellowCardPaymentStatus payment = .failed → fails = true
  | .acceptedThenFailed => fails = true
  | .refused => True

/-- A statement on the history of a send does not fail once the provider has taken a send that
does not fail. -/
def Recorded (n : ℕ) (o : Except SendError Outside) (T : Sends) : Prop :=
  match o with
  | .ok _ => True
  | .error _ => n ∈ T.accepted → T.fails n = true

/-- The condition on a statement of the sends. -/
def SendSql.Candid {β : Type} (st : SendSql β) (o : Except SendError Outside) (s : Store) : Prop :=
  match st with
  | .createPaymentRequest n _ =>
      match o with
      | .ok o => o.create.Candid (s.2.fails n)
      | .error _ => True
  | .findRow n | .noteParty n => Recorded n o s.2
  | .rowByReference _ u _ => Recorded (Ref.uuid u).send o s.2
  | .insertRow row => Recorded row.send o s.2
  | .updateWalletTransactionPayment id status | .updateWalletTransactionPaymentByRef id status =>
      status = .failed → s.2.fails id.send = true
  | .fetchPaymentBySequenceId u =>
      match o with
      | .ok o => resolveYellowCardPaymentStatus o.payment = .failed →
          s.2.fails (Ref.uuid u).send = true
      | .error _ => True
  | .repairStatuses userId =>
      ∀ row ∈ s.2.rows, s.2.marked s.1.movements userId row = true → s.2.Refundable row.send
  | _ => True

/-- The condition on the steps of a run. A call of `reverseYellowCardWalletDebit` that does not come
from one of the other paths is made for a send that may be refunded. -/
def Candid (calls : List SendEvent) {β : Type} (i : ℕ) (st : Beside Query SendSql β)
    (o : Except SendError Outside) (s : Store) : Prop :=
  match calls[i]? with
  | some (.reverse _ n) => s.2.Refundable n
  | _ =>
      match st with
      | .inner _ => True
      | .own st => st.Candid o s

instance {β : Type} (calls : List SendEvent) (i : ℕ) (st : Beside Query SendSql β)
    (o : Except SendError Outside) (s : Store) : Decidable (Candid calls i st o s) := by
  unfold Candid SendSql.Candid Recorded CreateOutcome.Candid
  repeat' split
  all_goals infer_instance

/-! ### The invariant -/

/-- A row names its own send only. -/
structure SendRow.Named (row : SendRow) : Prop where
  reference : row.externalReference = .payment row.send
  payment : ∀ u ∈ row.paymentSequenceId, u = .payment row.send
  collection : ∀ u ∈ row.collectionSequenceId, u = .collection row.send

/-- The send has been refunded. -/
def Refunded (n : ℕ) (s : Store) : Prop :=
  ∃ m ∈ s.1.movements, m.direction = .credit ∧ m.externalReference = some (reversalReference n)

structure SendInv (s : Store) : Prop where
  keys : (s.1.movements.map (·.idempotencyKey)).Nodup
  credits : ∀ m ∈ s.1.movements, m.direction = .credit → ∃ n, m.idempotencyKey = reversalKey n ∧
    m.externalReference = some (reversalReference n)
  due : ∀ n, Refunded n s → n ∈ s.2.accepted → s.2.fails n = true
  named : ∀ row ∈ s.2.rows, row.Named
  drawn : ∀ n, s.2.Closed n → n < s.2.issued.length
  failed : ∀ row ∈ s.2.rows, row.status = .failed → s.2.Refundable row.send
  accepted : ∀ n ∈ s.2.accepted, s.2.Requested n
  unrefunded : ∀ n, s.2.issued.length ≤ n → Refunded n s → s.2.fails n = true

/-- What a process may count on: outcomes stand, and the others neither request nor record a send
that it has drawn, and refund it only when it fails or is closed. -/
structure Leaves (i : ℕ) (s t : Store) : Prop where
  fails : t.2.fails = s.2.fails
  issued : ∀ n j : ℕ, s.2.issued[n]? = some j → t.2.issued[n]? = some j
  closed : ∀ n, s.2.Closed n → t.2.Closed n
  requests : ∀ n, s.2.Requested n → t.2.Requested n
  accepted : ∀ n, s.2.Closed n → n ∈ t.2.accepted → n ∈ s.2.accepted
  mine : ∀ n : ℕ, s.2.issued[n]? = some i → t.2.Closed n → s.2.Closed n
  rows : ∀ n : ℕ, s.2.issued[n]? = some i → (∀ row ∈ s.2.rows, row.send ≠ n) →
    ∀ row ∈ t.2.rows, row.send ≠ n
  refunded : ∀ n : ℕ, s.2.issued[n]? = some i → Refunded n t →
    Refunded n s ∨ t.2.fails n = true ∨ t.2.Closed n

variable {i n : ℕ} {s t u : Store} {calls : List SendEvent} {status : PaymentStatus}

theorem Leaves.refl (i : ℕ) (s : Store) : Leaves i s s :=
  ⟨rfl, fun _ _ h => h, fun _ h => h, fun _ h => h, fun _ _ h => h, fun _ _ h => h,
    fun _ _ h => h, fun _ _ h => .inl h⟩

theorem Leaves.trans (h : Leaves i s t) (h' : Leaves i t u) : Leaves i s u where
  fails := h'.fails.trans h.fails
  issued n j hn := h'.issued n j (h.issued n j hn)
  closed n hn := h'.closed n (h.closed n hn)
  requests n hn := h'.requests n (h.requests n hn)
  accepted n hn ha := h.accepted n hn (h'.accepted n (h.closed n hn) ha)
  mine n hn hr := h.mine n hn (h'.mine n (h.issued n i hn) hr)
  rows n hn hrow := h'.rows n (h.issued n i hn) (h.rows n hn hrow)
  refunded n hn hr := by
    rcases h'.refunded n (h.issued n i hn) hr with ht | ht | ht
    · rcases h.refunded n hn ht with hs | hs | hs
      · exact .inl hs
      · exact .inr (.inl (by rw [h'.fails]; exact hs))
      · exact .inr (.inr (h'.closed n hs))
    · exact .inr (.inl ht)
    · exact .inr (.inr ht)

/-- The discipline of the sends. -/
def refundDiscipline (calls : List SendEvent) :
    Discipline (Beside Query SendSql) (Except SendError Outside) Store where
  inv := SendInv
  rely := Leaves
  cond := Candid calls
  good _ _ _ _ _ _ := True
  rely_refl := Leaves.refl
  rely_trans _ _ _ _ := Leaves.trans

theorem lax (calls : List SendEvent) : Lax (refundDiscipline calls) := ⟨fun _ _ _ _ _ _ => trivial⟩

/-! ### What a process knows -/

/-- The process may refund a send: anyone may, or it has drawn it and will not request it. -/
def Owed (i n : ℕ) (s : Store) : Prop :=
  s.2.Refundable n ∨ s.2.issued[n]? = some i ∧ ¬ s.2.Closed n

/-- A send that the process has drawn and may still request. -/
structure Drawn (i n : ℕ) (s : Store) : Prop where
  issued : s.2.issued[n]? = some i
  opened : ¬ s.2.Closed n
  unrefunded : Refunded n s → s.2.fails n = true

/-- A send of the process whose end may be recorded with a status. -/
structure Recordable (i n : ℕ) (status : PaymentStatus) (s : Store) : Prop where
  issued : s.2.issued[n]? = some i
  failed : status = .failed → Owed i n s
  fresh : s.2.Requested n ∧ (∀ row ∈ s.2.rows, row.send ≠ n) ∨ Owed i n s

theorem Sends.Refundable.stable (h : s.2.Refundable n) (hl : Leaves i s t) : t.2.Refundable n := by
  rcases h with h | ⟨hr, ha⟩
  · exact .inl (by rw [hl.fails]; exact h)
  · exact .inr ⟨hl.closed n hr, fun hu => ha (hl.accepted n hr hu)⟩

theorem Owed.stable (h : Owed i n s) (hl : Leaves i s t) : Owed i n t :=
  h.imp (·.stable hl) fun h => ⟨hl.issued n i h.1, fun ht => h.2 (hl.mine n h.1 ht)⟩

theorem Drawn.stable (h : Drawn i n s) (hl : Leaves i s t) : Drawn i n t where
  issued := hl.issued n i h.issued
  opened ht := h.opened (hl.mine n h.issued ht)
  unrefunded ht := by
    rcases hl.refunded n h.issued ht with hs | hs | hs
    · rw [hl.fails]
      exact h.unrefunded hs
    · exact hs
    · exact absurd (hl.mine n h.issued hs) h.opened

theorem Recordable.stable (h : Recordable i n status s) (hl : Leaves i s t) :
    Recordable i n status t where
  issued := hl.issued n i h.issued
  failed hs := (h.failed hs).stable hl
  fresh := h.fresh.imp (fun h' => ⟨hl.requests n h'.1, hl.rows n h.issued h'.2⟩) (·.stable hl)

theorem Drawn.owed (h : Drawn i n s) : Owed i n s := .inr ⟨h.issued, h.opened⟩

/-- A refund that is owed goes to a send that fails, or that the provider has not taken. -/
theorem SendInv.owed (h : SendInv s) (ho : Owed i n s) (ha : n ∈ s.2.accepted) :
    s.2.fails n = true := by
  rcases ho with (hf | ⟨-, hn⟩) | ⟨-, hn⟩
  · exact hf
  · exact absurd ha hn
  · exact absurd (.inl (h.accepted n ha)) hn

/-! ### Steps -/

@[simp] theorem Uuid.collection_text_inj {m n : ℕ} :
    (Uuid.collection m).text = (Uuid.collection n).text ↔ m = n := by
  unfold Uuid.text
  rw [String.append_right_inj, toString_inj]

theorem reversalReference_inj {m n : ℕ} : reversalReference m = reversalReference n ↔ m = n := by
  unfold reversalReference
  rw [String.append_left_inj, Uuid.collection_text_inj]

/-- Only the ledger changes, and nothing is refunded. -/
theorem Leaves.ledger {A : Accounts} (h : ∀ n, Refunded n (A, s.2) → Refunded n s) (j : ℕ) :
    Leaves j s (A, s.2) :=
  ⟨rfl, fun _ _ h => h, fun _ h => h, fun _ h => h, fun _ _ h => h, fun _ _ h => h,
    fun _ _ h => h, fun n _ hr => .inl (h n hr)⟩

/-- Only the ledger changes, and no movement is recorded. -/
theorem SendInv.same (h : SendInv s) {A : Accounts} (hA : A.movements = s.1.movements) :
    SendInv (A, s.2) ∧ ∀ j, Leaves j s (A, s.2) := by
  have hr : ∀ n, Refunded n (A, s.2) → Refunded n s := by
    rintro n ⟨m, hm, h⟩
    exact ⟨m, hA ▸ hm, h⟩
  exact ⟨⟨by rw [show (A, s.2).1.movements = _ from hA]; exact h.keys,
    by rw [show (A, s.2).1.movements = _ from hA]; exact h.credits, fun n hn => h.due n (hr n hn),
    h.named, h.drawn, h.failed, h.accepted, fun n hn hf => h.unrefunded n hn (hr n hf)⟩,
    Leaves.ledger hr⟩

section post

variable {A : Accounts} {m : MovementRow} (h : SendInv s)
  (hA : A.movements = m :: s.1.movements) (hfresh : s.1.movement? m.idempotencyKey = none)

include h hA hfresh

/-- The keys of the movements after one more. -/
theorem SendInv.keys_post : (A.movements.map (·.idempotencyKey)).Nodup := by
  rw [hA]
  refine List.nodup_cons.mpr ⟨fun hmem => ?_, h.keys⟩
  obtain ⟨m', hm', he⟩ := List.mem_map.mp hmem
  have hnone := List.find?_eq_none.mp hfresh m' hm'
  simp [he] at hnone

/-- A debit is recorded. -/
theorem SendInv.debit (hm : m.direction = .debit) :
    SendInv (A, s.2) ∧ (∀ j, Leaves j s (A, s.2)) ∧
      ∀ n, Refunded n (A, s.2) → Refunded n s := by
  have hr : ∀ n, Refunded n (A, s.2) → Refunded n s := by
    rintro n ⟨m', hm', hdir, href⟩
    rw [show (A, s.2).1.movements = _ from hA] at hm'
    rcases List.mem_cons.mp hm' with rfl | hm'
    · rw [hm] at hdir
      cases hdir
    · exact ⟨m', hm', hdir, href⟩
  refine ⟨⟨h.keys_post hA hfresh, ?_, fun n hn => h.due n (hr n hn), h.named, h.drawn, h.failed,
    h.accepted, fun n hn hf => h.unrefunded n hn (hr n hf)⟩, Leaves.ledger hr, hr⟩
  show ∀ m' ∈ A.movements, _
  rw [hA]
  intro m' hm' hd
  rcases List.mem_cons.mp hm' with rfl | hm'
  · rw [hm] at hd
    cases hd
  · exact h.credits m' hm' hd

/-- A refund is recorded. -/
theorem SendInv.credit (hkey : m.idempotencyKey = reversalKey n)
    (href : m.externalReference = some (reversalReference n)) (ho : Owed i n s) :
    SendInv (A, s.2) ∧ ∀ j, j ≠ i → Leaves j s (A, s.2) := by
  have hr : ∀ k, Refunded k (A, s.2) → Refunded k s ∨ k = n := by
    rintro k ⟨m', hm', hdir, href'⟩
    rw [show (A, s.2).1.movements = _ from hA] at hm'
    rcases List.mem_cons.mp hm' with rfl | hm'
    · rw [href] at href'
      exact .inr (reversalReference_inj.mp (Option.some.inj href'.symm))
    · exact .inl ⟨m', hm', hdir, href'⟩
  have hdrawn : n < s.2.issued.length ∨ s.2.fails n = true := by
    rcases ho with (hf | ⟨hc, -⟩) | ⟨hi, -⟩
    · exact .inr hf
    · exact .inl (h.drawn n hc)
    · exact .inl (List.getElem?_eq_some_iff.mp hi).1
  refine ⟨⟨h.keys_post hA hfresh, ?_, fun k hk ha => ?_, h.named, h.drawn, h.failed, h.accepted,
    fun k hk hf => ?_⟩, fun j hj => ⟨rfl, fun _ _ h => h, fun _ h => h, fun _ h => h,
      fun _ _ h => h, fun _ _ h => h, fun _ _ h => h, fun k hk hrk => ?_⟩⟩
  · show ∀ m' ∈ A.movements, _
    rw [hA]
    intro m' hm' hd
    rcases List.mem_cons.mp hm' with rfl | hm'
    · exact ⟨n, hkey, href⟩
    · exact h.credits m' hm' hd
  · rcases hr k hk with hk | rfl
    · exact h.due k hk ha
    · exact h.owed ho ha
  · rcases hr k hf with hf | rfl
    · exact h.unrefunded k hk hf
    · exact hdrawn.resolve_left (not_lt.mpr hk)
  · rcases hr k hrk with hrk | rfl
    · exact .inl hrk
    · rcases ho with (hf | ⟨hc, -⟩) | ⟨hi, -⟩
      · exact .inr (.inl hf)
      · exact .inr (.inr hc)
      · rw [hk] at hi
        exact absurd (Option.some.inj hi) hj

end post

/-- The UUIDs of a send are drawn. -/
theorem SendInv.draw (h : SendInv s) (i : ℕ) :
    SendInv (s.1, { s.2 with issued := s.2.issued ++ [i] }) ∧
      (∀ j, Leaves j s (s.1, { s.2 with issued := s.2.issued ++ [i] })) ∧
        Drawn i s.2.issued.length (s.1, { s.2 with issued := s.2.issued ++ [i] }) := by
  have hlen : s.2.issued.length < (s.2.issued ++ [i]).length := by simp
  refine ⟨⟨h.keys, h.credits, h.due, h.named, fun n hn => (h.drawn n hn).trans hlen, h.failed,
    h.accepted, fun n hn => h.unrefunded n (hlen.le.trans hn)⟩,
    fun j => ⟨rfl, fun n k hn => ?_, fun _ h => h, fun _ h => h, fun _ _ h => h, fun _ _ h => h,
      fun _ _ h => h, fun _ _ h => .inl h⟩, ?_, fun hc => ?_, h.unrefunded _ le_rfl⟩
  · show (s.2.issued ++ [i])[n]? = some k
    rw [List.getElem?_append_left (List.getElem?_eq_some_iff.mp hn).1, hn]
  · simp
  · exact lt_irrefl _ (h.drawn _ hc)

/-- The tables once a request has reached the provider, which takes it or not. -/
def Sends.asked (T : Sends) (n : ℕ) (payload : Payload) (takes : Bool) : Sends :=
  { T with
    requests := (n, payload) :: T.requests
    accepted := if takes then n :: T.accepted else T.accepted }

/-- A request reaches the provider. -/
theorem SendInv.ask (h : SendInv s) (hd : Drawn i n s) (payload : Payload) (takes : Bool) :
    SendInv (s.1, s.2.asked n payload takes) ∧
      (∀ j, j ≠ i → Leaves j s (s.1, s.2.asked n payload takes)) := by
  have hrequested : ∀ k, (s.2.asked n payload takes).Requested k ↔ k = n ∨ s.2.Requested k :=
    fun k => List.mem_cons
  have hclosed : ∀ k, (s.2.asked n payload takes).Closed k ↔ k = n ∨ s.2.Closed k := fun k => by
    unfold Sends.Closed
    rw [hrequested k, or_assoc]
    rfl
  have haccepted : ∀ k ∈ (s.2.asked n payload takes).accepted, k = n ∨ k ∈ s.2.accepted := by
    intro k hk
    unfold Sends.asked at hk
    split_ifs at hk
    · exact List.mem_cons.mp hk
    · exact .inr hk
  -- the send is new, so what was refundable still is
  have hrefund : ∀ k, s.2.Refundable k → (s.2.asked n payload takes).Refundable k := fun k hk =>
    hk.imp id fun hk => ⟨(hclosed k).mpr (.inr hk.1), fun ha =>
      (haccepted k ha).elim (fun he => hd.opened (he ▸ hk.1)) hk.2⟩
  refine ⟨⟨h.keys, h.credits, fun k hk ha => ?_, h.named, fun k hk => ?_,
    fun row hrow hf => hrefund _ (h.failed row hrow hf), fun k hk => ?_, h.unrefunded⟩,
    fun j hj => ⟨rfl, fun _ _ hk => hk, fun k hk => (hclosed k).mpr (.inr hk),
      fun k hk => (hrequested k).mpr (.inr hk), fun k hk ha => ?_, fun k hk hr => ?_,
      fun _ _ h => h, fun _ _ h => .inl h⟩⟩
  · rcases haccepted k ha with rfl | ha
    · exact hd.unrefunded hk
    · exact h.due k hk ha
  · rcases (hclosed k).mp hk with rfl | hk
    · exact (List.getElem?_eq_some_iff.mp hd.issued).1
    · exact h.drawn k hk
  · exact (hrequested k).mpr ((haccepted k hk).imp id (h.accepted k))
  · rcases haccepted k ha with rfl | ha
    · exact absurd hk hd.opened
    · exact ha
  · rcases (hclosed k).mp hr with rfl | hr
    · rw [hd.issued] at hk
      exact absurd (Option.some.inj hk).symm hj
    · exact hr

/-- The end of a send is inserted. -/
theorem SendInv.insertRow (h : SendInv s) {row : SendRow} (hnamed : row.Named)
    (hr : Recordable i row.send row.status s) :
    SendInv (s.1, { s.2 with rows := row :: s.2.rows }) ∧
      (∀ j, j ≠ i → Leaves j s (s.1, { s.2 with rows := row :: s.2.rows })) ∧
        (row.status = .failed →
          Owed i row.send (s.1, { s.2 with rows := row :: s.2.rows })) := by
  have hclosed : ∀ k, ({ s.2 with rows := row :: s.2.rows } : Sends).Closed k ↔
      k = row.send ∨ s.2.Closed k := fun k => by
    unfold Sends.Closed
    simp only [List.mem_cons, exists_eq_or_imp]
    constructor
    · rintro (hk | hk | hk)
      · exact .inr (.inl hk)
      · exact .inl hk.symm
      · exact .inr (.inr hk)
    · rintro (hk | hk | hk)
      · exact .inr (.inl hk.symm)
      · exact .inl hk
      · exact .inr (.inr hk)
  have hmono : ∀ k, s.2.Refundable k →
      ({ s.2 with rows := row :: s.2.rows } : Sends).Refundable k := fun k hk =>
    hk.imp id fun hk => ⟨(hclosed k).mpr (.inr hk.1), hk.2⟩
  have hfail : row.status = .failed →
      ({ s.2 with rows := row :: s.2.rows } : Sends).Refundable row.send := fun hs => by
    by_cases ha : row.send ∈ s.2.accepted
    · exact .inl (h.owed (hr.failed hs) ha)
    · exact .inr ⟨(hclosed _).mpr (.inl rfl), ha⟩
  refine ⟨⟨h.keys, h.credits, h.due, fun r hr' => ?_, fun k hk => ?_, fun r hr' hf => ?_,
    h.accepted, h.unrefunded⟩, fun j hj => ⟨rfl, fun _ _ hk => hk,
      fun k hk => (hclosed k).mpr (.inr hk), fun _ hk => hk, fun k _ ha => ha, fun k hk hc => ?_,
      fun k hk hrows r hr' he => ?_, fun _ _ h => .inl h⟩, fun hs => .inl (hfail hs)⟩
  · rcases List.mem_cons.mp hr' with rfl | hr'
    · exact hnamed
    · exact h.named r hr'
  · rcases (hclosed k).mp hk with rfl | hk
    · exact (List.getElem?_eq_some_iff.mp hr.issued).1
    · exact h.drawn k hk
  · rcases List.mem_cons.mp hr' with rfl | hr'
    · exact hfail hf
    · exact hmono _ (h.failed r hr' hf)
  · rcases (hclosed k).mp hc with rfl | hc
    · rw [hr.issued] at hk
      exact absurd (Option.some.inj hk).symm hj
    · exact hc
  · rcases List.mem_cons.mp hr' with rfl | hr'
    · have hi := hr.issued
      rw [he, hk] at hi
      exact hj (Option.some.inj hi)
    · exact hrows r hr' he

/-- The statuses of some rows are set. -/
theorem SendInv.setStatuses (h : SendInv s) {which : SendRow → Bool}
    (hf : status = .failed → ∀ row ∈ s.2.rows, which row = true → s.2.Refundable row.send)
    (now : Option ℚ) :
    SendInv (s.1, s.2.setStatuses which status now) ∧
      ∀ j, Leaves j s (s.1, s.2.setStatuses which status now) := by
  have hof : ∀ r ∈ (s.2.setStatuses which status now).rows, ∃ row ∈ s.2.rows, r.send = row.send ∧
      (row.Named → r.Named) ∧ (r.status = .failed → row.status = .failed ∨
        status = .failed ∧ which row = true) := by
    intro r hr
    obtain ⟨row, hrow, rfl⟩ := List.mem_map.mp hr
    refine ⟨row, hrow, ?_⟩
    split_ifs with hw
    · exact ⟨rfl, fun hn => ⟨hn.reference, hn.payment, hn.collection⟩,
        fun hs => .inr ⟨hs, hw⟩⟩
    · exact ⟨rfl, id, .inl⟩
  have hback : ∀ row ∈ s.2.rows, ∃ r ∈ (s.2.setStatuses which status now).rows,
      r.send = row.send := fun row hrow => by
    refine ⟨_, List.mem_map_of_mem hrow, ?_⟩
    split_ifs <;> rfl
  have hclosed : ∀ k, (s.2.setStatuses which status now).Closed k ↔ s.2.Closed k := fun k => by
    refine or_congr Iff.rfl ⟨?_, ?_⟩
    · rintro ⟨r, hr, he⟩
      obtain ⟨row, hrow, hsend, -⟩ := hof r hr
      exact ⟨row, hrow, hsend ▸ he⟩
    · rintro ⟨row, hrow, he⟩
      obtain ⟨r, hr, hsend⟩ := hback row hrow
      exact ⟨r, hr, hsend.trans he⟩
  have hrefund : ∀ k, s.2.Refundable k → (s.2.setStatuses which status now).Refundable k :=
    fun k hk => hk.imp id fun hk => ⟨(hclosed k).mpr hk.1, hk.2⟩
  refine ⟨⟨h.keys, h.credits, h.due, fun r hr => ?_, fun k hk => h.drawn k ((hclosed k).mp hk),
    fun r hr hs => ?_, h.accepted, h.unrefunded⟩,
    fun j => ⟨rfl, fun _ _ hk => hk, fun k hk => (hclosed k).mpr hk, fun _ hk => hk,
      fun _ _ ha => ha, fun k _ hk => (hclosed k).mp hk, fun k hk hrows r hr => ?_,
      fun _ _ h => .inl h⟩⟩
  · obtain ⟨row, hrow, -, hn, -⟩ := hof r hr
    exact hn (h.named row hrow)
  · obtain ⟨row, hrow, he, -, hst⟩ := hof r hr
    rw [he]
    rcases hst hs with hst | ⟨hst, hw⟩
    · exact hrefund _ (h.failed row hrow hst)
    · exact hrefund _ (hf hst row hrow hw)
  · obtain ⟨row, hrow, he, -, -⟩ := hof r hr
    rw [he]
    exact hrows row hrow

/-! ### Rules -/

/-- What a call does under the discipline. -/
abbrev Runs (calls : List SendEvent) (i : ℕ) {β : Type} (P : Store → Prop) (p : SendCall β)
    (Q : β → Store → Prop) (E : SendError → Store → Prop) : Prop :=
  Triple server.machine (refundDiscipline calls) i P p Q E

/-- What is known stays so while the others step. -/
def Lasts (i : ℕ) (P : Store → Prop) : Prop := ∀ s t, P s → Leaves i s t → P t

theorem lasts_owed (i n : ℕ) : Lasts i (Owed i n) := fun _ _ h hl => h.stable hl

theorem lasts_recordable (i n : ℕ) (status : PaymentStatus) :
    Lasts i (Recordable i n status) := fun _ _ h hl => h.stable hl

theorem lasts_true (i : ℕ) : Lasts i fun _ => True := fun _ _ h _ => h

variable {P : Store → Prop}

/-- A statement of the sends that only reads. -/
theorem runs_read {β : Type} {st : SendSql (Ans β)} {f : Outside → Store → β}
    {Q : β → Store → Prop} {E : SendError → Store → Prop}
    (hrun : ∀ o s, st.run i o s = (.ok (f o s), s)) (hst : ∀ e, st.fail e = .error e)
    (hP : Lasts i P)
    (hQ : ∀ s o, P s → SendInv s → Candid calls i (.own st) (.ok o) s → Q (f o s) s)
    (hE : ∀ s e, P s → SendInv s → Candid calls i (.own st) (.error e) s → E e s) :
    Runs calls i P (sql st) Q E := by
  refine Beside.triple_own hst hP (fun s e hs hinv hc => ⟨trivial, hE s e hs hinv hc⟩)
    fun s o hs hinv hc => ?_
  have hsame : sends.run i st o s = (.ok (f o s), s) := hrun o s
  rw [hsame]
  exact ⟨⟨trivial, hinv, fun j _ => Leaves.refl j s⟩,
    fun b hb => Except.ok.inj hb ▸ hQ s o hs hinv hc, fun e he => (by cases he)⟩

/-- A statement of the sends that writes. -/
theorem runs_write {β : Type} {st : SendSql (Ans β)} {Q : β → Store → Prop}
    {E : SendError → Store → Prop} (hst : ∀ e, st.fail e = .error e) (hP : Lasts i P)
    (hE : ∀ s e, P s → SendInv s → Candid calls i (.own st) (.error e) s → E e s)
    (hrun : ∀ s o, P s → SendInv s → Candid calls i (.own st) (.ok o) s →
      SendInv (st.run i o s).2 ∧ (∀ j, j ≠ i → Leaves j s (st.run i o s).2) ∧
        (∀ b, (st.run i o s).1 = .ok b → Q b (st.run i o s).2) ∧
          ∀ e, (st.run i o s).1 = .error e → E e (st.run i o s).2) :
    Runs calls i P (sql st) Q E := by
  refine Beside.triple_own hst hP (fun s e hs hinv hc => ⟨trivial, hE s e hs hinv hc⟩)
    fun s o hs hinv hc => ?_
  obtain ⟨hinv', hleaves, hQ, hE'⟩ := hrun s o hs hinv hc
  exact ⟨⟨trivial, hinv', hleaves⟩, hQ, hE'⟩

/-- A credit that is owed. -/
theorem runs_credit {p : BalanceParams} (hkey : p.idempotencyKey = reversalKey n)
    (href : p.externalReference = some (reversalReference n)) (hP : Lasts i P)
    (howed : ∀ s, P s → Owed i n s) (hkeep : ∀ (s : Store) (A : Accounts), P s → P (A, s.2)) :
    Runs calls i P (ledger (creditUsdBalance p)) (fun _ => P) fun _ => P := by
  refine triple_creditUsdBalance (lax calls) hP (fun s m hs _ _ _ => hs)
    fun usd _ s t hs hinv hstep => ?_
  obtain ⟨hinv', hleaves⟩ := hinv.credit hstep.movements hstep.fresh hkey href (howed s hs)
  exact ⟨hinv', hleaves, hkeep s t hs⟩

/-- A failure that is swallowed. -/
theorem runs_swallow {p : SendCall Unit} {Q : Store → Prop}
    (h : Runs calls i P p (fun _ => Q) fun _ => Q) :
    Runs calls i P (swallow p) (fun _ => Q) fun _ _ => False :=
  Triple.tryCatch h fun _ => Triple.pure fun _ hs => hs

/-! ### Reversals -/

section reversals

variable (hP : Lasts i P) (howed : ∀ s, P s → Owed i n s)
  (hkeep : ∀ (s : Store) (A : Accounts), P s → P (A, s.2))

include hP howed hkeep

/-- A reversal, after the search for its key. -/
theorem runs_reverse_tail (userId : String) (r : Option MovementRow) :
    Runs calls i P
      (match r with
        | some _ => pure ()
        | none => do
            match ← sql (.reversalByReference (trim userId) (Uuid.collection n).text) with
            | some _ => pure ()
            | none =>
                match ← sql (.debitByReference (trim userId) (Uuid.collection n).text) with
                | none => pure ()
                | some debit =>
                    if debit.usdEquivalent ≤ 0 then pure ()
                    else do
                      let _ ← ledger (creditUsdBalance (reversalCredit (trim userId)
                        debit.walletId n (decimal debit.usdEquivalent))))
      (fun _ => P) fun _ => P := by
  cases r with
  | some m => exact Triple.pure fun _ h => h
  | none =>
      refine Triple.bind (R := fun _ => P) (runs_read (fun _ _ => rfl) (fun _ => rfl) hP
        (fun _ _ h _ _ => h) fun _ _ h _ _ => h) fun r => ?_
      cases r with
      | some m => exact Triple.pure fun _ h => h
      | none =>
          refine Triple.bind (R := fun _ => P) (runs_read (fun _ _ => rfl) (fun _ => rfl)
            hP (fun _ _ h _ _ => h) fun _ _ h _ _ => h) fun r => ?_
          cases r with
          | none => exact Triple.pure fun _ h => h
          | some debit =>
              refine Triple.ite (fun _ => Triple.pure fun _ h => h) fun _ => ?_
              exact Triple.bind (runs_credit rfl rfl hP howed hkeep) fun _ =>
                Triple.pure fun _ h => h

/-- The reversal of a send that may be refunded. -/
theorem runs_reverse (userId : String) :
    Runs calls i P (reverseYellowCardWalletDebit userId n) (fun _ => P) fun _ => P := by
  refine Triple.ite (fun _ => Triple.pure fun _ h => h) fun _ => ?_
  refine Triple.bind (R := fun _ => P) ?_ fun r => runs_reverse_tail hP howed hkeep userId r
  exact (triple_find (lax calls) _ hP).mono (fun _ h => h) (fun _ _ h => h.1) fun _ _ h => h

end reversals

/-- The reversal of the debit a row names. -/
theorem runs_reverseRow (userId : String) {row : SendRow} (hrow : row.Named) (hP : Lasts i P)
    (howed : ∀ s, P s → Owed i row.send s)
    (hkeep : ∀ (s : Store) (A : Accounts), P s → P (A, s.2)) :
    Runs calls i P (reverseRow userId row) (fun _ => P) fun _ => P := by
  have hof : row.collectionOf = .collection row.send := by
    unfold SendRow.collectionOf
    cases hc : row.collectionSequenceId with
    | none => rfl
    | some u => exact hrow.collection u hc
  unfold reverseRow
  rw [hof]
  exact runs_reverse hP howed hkeep userId

/-! ### The history -/

/-- The row of a send names that send. -/
theorem Activity.row_named (a : Activity) (now : ℚ) :
    ({ a.row with timestamp := now } : SendRow).Named := by
  refine ⟨rfl, fun u hu => ?_, fun u hu => ?_⟩
  · have hids : (if a.withIds then some (Uuid.payment a.send) else none) = some u := hu
    split_ifs at hids
    exact (Option.some.inj hids).symm
  · have hids : (if a.withIds then some (Uuid.collection a.send) else none) = some u := hu
    split_ifs at hids
    exact (Option.some.inj hids).symm

/-- The call is not one of `reverseYellowCardWalletDebit` by itself. -/
def Guarded (calls : List SendEvent) (i : ℕ) : Prop :=
  ∀ userId n, calls[i]? ≠ some (.reverse userId n)

/-- The condition on a statement of the sends, in such a call. -/
theorem Guarded.candid (h : Guarded calls i) {β : Type} {st : SendSql β}
    {o : Except SendError Outside} (hc : Candid calls i (.own st) o s) : st.Candid o s := by
  unfold Candid at hc
  split at hc
  · exact absurd ‹_› (h _ _)
  · exact hc

theorem Recordable.of_owed (hi : s.2.issued[n]? = some i) (ho : Owed i n s) :
    Recordable i n status s := ⟨hi, fun _ => ho, .inr ho⟩

/-- A send whose history fails to be recorded may be recorded as failed. -/
theorem Recordable.fail (h : Recordable i n status s)
    (hc : n ∈ s.2.accepted → s.2.fails n = true) : Recordable i n .failed s := by
  rcases h.fresh with ⟨hr, -⟩ | ho
  · by_cases ha : n ∈ s.2.accepted
    · exact .of_owed h.issued (.inl (.inl (hc ha)))
    · exact .of_owed h.issued (.inl (.inr ⟨.inl hr, ha⟩))
  · exact .of_owed h.issued ho

/-- The row of a send is inserted. -/
theorem runs_insertRow (hg : Guarded calls i) (a : Activity) :
    Runs calls i (Recordable i a.send a.status) (sql (.insertRow a.row))
      (fun _ s => a.status = .failed → Owed i a.send s)
      fun _ => Recordable i a.send .failed := by
  refine runs_write (fun _ => rfl) (lasts_recordable i a.send a.status)
    (fun s e h _ hc => h.fail (hg.candid hc)) fun s o h hinv _ => ?_
  have hrun : SendSql.run i (.insertRow a.row) o s =
      if s.2.rows.any (·.send = a.send) then (.error .uniqueViolation, s)
      else (.ok (), s.1, { s.2 with rows := { a.row with timestamp := o.now } :: s.2.rows }) := rfl
  rw [hrun]
  split_ifs with hany
  · refine ⟨hinv, fun j _ => Leaves.refl j s, fun _ hb => (by cases hb), fun _ _ => ?_⟩
    rcases h.fresh with ⟨-, hnone⟩ | howed
    · obtain ⟨row, hrow, hsend⟩ := List.any_eq_true.mp hany
      exact absurd (by simpa using hsend) (hnone row hrow)
    · exact .of_owed h.issued howed
  · obtain ⟨hinv', hleaves, howed⟩ := hinv.insertRow (a.row_named o.now) h
    exact ⟨hinv', hleaves, fun _ _ => howed, fun _ he => (by cases he)⟩

/-- The history of a send is recorded; when that fails the send may be refunded. -/
theorem runs_record (hg : Guarded calls i) (a : Activity) :
    Runs calls i (Recordable i a.send a.status) (recordWalletActivity a)
      (fun _ s => a.status = .failed → Owed i a.send s)
      fun _ => Recordable i a.send .failed := by
  have hlast := lasts_recordable i a.send a.status
  have hnote : Runs calls i (Recordable i a.send a.status) (sql (.noteParty a.send))
      (fun _ => Recordable i a.send a.status) fun _ => Recordable i a.send .failed :=
    runs_read (fun _ _ => rfl) (fun _ => rfl) hlast (fun _ _ h _ _ => h)
      fun s e h _ hc => h.fail (hg.candid hc)
  refine Triple.ite (fun _ => Triple.pure fun _ h => h.failed) fun _ => ?_
  refine Triple.bind (R := fun r s => Recordable i a.send a.status s ∧
      (r ≠ none → s.2.Refundable a.send)) ?_ fun r => ?_
  · refine runs_read (fun _ _ => rfl) (fun _ => rfl) hlast (fun s o h _ _ => ⟨h, fun hr => ?_⟩)
      fun s e h _ hc => h.fail (hg.candid hc)
    obtain ⟨row, hrow⟩ := Option.ne_none_iff_exists'.mp hr
    have hmem := List.mem_of_find?_eq_some hrow
    have hsend : row.send = a.send := by simpa using List.find?_some hrow
    rcases h.fresh with ⟨-, hnone⟩ | hsafe | ⟨-, hopen⟩
    · exact absurd hsend (hnone row hmem)
    · exact hsafe
    · exact absurd (.inr ⟨row, hmem, hsend⟩) hopen
  cases r with
  | some row =>
      -- the row is there already, so the send has ended before
      refine Triple.bind (R := fun _ => Recordable i a.send a.status)
        (runs_write (fun _ => rfl)
          (fun s t h hl => ⟨h.1.stable hl, fun hr => (h.2 hr).stable hl⟩)
          (fun s e h _ _ => .of_owed h.1.issued (.inl (h.2 (by simp))))
            fun s o h hinv _ => ?_) fun _ => ?_
      · have hsafe : a.status = .failed → ∀ row ∈ s.2.rows,
            decide (row.send = a.send) = true → s.2.Refundable row.send := fun _ row _ hw => by
          rw [of_decide_eq_true hw]
          exact h.2 (by simp)
        obtain ⟨hinv', hleaves⟩ := hinv.setStatuses hsafe none
        exact ⟨hinv', fun j _ => hleaves j, fun _ _ => h.1.stable (hleaves i),
          fun e he => (by cases he)⟩
      · refine Triple.ite (fun _ => ?_) fun _ => Triple.pure fun _ h => h.failed
        exact Triple.bind hnote fun _ => hnote.mono (fun _ h => h) (fun _ _ h => h.failed)
          fun _ _ h => h
  | none =>
      refine Triple.bind (R := fun _ => Recordable i a.send a.status)
        (runs_read (fun _ _ => rfl) (fun _ => rfl)
          (fun s t h hl => ⟨h.1.stable hl, fun hr => absurd rfl hr⟩) (fun _ _ h _ _ => h.1)
          fun s e h _ hc => h.1.fail (hg.candid hc)) fun r => ?_
      cases r with
      | some row => exact Triple.pure fun _ h => h.failed
      | none =>
          refine Triple.bind hnote fun _ => ?_
          refine Triple.ite (fun _ => ?_) fun _ => runs_insertRow hg a
          exact Triple.bind hnote fun _ => runs_insertRow hg a

/-! ### The calls -/

/-- The request to the provider. -/
theorem runs_createPaymentRequest (hg : Guarded calls i) (payload : Payload) :
    Runs calls i (Drawn i n) (sql (.createPaymentRequest n payload))
      (fun payment => Recordable i n (resolveYellowCardPaymentStatus payment))
      fun _ => Recordable i n .failed := by
  refine runs_write (fun _ => rfl) (fun s t h hl => h.stable hl)
    (fun s e h _ _ => .of_owed h.issued h.owed) fun s o h hinv hc => ?_
  have hcandid : o.create.Candid (s.2.fails n) := hg.candid hc
  cases ho : o.create with
  | answered payment =>
      obtain ⟨hinv', hleaves⟩ := hinv.ask h payload true
      have hrun : SendSql.run i (.createPaymentRequest n payload) o s =
          (.ok payment, s.1, s.2.asked n payload true) := by
        simp [SendSql.run, ho, Sends.asked]
      rw [ho] at hcandid
      rw [hrun]
      refine ⟨hinv', hleaves, fun b hb => ?_, fun e he => (by cases he)⟩
      cases Except.ok.inj hb
      exact ⟨h.issued, fun hf => .inl (.inl (hcandid hf)),
        .inl ⟨List.mem_cons_self, fun row hrow he => h.opened (.inr ⟨row, hrow, he⟩)⟩⟩
  | acceptedThenFailed =>
      obtain ⟨hinv', hleaves⟩ := hinv.ask h payload true
      have hrun : SendSql.run i (.createPaymentRequest n payload) o s =
          (.error .provider, s.1, s.2.asked n payload true) := by
        simp [SendSql.run, ho, Sends.asked]
      rw [ho] at hcandid
      rw [hrun]
      exact ⟨hinv', hleaves, fun b hb => (by cases hb),
        fun e he => .of_owed h.issued (.inl (.inl hcandid))⟩
  | refused =>
      obtain ⟨hinv', hleaves⟩ := hinv.ask h payload false
      have hrun : SendSql.run i (.createPaymentRequest n payload) o s =
          (.error .provider, s.1, s.2.asked n payload false) := by
        simp [SendSql.run, ho, Sends.asked]
      rw [hrun]
      refine ⟨hinv', hleaves, fun b hb => (by cases hb), fun e he => .of_owed h.issued ?_⟩
      exact .inl (.inr ⟨.inl List.mem_cons_self, fun ha => h.opened (.inl (hinv.accepted n ha))⟩)

/-- From the request to the provider on. -/
theorem runs_submit (hg : Guarded calls i) (p : SendParams) (walletId : ℕ) (sendUsd : ℚ) :
    Runs calls i (Drawn i n) (submitSend p walletId n sendUsd) (fun _ _ => True)
      fun _ _ => True := by
  refine Triple.tryCatch (F := fun _ => Recordable i n .failed) ?_ fun e => ?_
  · refine Triple.bind (runs_createPaymentRequest hg _) fun payment => ?_
    refine Triple.bind (runs_record hg (p.activity n sendUsd _ true)) fun _ => ?_
    refine Triple.ite (fun hf => ?_) fun _ => Triple.pure fun _ _ => trivial
    exact (runs_swallow (runs_reverse (lasts_owed i n) (fun _ h => h) (fun _ _ h => h)
      p.userId)).mono (fun s h => h hf) (fun _ _ _ => trivial)
      fun _ _ h => h.elim
  · refine Triple.bind (R := fun _ => Recordable i n .failed) ?_ fun _ => ?_
    · refine (runs_swallow ?_).mono (fun _ h => h) (fun _ _ h => h) fun _ _ h => h.elim
      exact Triple.bind (runs_credit rfl rfl (lasts_recordable i n .failed)
        (fun _ h => h.failed rfl) fun _ _ h => ⟨h.issued, h.failed, h.fresh⟩) fun _ =>
          Triple.pure fun _ h => h
    refine Triple.bind (R := fun _ _ => True) ?_ fun _ => Triple.throw fun _ _ => trivial
    refine (runs_swallow (Q := fun _ => True) ?_).mono (fun _ h => h) (fun _ _ h => h)
      fun _ _ h => h.elim
    exact (runs_record hg (p.activity n sendUsd .failed false)).mono (fun _ h => h)
      (fun _ _ _ => trivial) fun _ _ _ => trivial

/-- The whole send. -/
theorem runs_send (hg : Guarded calls i) (p : SendParams) :
    Runs calls i (fun _ => True) (walletFundedYellowCardSend p) (fun _ _ => True)
      fun _ _ => True := by
  have htrue := lasts_true i
  refine Triple.bind (R := fun _ _ => True) (runs_read (fun _ _ => rfl) (fun _ => rfl) htrue
    (fun _ _ _ _ _ => trivial) fun _ _ _ _ _ => trivial) fun settings => ?_
  refine Triple.ite (fun _ => Safe.throw _) fun _ => Triple.ite (fun _ => Safe.throw _) fun _ =>
    Triple.ite (fun _ => Safe.throw _) fun _ => ?_
  refine Triple.bind (R := fun _ _ => True) ((triple_convert (lax calls) _ _ htrue).mono
    (fun _ h => h) (fun _ _ _ => trivial) fun _ _ _ => trivial) fun sendUsd => ?_
  refine Triple.ite (fun _ => Safe.throw _) fun _ => Triple.ite (fun _ => Safe.throw _) fun _ => ?_
  refine Triple.bind (R := fun _ _ => True) (triple_ensureWallet (lax calls) _ _ htrue
    fun s t w _ hinv ht => ?_) fun wallet => ?_
  · obtain ⟨hinv', hleaves⟩ := hinv.same (Accounts.createWallet_movements ht)
    exact ⟨hinv', fun j _ => hleaves j, trivial⟩
  refine Triple.bind (R := fun send => Drawn i send) (runs_write (fun _ => rfl) htrue
    (fun _ _ _ _ _ => trivial) fun s o _ hinv _ => ?_) fun send => ?_
  · obtain ⟨hinv', hleaves, hdrawn⟩ := hinv.draw i
    exact ⟨hinv', fun j _ => hleaves j, fun b hb => Except.ok.inj hb ▸ hdrawn,
      fun _ _ => trivial⟩
  have hlook : Runs calls i (Drawn i send) (sql .lookUp) (fun _ => Drawn i send)
      fun _ _ => True :=
    runs_read (fun _ _ => rfl) (fun _ => rfl) (fun _ _ h hl => h.stable hl) (fun _ _ h _ _ => h)
      fun _ _ _ _ _ => trivial
  refine Triple.bind hlook fun _ => Triple.bind hlook fun _ => Triple.bind hlook fun _ => ?_
  refine Triple.bind (R := fun _ => Drawn i send) ?_ fun _ =>
    runs_submit hg p wallet.walletId sendUsd
  refine (triple_debit (lax calls) (Q := Drawn i send) (fun _ _ h hl => h.stable hl)
    (fun _ _ h hl => h.stable hl) (fun s m hs _ _ _ => hs) fun _ s t hs hinv _ hstep => ?_).mono
      (fun _ h => h) (fun _ _ h => h) fun _ _ _ => trivial
  obtain ⟨usd, hmoves⟩ := hstep.movements
  obtain ⟨hinv', hleaves, hr⟩ := hinv.debit hmoves hstep.fresh rfl
  exact ⟨hinv', fun j _ => hleaves j, ⟨hs.issued, hs.opened, fun h => hs.unrefunded (hr send h)⟩⟩

/-- A row names its send, and a text that finds it names that send too. -/
theorem SendRow.Named.of_referenceIs {row : SendRow} (h : row.Named) {id : Ref}
    (hid : Sends.paymentIs id row = true ∨ Sends.referenceIs id row = true) :
    id.send = row.send := by
  have hcollection : row.collectionSequenceId.map Ref.uuid = some id → id.send = row.send := by
    intro hc
    obtain ⟨u, hu, rfl⟩ := Option.map_eq_some_iff.mp hc
    rw [h.collection u hu]
    rfl
  have hpayment : row.paymentSequenceId.map Ref.uuid = some id → id.send = row.send := by
    intro hc
    obtain ⟨u, hu, rfl⟩ := Option.map_eq_some_iff.mp hc
    rw [h.payment u hu]
    rfl
  rcases hid with hid | hid
  · exact hpayment (by simpa [Sends.paymentIs] using hid)
  · unfold Sends.referenceIs at hid
    rcases of_decide_eq_true hid with rfl | rfl | hc
    · rw [h.reference]
      rfl
    · rfl
    · exact hcollection hc

/-- The status of a send's row changes, as a webhook says. -/
theorem runs_updateRow (hg : Guarded calls i) (st : SendSql (Ans (Option SendRow))) {id : Ref}
    {which : SendRow → Bool} (hst : ∀ e, st.fail e = .error e)
    (hrun : ∀ o s, st.run i o s = (.ok (s.2.rows.find? which), s.1,
      s.2.setStatuses which status (some o.now)))
    (hwhich : ∀ row : SendRow, row.Named → which row = true → id.send = row.send)
    (hc : ∀ o s, st.Candid o s → status = .failed → s.2.fails id.send = true) :
    Runs calls i (fun _ => True) (sql st)
      (fun r s => ∀ row ∈ r, row.Named ∧ (status = .failed → Owed i row.send s))
      fun _ _ => True := by
  refine runs_write hst (lasts_true i) (fun _ _ _ _ _ => trivial) fun s o _ hinv hcand => ?_
  have hfails : status = .failed → ∀ row ∈ s.2.rows, which row = true →
      s.2.Refundable row.send := fun hf row hrow hw => by
    rw [← hwhich row (hinv.named row hrow) hw]
    exact .inl (hc _ s (hg.candid hcand) hf)
  obtain ⟨hinv', hleaves⟩ := hinv.setStatuses hfails (some o.now)
  rw [hrun]
  refine ⟨hinv', fun j _ => hleaves j, fun b hb row hrow => ?_, fun _ _ => trivial⟩
  cases Except.ok.inj hb
  have hmem := List.mem_of_find?_eq_some hrow
  refine ⟨hinv.named row hmem, fun hf => .inl ?_⟩
  exact (hfails hf row hmem (List.find?_some hrow)).stable (hleaves i)

/-- A webhook. -/
theorem runs_webhook (hg : Guarded calls i) (id : Ref) (status : PaymentStatus) :
    Runs calls i (fun _ => True) (updateTransactionPaymentStatus id status) (fun _ _ => True)
      fun _ _ => True := by
  refine Triple.bind (R := fun _ _ => True) (runs_read (fun _ _ => rfl) (fun _ => rfl)
    (lasts_true i) (fun _ _ _ _ _ => trivial) fun _ _ _ _ _ => trivial) fun tx => ?_
  refine Triple.ite (fun _ => Safe.pure _) fun _ => ?_
  refine Triple.bind (R := fun r s => ∀ row ∈ r, row.Named ∧
      (status = .failed → Owed i row.send s)) ?_ fun r => ?_
  · refine Triple.bind (runs_updateRow hg (.updateWalletTransactionPayment id status)
      (fun _ => rfl) (fun _ _ => rfl) (fun row hrow hw => hrow.of_referenceIs (.inl hw))
        fun _ _ hc => hc) fun r => ?_
    cases r with
    | some row => exact Triple.pure fun _ h => h
    | none =>
        exact (runs_updateRow hg (.updateWalletTransactionPaymentByRef id status) (fun _ => rfl)
          (fun _ _ => rfl) (fun row hrow hw => hrow.of_referenceIs (.inr hw))
            fun _ _ hc => hc).mono
            (fun _ _ => trivial) (fun _ _ h => h) fun _ _ h => h
  cases r with
  | none => exact Triple.pure fun _ _ => trivial
  | some row =>
      refine Triple.ite (fun hf => ?_) fun _ => Triple.pure fun _ _ => trivial
      intro s hs
      obtain ⟨hnamed, howed⟩ := hs row rfl
      exact (runs_swallow (runs_reverseRow row.userId hnamed (lasts_owed i row.send)
        (fun _ h => h) fun _ _ h => h)).mono (fun _ h => h) (fun _ _ _ => trivial)
          (fun _ _ h => h.elim) s (howed hf)

/-- A loop over rows. -/
theorem runs_forRows {f : SendRow → SendCall Unit} : (rows : List SendRow) →
    (∀ row ∈ rows, Runs calls i P (f row) (fun _ => P) fun _ => P) →
    Runs calls i P (forRows f rows) (fun _ => P) fun _ => P
  | [], _ => Triple.pure fun _ h => h
  | row :: rows, hf => Triple.bind (hf row List.mem_cons_self) fun _ =>
      runs_forRows rows fun row' hrow => hf row' (List.mem_cons_of_mem _ hrow)

/-- One row of the sync. -/
theorem runs_syncRow (hg : Guarded calls i) (userId : String) {row : SendRow}
    (hrow : row.Named) :
    Runs calls i (fun _ => True) (syncRow userId row) (fun _ _ => True) fun _ _ => True := by
  refine (runs_swallow (Q := fun _ => True) ?_).mono (fun _ h => h) (fun _ _ h => h)
    fun _ _ h => h.elim
  have hsend : (Ref.uuid (row.paymentSequenceId.getD row.externalReference)).send = row.send := by
    cases hp : row.paymentSequenceId with
    | none => rw [Option.getD_none, hrow.reference]; rfl
    | some u => rw [Option.getD_some, hrow.payment u hp]; rfl
  refine Triple.bind (R := fun payment s => resolveYellowCardPaymentStatus payment = .failed →
      s.2.fails row.send = true) ?_ fun payment => ?_
  · refine runs_read (fun _ _ => rfl) (fun _ => rfl) (lasts_true i) (fun s o _ _ hc => ?_)
      fun _ _ _ _ _ => trivial
    have hcandid : resolveYellowCardPaymentStatus o.payment = .failed → s.2.fails
      (Ref.uuid (row.paymentSequenceId.getD row.externalReference)).send = true := hg.candid hc
    rw [hsend] at hcandid
    exact hcandid
  refine Triple.ite (fun _ => Triple.pure fun _ _ => trivial) fun _ => ?_
  refine Triple.bind (R := fun _ s => resolveYellowCardPaymentStatus payment = .failed →
      Owed i row.send s) (runs_write (fun _ => rfl) (fun s t h hl hf => ?_)
        (fun _ _ _ _ _ => trivial) fun s o h hinv _ => ?_) fun _ => ?_
  · rw [hl.fails]
    exact h hf
  · have hfails : resolveYellowCardPaymentStatus payment = .failed → ∀ r ∈ s.2.rows,
        decide (r.send = row.send) = true → s.2.Refundable r.send := fun hf r _ hw => by
      rw [of_decide_eq_true hw]
      exact .inl (h hf)
    obtain ⟨hinv', hleaves⟩ := hinv.setStatuses hfails none
    exact ⟨hinv', fun j _ => hleaves j, fun _ _ hf => .inl (.inl (h hf)), fun _ _ => trivial⟩
  · refine Triple.ite (fun hf => ?_) fun _ => Triple.pure fun _ _ => trivial
    exact (runs_swallow (runs_reverseRow userId hrow (lasts_owed i row.send) (fun _ h => h)
      fun _ _ h => h)).mono (fun _ h => h hf) (fun _ _ _ => trivial) fun _ _ h => h.elim

/-- The sync. -/
theorem runs_sync (hg : Guarded calls i) (userId : String) :
    Runs calls i (fun _ => True) (syncYellowCardPaymentStatusesForUser userId) (fun _ _ => True)
      fun _ _ => True := by
  have htrue := lasts_true i
  refine Triple.bind (R := fun _ _ => True) (runs_read (fun _ _ => rfl) (fun _ => rfl) htrue
    (fun _ _ _ _ _ => trivial) fun _ _ _ _ _ => trivial) fun settings => ?_
  refine Triple.ite (fun _ => Safe.pure _) fun _ => ?_
  refine Triple.bind (R := fun rows _ => (∀ row ∈ rows, row.Named) ∧ True)
    (runs_read (fun _ _ => rfl) (fun _ => rfl) htrue
      (fun s _ _ hinv _ => ⟨fun row hrow => hinv.named row (List.mem_filter.mp hrow).1, trivial⟩)
      fun _ _ _ _ _ => trivial) fun rows => ?_
  exact Triple.assume fun hnamed => runs_forRows rows fun row hrow =>
    runs_syncRow hg userId (hnamed row hrow)

/-- The repair of the statuses. -/
theorem runs_repairStatuses (hg : Guarded calls i) (userId : String) :
    Runs calls i (fun _ => True) (repairFailedWalletTransactionStatuses userId) (fun _ _ => True)
      fun _ _ => True := by
  refine runs_write (fun _ => rfl) (lasts_true i) (fun _ _ _ _ _ => trivial) fun s o _ hinv hc => ?_
  have hmarked : PaymentStatus.failed = .failed → ∀ row ∈ s.2.rows,
      s.2.marked s.1.movements userId row = true → s.2.Refundable row.send :=
    fun _ => hg.candid hc
  obtain ⟨hinv', hleaves⟩ := hinv.setStatuses hmarked none
  exact ⟨hinv', fun j _ => hleaves j, fun _ _ => trivial, fun _ _ => trivial⟩

/-- The repair of the debits. -/
theorem runs_repairDebits (userId : String) :
    Runs calls i (fun _ => True) (repairUnreversedFailedYellowCardDebits userId)
      (fun _ _ => True) fun _ _ => True := by
  refine Triple.bind (R := fun rows s => (∀ row ∈ rows, row.Named) ∧
      ∀ row ∈ rows, Owed i row.send s) (runs_read (fun _ _ => rfl) (fun _ => rfl) (lasts_true i)
        (fun s _ _ hinv _ => ?_) fun _ _ _ _ _ => trivial) fun rows => ?_
  · refine ⟨fun row hrow => hinv.named row (List.mem_filter.mp hrow).1, fun row hrow => .inl ?_⟩
    obtain ⟨hmem, hstatus⟩ := List.mem_filter.mp hrow
    exact hinv.failed row hmem (of_decide_eq_true hstatus).2
  · refine Triple.assume fun hnamed => ?_
    refine (runs_forRows (P := fun s => ∀ row ∈ rows, Owed i row.send s) rows
      fun row hrow => ?_).mono (fun _ h => h) (fun _ _ _ => trivial) fun _ _ _ => trivial
    exact runs_reverseRow userId (hnamed row hrow)
      (fun s t h hl row' hrow' => (h row' hrow').stable hl) (fun s h => h row hrow)
      fun _ _ h => h

/-- A call of the reversal by itself. -/
theorem runs_direct {userId : String} (hcall : calls[i]? = some (.reverse userId n)) :
    Runs calls i (fun _ => True) (reverseYellowCardWalletDebit userId n) (fun _ _ => True)
      fun _ _ => True := by
  have hcond : ∀ (st : Beside Query SendSql (Consumer.Ans (Option MovementRow)))
      (o : Except SendError Outside) (s : Store), Candid calls i st o s → s.2.Refundable n := by
    intro st o s hc
    unfold Candid at hc
    rw [hcall] at hc
    exact hc
  refine Triple.ite (fun _ => Triple.pure fun _ h => h) fun _ => ?_
  refine Triple.bind (R := fun _ => Owed i n) ?_ fun r =>
    (runs_reverse_tail (lasts_owed i n) (fun _ h => h) (fun _ _ h => h) userId r).mono
      (fun _ h => h) (fun _ _ _ => trivial) fun _ _ _ => trivial
  refine Beside.triple_inner rfl (lasts_true i) (fun _ _ _ _ _ => ⟨trivial, trivial⟩)
    fun s o _ hinv hc => ?_
  refine ⟨⟨trivial, hinv, fun j _ => Leaves.refl j s⟩, fun _ _ => ?_, fun _ _ => trivial⟩
  have hsafe : s.2.Refundable n :=
    hcond (.inner (.findMovementByKey (reversalKey n))) (.ok o) s hc
  exact Or.inl hsafe

/-- Every call runs under the discipline. -/
theorem runs_call {e : SendEvent} (he : calls[i]? = some e) :
    Runs calls i (fun _ => True) e.call (fun _ _ => True) fun _ _ => True := by
  have hg : (∀ userId n, e ≠ .reverse userId n) → Guarded calls i := fun h userId n hr => by
    rw [he] at hr
    exact h userId n (Option.some.inj hr)
  cases e with
  | send p => exact runs_send (hg (by simp)) p
  | webhook id status => exact runs_webhook (hg (by simp)) id status
  | sync userId => exact runs_sync (hg (by simp)) userId
  | repairStatuses userId => exact runs_repairStatuses (hg (by simp)) userId
  | repairDebits userId => exact runs_repairDebits userId
  | reverse userId n => exact runs_direct he

/-! ### Every run -/

theorem sendInv_opening (wallets : List WalletRow) (settings : Settings) (createdAt : ℕ → ℚ)
    (fails : ℕ → Bool) : SendInv (opening wallets settings createdAt fails) := by
  have hnone : ∀ n, ¬ Refunded n (opening wallets settings createdAt fails) := by
    rintro n ⟨m, hm, -⟩
    cases hm
  refine ⟨List.nodup_nil, fun m hm => (by cases hm), fun n hn => absurd hn (hnone n),
    fun r hr => (by cases hr), fun n hn => ?_, fun r hr => (by cases hr), fun n hn => (by cases hn),
    fun n _ hn => absurd hn (hnone n)⟩
  rcases hn with hn | ⟨row, hrow, -⟩
  · cases hn
  · cases hrow

/-- No two movements have one key, so a send has at most one refund. -/
theorem SendInv.refundsDue (h : SendInv s) : RefundsDue s where
  once n := length_filter_le_one h.keys fun m hm hr => by
    obtain ⟨hdir, href⟩ := of_decide_eq_true hr
    obtain ⟨k, hkey, href'⟩ := h.credits m hm hdir
    rw [href] at href'
    rw [hkey, reversalReference_inj.mp (Option.some.inj href')]
  due n m hm hr ha := by
    obtain ⟨hdir, href⟩ := of_decide_eq_true hr
    exact h.due n ⟨m, hm, hdir, href⟩ ha

/-- **Refunds are due**: in every run in which the provider reports failures truthfully and answers
what it takes, the history of a send that was taken is recorded, and the repair of the statuses
marks only sends that may be refunded, every send is refunded at most once, and only when the
provider did not take it or it fails in the end. -/
theorem refunds_due (wallets : List WalletRow) (settings : Settings) (createdAt : ℕ → ℚ)
    (fails : ℕ → Bool) (calls : List SendEvent)
    (sched : List (ℕ × Except SendError Outside))
    (hc : Pool.Along server.machine (Pool.CondAt (Candid calls))
      (begun (opening wallets settings createdAt fails) calls) sched) :
    RefundsDue ((begun (opening wallets settings createdAt fails) calls).run server.machine
      sched).store := by
  have hstart : Pool.Verified server.machine (refundDiscipline calls) (fun _ _ _ => True)
      (begun (opening wallets settings createdAt fails) calls) := by
    refine Pool.Verified.start (sendInv_opening wallets settings createdAt fails) fun i p hp => ?_
    rw [List.getElem?_map] at hp
    obtain ⟨e, he, rfl⟩ := Option.map_eq_some_iff.mp hp
    exact (runs_call he).map_unit _ trivial
  exact (Pool.run_sound hstart sched hc).1.1.refundsDue

/-! ### A paid send that is refunded -/

/-- A dollar wallet of a hundred dollars. -/
def sendersWallet : WalletRow :=
  { walletId := 1, userId := "ada", currency := "USD", balance := 10000 }

/-- A send of ten dollars to a bank in Nigeria. -/
def sendToBola : SendParams :=
  ⟨"ada", 10, "USD", 1 / 20, 15400, "NGN", "NG", "bank-channel", "000013", "0123456789", "Bola",
    "bank", "other"⟩

/-- The turns of a call up to its request, with what becomes of it, and after. -/
def sendTurns (i : ℕ) (create : CreateOutcome) (rest : ℕ) :
    List (ℕ × Except SendError Outside) :=
  List.replicate 9 (i, .ok {}) ++ [(i, .ok { create })] ++ List.replicate rest (i, .ok {})

/-- The calls on the wallet above, of sends that do not fail. -/
def sendersRun (calls : List SendEvent) (sched : List (ℕ × Except SendError Outside)) : Store :=
  ((begun (opening [sendersWallet] {} (fun _ => 0) fun _ => false) calls).run server.machine
    sched).store

/-- The provider takes a send whose call then fails, and the send is refunded. -/
theorem paid_send_refunded :
    ¬ RefundsDue (sendersRun [.send sendToBola] (sendTurns 0 .acceptedThenFailed 3)) := by
  intro h
  have hrun : (sendersRun [.send sendToBola] (sendTurns 0 .acceptedThenFailed 3)).1.movements.any
      (refunds 0) = true ∧ 0 ∈ (sendersRun [.send sendToBola]
        (sendTurns 0 .acceptedThenFailed 3)).2.accepted ∧ (sendersRun [.send sendToBola]
          (sendTurns 0 .acceptedThenFailed 3)).2.fails 0 = false := by
    decide +kernel
  obtain ⟨hany, hmem, hpaid⟩ := hrun
  obtain ⟨m, hm, hr⟩ := List.any_eq_true.mp hany
  rw [h.due 0 m hm hr hmem] at hpaid
  cases hpaid

/-- A send that was refused, then an equal one that is paid: the repairs refund the paid one. -/
example :
    let free := { sendToBola with feeUsd := 0 }
    let s := sendersRun [.send free, .send free, .repairStatuses "ada", .repairDebits "ada"]
      (sendTurns 0 .refused 9 ++ sendTurns 1 (.answered none) 6 ++ [(2, .ok {})] ++
        List.replicate 12 (3, .ok {}))
    s.2.accepted = [1] ∧ (s.1.movements.filter (refunds 1)).length = 1 := by
  decide +kernel

/-- The provider refuses a send, and the send is refunded. -/
theorem refunds_due_refused :
    RefundsDue ((begun (opening [sendersWallet] {} (fun _ => 0) fun _ => false)
      [.send sendToBola]).run server.machine (sendTurns 0 .refused 9)).store :=
  refunds_due [sendersWallet] {} (fun _ => 0) (fun _ => false) [.send sendToBola]
    (sendTurns 0 .refused 9) (by decide +kernel)

end DayfiBackend.Consumer.YellowCard
