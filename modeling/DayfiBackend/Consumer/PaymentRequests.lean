import DayfiBackend.Consumer.Balance

/-!
# Payment requests against a collection

`createPaymentRequest` asks Yellow Card for a payout and then turns the row of the collection that
the body names into a payment. The collection is looked at by neither step: whose it is, whether
it was received, how much it brought and whether it has been spent are not asked. So each
collection is spent at most once, by its owner and within what it brought, exactly when the
requests themselves respect that (`spends_once_iff`); one user can draw on the collection of
another (`spends_a_strange_collection`).
-/

namespace DayfiBackend.Consumer.PaymentRequests

open DayfiBackend.Found DayfiBackend.Found.Prog

/-! ### Tables -/

/-- Source: type `transaction_status`. -/
inductive TransactionStatus where
  | pendingCollection | successCollection | failedCollection
  | pendingPayment | successPayment | failedPayment
  deriving DecidableEq, Repr

/-- Source: table `wallet_transactions`. The id of a collection's row is its sequence id. -/
structure TransactionRow where
  id : String
  userId : String
  status : TransactionStatus
  reason : String
  sendAmount : ℚ
  sendChannel : String
  sendNetwork : String
  paymentSequenceId : Option String := none
  collectionSequenceId : Option String := none
  deriving DecidableEq, Repr

/-- A collection at the provider. -/
structure Collection where
  sequenceId : String
  currency : String
  localAmount : ℚ
  deriving DecidableEq, Repr

/-- Source: `validator.ts` `createPaymentRequest`. -/
structure Body where
  amount : ℚ
  collectionSequenceId : String
  currency : String
  channelId : String
  country : String
  reason : String
  accountNumber : String
  accountType : String
  networkCountry : String
  networkId : String
  accountName : Option String := none
  metadata : Option String := none
  deriving DecidableEq, Repr

/-- What the validator accepts. Source: `validator.ts` `createPaymentRequest`. -/
def Body.Valid (b : Body) : Prop :=
  0 < b.amount ∧
    (∀ text ∈ [b.collectionSequenceId, b.currency, b.channelId, b.country, b.reason,
      b.accountNumber, b.accountType, b.networkCountry, b.networkId], text ≠ "") ∧
    b.accountName ≠ some ""

instance (b : Body) : Decidable b.Valid := by
  unfold Body.Valid
  infer_instance

/-- A validated request of a user. -/
structure Request where
  userId : String
  body : Body
  valid : body.Valid

/-- The account a payout goes to. -/
structure Destination where
  accountNumber : String
  accountType : String
  country : String
  networkId : String
  accountName : Option String
  deriving DecidableEq, Repr

/-- What the provider is asked for. The customer's type and the instant acceptance are the same in
every request, and the sender's details are those of the profile of `customerUID`. -/
structure Payload where
  sequenceId : String
  channelId : String
  currency : String
  country : String
  localAmount : ℚ
  reason : String
  customerUID : String
  destination : Destination
  metadata : Option String
  deriving DecidableEq, Repr

/-- A payout the provider has taken, with the collection it was asked for and the row of that
collection at the time. -/
structure Payout where
  payload : Payload
  collectionSequenceId : String
  collection : Option TransactionRow
  deriving DecidableEq, Repr

/-- The tables, and the provider's. -/
structure Tables where
  users : List String
  transactions : List TransactionRow
  collections : List Collection
  payouts : List Payout := []
  deriving DecidableEq, Repr

/-- What the controller throws. -/
inductive RequestError where
  | database
  | provider
  | userProfileNotFound
  deriving DecidableEq, Repr

/-- What becomes of a request to the provider. -/
inductive ProviderOutcome where
  | answered
  | acceptedThenFailed
  | refused
  deriving DecidableEq, Repr

structure Outside where
  uuid : String := ""
  provider : ProviderOutcome := .answered
  deriving DecidableEq, Repr

/-! ### Statements -/

abbrev Ans (α : Type) := Except RequestError α

/-- The statements. The provider is not told of the collection; the payout's record carries it. -/
inductive Query : Type → Type
  | randomUUID : Query (Ans String)
  | loadYellowCardRetailSender (userId : String) : Query (Ans Unit)
  | createPaymentRequest (payload : Payload) (collectionSequenceId : String) : Query (Ans Unit)
  | updateTransactionToPayment (collectionSequenceId paymentSequenceId sendChannel sendNetwork :
      String) (amount : ℚ) (reason : String) : Query (Ans Unit)

namespace Tables

/-- The row of a collection. -/
def row? (s : Tables) (id : String) : Option TransactionRow := s.transactions.find? (·.id = id)

/-- The provider takes a payout. -/
def issue (s : Tables) (payload : Payload) (collectionSequenceId : String) : Tables :=
  { s with payouts := ⟨payload, collectionSequenceId, s.row? collectionSequenceId⟩ :: s.payouts }

/-- Source: `query.ts` `updateTransactionToPayment`. -/
def toPayment (s : Tables) (id paymentSequenceId sendChannel sendNetwork : String) (amount : ℚ)
    (reason : String) : Tables :=
  { s with transactions := s.transactions.map fun row =>
      if row.id = id then
        { row with
          status := .pendingPayment
          reason := reason
          sendAmount := toFixed2 amount
          sendChannel := sendChannel
          sendNetwork := sendNetwork
          paymentSequenceId := some paymentSequenceId
          collectionSequenceId := some id }
      else row }

end Tables

/-- One statement, when it gets there. -/
def Query.run {β : Type} (st : Query β) (o : Outside) (s : Tables) : β × Tables :=
  match st with
  | .randomUUID => (.ok o.uuid, s)
  | .loadYellowCardRetailSender userId =>
      (if userId ∈ s.users then .ok () else .error .userProfileNotFound, s)
  | .createPaymentRequest payload collectionSequenceId =>
      match o.provider with
      | .answered => (.ok (), s.issue payload collectionSequenceId)
      | .acceptedThenFailed => (.error .provider, s.issue payload collectionSequenceId)
      | .refused => (.error .provider, s)
  | .updateTransactionToPayment id seq channel network amount reason =>
      (.ok (), s.toPayment id seq channel network amount reason)

/-- The answer of a statement that fails. -/
def Query.fail {β : Type} (st : Query β) (e : RequestError) : β :=
  match st with
  | .randomUUID | .loadYellowCardRetailSender _ => .error e
  | .createPaymentRequest .. | .updateTransactionToPayment .. => .error e

/-- The database and the provider. -/
def server : Backend Query Outside RequestError Tables where
  run _ st o s := st.run o s
  fail st e := st.fail e

abbrev Call := ExceptT RequestError (Prog Query)

def sql {β : Type} (st : Query (Ans β)) : Call β := Backend.call st

/-! ### The controller -/

/-- The request to the provider. -/
def Request.payload (r : Request) (sequenceId : String) : Payload where
  sequenceId := sequenceId
  channelId := r.body.channelId
  currency := r.body.currency
  country := r.body.country
  localAmount := r.body.amount
  reason := r.body.reason
  customerUID := r.userId
  destination := ⟨r.body.accountNumber, r.body.accountType, r.body.networkCountry,
    r.body.networkId, r.body.accountName⟩
  metadata := r.body.metadata

/-- Source: `controller.ts` `createPaymentRequest`. -/
def createPaymentRequest (r : Request) : Call Unit := do
  let paymentSequenceId ← sql .randomUUID
  sql (.loadYellowCardRetailSender r.userId)
  sql (.createPaymentRequest (r.payload paymentSequenceId) r.body.collectionSequenceId)
  sql (.updateTransactionToPayment r.body.collectionSequenceId paymentSequenceId r.body.channelId
    r.body.networkId r.body.amount r.body.reason)

/-- The program of a request; its errors are answered. -/
def Request.program (r : Request) : Prog Query Unit :=
  (createPaymentRequest r).run >>= fun _ => pure ()

/-- A run of some requests. -/
def runRequests (s : Tables) (requests : List Request)
    (sched : List (ℕ × Except RequestError Outside)) : Tables :=
  ((⟨s, requests.map Request.program⟩ : Pool Query Unit Tables).run server.machine sched).store

/-! ### The property -/

/-- A collection pays for an amount: it is the user's own, was received, and brought as much, at
some rates of the currencies. -/
structure Pays (rate : String → ℚ) (collections : List Collection) (userId : String)
    (amount : ℚ) (currency : String) (row : TransactionRow) : Prop where
  own : row.userId = userId
  received : row.status = .successCollection
  enough : ∃ c ∈ collections, c.sequenceId = row.id ∧
    amount * rate currency ≤ c.localAmount * rate c.currency

/-- Every payout is paid for by its collection, and no two have the same. -/
structure SpendsOnce (rate : String → ℚ) (s : Tables) : Prop where
  paid : ∀ p ∈ s.payouts, ∃ row, p.collection = some row ∧
    Pays rate s.collections p.payload.customerUID p.payload.localAmount p.payload.currency row
  once : (s.payouts.map (·.collectionSequenceId)).Nodup

/-- The request names a collection that pays for it. -/
def Request.Covered (rate : String → ℚ) (s : Tables) (r : Request) : Prop :=
  ∃ row, s.row? r.body.collectionSequenceId = some row ∧
    Pays rate s.collections r.userId r.body.amount r.body.currency row

/-- The requests of users with a profile name collections that pay for them, no two the same. -/
structure Covered (rate : String → ℚ) (s : Tables) (requests : List Request) : Prop where
  each : ∀ r ∈ requests, r.userId ∈ s.users → r.Covered rate s
  distinct : requests.Pairwise fun r r' => r.userId ∈ s.users → r'.userId ∈ s.users →
    r.body.collectionSequenceId ≠ r'.body.collectionSequenceId

/-! ### Requests that respect it -/

variable {rate : String → ℚ} {s₀ s t u : Tables} {requests : List Request} {i : ℕ}

theorem Tables.toPayment_row? {id id' : String} (h : id' ≠ id) (s : Tables)
    (seq channel network : String) (amount : ℚ) (reason : String) :
    (s.toPayment id seq channel network amount reason).row? id' = s.row? id' := by
  unfold Tables.row? Tables.toPayment
  rw [List.find?_map]
  induction s.transactions with
  | nil => rfl
  | cons row rows ih =>
      by_cases hid : row.id = id
      · have hne : row.id ≠ id' := fun hr => h (hr.symm.trans hid)
        simpa [List.find?_cons, hid, hne, h.symm] using ih
      · by_cases hid' : row.id = id'
        · simp [hid', h]
        · simpa [hid, hid'] using ih

/-- The collection of a request is as at the start, and no payout has been issued for it. -/
structure Unspent (s₀ : Tables) (id : String) (s : Tables) : Prop where
  row : s.row? id = s₀.row? id
  none : ∀ p ∈ s.payouts, p.collectionSequenceId ≠ id

/-- The request may still draw on its collection, if its user has a profile. -/
def Request.Ready (r : Request) (s₀ s : Tables) : Prop :=
  r.userId ∈ s₀.users → Unspent s₀ r.body.collectionSequenceId s

/-- What holds between any two steps. -/
structure Kept (rate : String → ℚ) (s₀ s : Tables) : Prop where
  users : s.users = s₀.users
  collections : s.collections = s₀.collections
  spends : SpendsOnce rate s

/-- What a request counts on: the others leave its collection alone. -/
def Leaves (s₀ : Tables) (requests : List Request) (i : ℕ) (s t : Tables) : Prop :=
  ∀ r, requests[i]? = some r → r.Ready s₀ s → r.Ready s₀ t

/-- The discipline of the requests. -/
def discipline (rate : String → ℚ) (s₀ : Tables) (requests : List Request) :
    Discipline Query (Except RequestError Outside) Tables where
  inv := Kept rate s₀
  rely := Leaves s₀ requests
  cond _ _ _ _ := True
  good _ _ _ _ _ _ := True
  rely_refl _ _ _ _ h := h
  rely_trans _ _ _ _ h h' r hr hs := h' r hr (h r hr hs)

section covered

variable {r : Request} (hc : Covered rate s₀ requests) (hr : requests[i]? = some r)
  (hu : r.userId ∈ s₀.users)

include hc hr hu

/-- Another request of a user with a profile names another collection. -/
theorem Covered.ne {j : ℕ} (hj : j ≠ i) {r' : Request} (hr' : requests[j]? = some r')
    (hu' : r'.userId ∈ s₀.users) : r'.body.collectionSequenceId ≠ r.body.collectionSequenceId := by
  obtain ⟨hi, rfl⟩ := List.getElem?_eq_some_iff.mp hr
  obtain ⟨hj', rfl⟩ := List.getElem?_eq_some_iff.mp hr'
  have hpair := List.pairwise_iff_getElem.mp hc.distinct
  rcases lt_or_gt_of_ne hj with h | h
  · exact hpair j i hj' hi h hu' hu
  · exact (hpair i j hi hj' h hu hu').symm

/-- The provider takes the payout of a request. -/
theorem Kept.issue (h : Kept rate s₀ s) (hs : r.Ready s₀ s) (seq : String) :
    Kept rate s₀ (s.issue (r.payload seq) r.body.collectionSequenceId) ∧
      ∀ j, j ≠ i →
        Leaves s₀ requests j s (s.issue (r.payload seq) r.body.collectionSequenceId) := by
  refine ⟨⟨h.users, h.collections, fun p hp => ?_, ?_⟩, fun j hj r' hr' hready hu' => ?_⟩
  · rcases List.mem_cons.mp hp with rfl | hp
    · obtain ⟨row, hrow, hpays⟩ := hc.each r (List.mem_of_getElem? hr) hu
      refine ⟨row, (hs hu).row.trans hrow, ?_⟩
      show Pays rate s.collections _ _ _ row
      rw [h.collections]
      exact hpays
    · exact h.spends.paid p hp
  · refine List.nodup_cons.mpr ⟨fun hmem => ?_, h.spends.once⟩
    obtain ⟨p, hp, he⟩ := List.mem_map.mp hmem
    exact (hs hu).none p hp he
  · refine ⟨(hready hu').row, fun p hp => ?_⟩
    rcases List.mem_cons.mp hp with rfl | hp
    · exact (hc.ne hr hu hj hr' hu').symm
    · exact (hready hu').none p hp

/-- The row of a request's collection becomes a payment. -/
theorem Kept.toPayment (h : Kept rate s₀ s) (seq channel network : String) (amount : ℚ)
    (reason : String) :
    Kept rate s₀ (s.toPayment r.body.collectionSequenceId seq channel network amount reason) ∧
      ∀ j, j ≠ i → Leaves s₀ requests j s
        (s.toPayment r.body.collectionSequenceId seq channel network amount reason) := by
  refine ⟨⟨h.users, h.collections, h.spends.paid, h.spends.once⟩,
    fun j hj r' hr' hready hu' => ⟨?_, (hready hu').none⟩⟩
  rw [Tables.toPayment_row? (hc.ne hr hu hj hr' hu')]
  exact (hready hu').row

end covered

/-- Every request runs under the discipline. -/
theorem triple_createPaymentRequest (hc : Covered rate s₀ requests) {r : Request}
    (hr : requests[i]? = some r) :
    Triple server.machine (discipline rate s₀ requests) i (r.Ready s₀)
      (createPaymentRequest r) (fun _ _ => True) fun _ _ => True := by
  have hstable : ∀ s t, r.Ready s₀ s → Leaves s₀ requests i s t → r.Ready s₀ t :=
    fun s t hs hl => hl r hr hs
  refine Triple.bind (R := fun _ => r.Ready s₀) ?_ fun seq => ?_
  · exact Backend.triple_call (fun _ => rfl) hstable (fun _ _ _ _ => ⟨trivial, trivial⟩)
      fun s o hs hinv _ => ⟨trivial, hinv, fun _ _ _ _ h => h, hs⟩
  refine Triple.bind (R := fun _ s => r.userId ∈ s₀.users ∧ r.Ready s₀ s) ?_ fun _ => ?_
  · refine Backend.triple_call (fun _ => rfl) hstable (fun _ _ _ _ => ⟨trivial, trivial⟩)
      fun s o hs hinv _ => ⟨trivial, hinv, fun _ _ _ _ h => h, ?_⟩
    by_cases hu : r.userId ∈ s₀.users
    · simpa [server, Query.run, hinv.users, hu] using hs
    · simp [server, Query.run, hinv.users, hu]
  refine Triple.assume fun hu => ?_
  refine Triple.bind (R := fun _ _ => True) ?_ fun _ => ?_
  · refine Backend.triple_call (fun _ => rfl) hstable (fun _ _ _ _ => ⟨trivial, trivial⟩)
      fun s o hs hinv _ => ?_
    obtain ⟨hkept, hleaves⟩ := hinv.issue hc hr hu hs seq
    cases ho : o.provider with
    | answered =>
        simp only [server, Query.run, ho]
        exact ⟨trivial, hkept, hleaves, trivial⟩
    | acceptedThenFailed =>
        simp only [server, Query.run, ho]
        exact ⟨trivial, hkept, hleaves, trivial⟩
    | refused =>
        simp only [server, Query.run, ho]
        exact ⟨trivial, hinv, fun _ _ _ _ h => h, trivial⟩
  · refine Backend.triple_call (fun _ => rfl) (fun _ _ _ _ => trivial)
      (fun _ _ _ _ => ⟨trivial, trivial⟩) fun s o _ hinv _ => ?_
    obtain ⟨hkept, hleaves⟩ := hinv.toPayment hc hr hu seq r.body.channelId r.body.networkId
      r.body.amount r.body.reason
    exact ⟨trivial, hkept, hleaves, trivial⟩

/-- Covered requests spend each collection at most once, in every run. -/
theorem spendsOnce_of_covered (hs : s.payouts = []) (hc : Covered rate s requests)
    (sched : List (ℕ × Except RequestError Outside)) :
    SpendsOnce rate (runRequests s requests sched) := by
  have hstart : Pool.Verified server.machine (discipline rate s requests) (fun _ _ _ => True)
      ⟨s, requests.map Request.program⟩ := by
    refine Pool.Verified.start ⟨rfl, rfl, by simp [hs], by simp [hs]⟩ fun i p hp => ?_
    rw [List.getElem?_map] at hp
    obtain ⟨r, hr, rfl⟩ := Option.map_eq_some_iff.mp hp
    exact (triple_createPaymentRequest hc hr).map_unit _ fun _ => ⟨rfl, by simp [hs]⟩
  exact (Pool.run_verified (fun _ _ _ _ => trivial) hstart sched).1.spends

/-! ### Requests that do not -/

/-- The steps of a request up to the provider's answer. -/
def asks (k : ℕ) : List (ℕ × Except RequestError Outside) :=
  [.ok {}, .ok {}, .ok {}].map fun o => (k, o)

/-- A request of a user with a profile gets its payout. -/
theorem run_asks {P : Pool Query Unit Tables} {k : ℕ} {r : Request}
    (hp : P.procs[k]? = some r.program) (hu : r.userId ∈ P.store.users) :
    (P.run server.machine (asks k)).store =
        P.store.issue (r.payload "") r.body.collectionSequenceId ∧
      ∀ j, j ≠ k → (P.run server.machine (asks k)).procs[j]? = P.procs[j]? := by
  have hrun : (r.program.advance server.machine k [.ok {}, .ok {}, .ok {}] P.store).2 =
      P.store.issue (r.payload "") r.body.collectionSequenceId := by
    simp [Request.program, createPaymentRequest, sql, Backend.call, ExceptT.run_bind, perform,
      advance, Backend.machine, server, Query.run, hu]
  unfold asks
  rw [Pool.run_alone server.machine hp]
  exact ⟨hrun, fun j hj => List.getElem?_set_ne (Ne.symm hj)⟩

/-- Requests that spend each collection at most once in every run are covered. -/
theorem covered_of_spendsOnce
    (h : ∀ sched, SpendsOnce rate (runRequests s requests sched)) : Covered rate s requests := by
  have hproc : ∀ (k : ℕ) (hk : k < requests.length),
      (requests.map Request.program)[k]? = some requests[k].program := fun k hk => by simp [hk]
  refine ⟨fun r hr hu => ?_, List.pairwise_iff_getElem.mpr fun j k hj hk hjk hu hu' he => ?_⟩
  · obtain ⟨k, hk, rfl⟩ := List.getElem_of_mem hr
    obtain ⟨hstore, -⟩ := run_asks (P := ⟨s, requests.map Request.program⟩) (hproc k hk) hu
    have hspends := h (asks k)
    unfold runRequests at hspends
    rw [hstore] at hspends
    exact hspends.paid _ List.mem_cons_self
  -- the two requests, one after the other
  · obtain ⟨hstore, hprocs⟩ := run_asks (P := ⟨s, requests.map Request.program⟩) (hproc j hj) hu
    obtain ⟨hstore', -⟩ := run_asks ((hprocs k hjk.ne').trans (hproc k hk))
      (by rw [hstore]; exact hu')
    have hspends := h (asks j ++ asks k)
    unfold runRequests at hspends
    rw [Pool.run_append, hstore', hstore] at hspends
    have hne := (List.nodup_cons.mp hspends.once).1
    rw [← he] at hne
    exact hne List.mem_cons_self

/-- **The requests spend each collection at most once in every run exactly when they are
covered**, where no payout was issued before. -/
theorem spends_once_iff (rate : String → ℚ) (users : List String)
    (transactions : List TransactionRow) (collections : List Collection)
    (requests : List Request) :
    (∀ sched, SpendsOnce rate (runRequests ⟨users, transactions, collections, []⟩ requests sched)) ↔
      Covered rate ⟨users, transactions, collections, []⟩ requests :=
  ⟨covered_of_spendsOnce, fun hc => spendsOnce_of_covered rfl hc⟩

/-- A user draws 900 dollars on the pending collection of another, of 5 dollars. -/
theorem spends_a_strange_collection :
    ¬ ∀ (rate : String → ℚ) (users : List String) (transactions : List TransactionRow)
      (collections : List Collection) (requests : List Request) sched,
        SpendsOnce rate
          (runRequests ⟨users, transactions, collections, []⟩ requests sched) := by
  intro h
  have hspends := h (fun _ => 1) ["user-b"]
    [⟨"col-1", "user-a", .pendingCollection, "other", 5, "bank", "net", none, none⟩]
    [⟨"col-1", "USD", 5⟩]
    [⟨"user-b", ⟨900, "col-1", "USD", "ch", "NG", "other", "0123456789", "bank", "NG", "net",
      none, none⟩, by decide⟩] (asks 0)
  obtain ⟨row, hrow, hpays⟩ := hspends.paid _ List.mem_cons_self
  have hown : row.userId = "user-a" := by
    have hrow' : some row = some (⟨"col-1", "user-a", .pendingCollection, "other", 5, "bank",
        "net", none, none⟩ : TransactionRow) := hrow.symm
    rw [Option.some.inj hrow']
  have := hpays.own
  rw [hown] at this
  exact absurd this (by decide)

end DayfiBackend.Consumer.PaymentRequests
