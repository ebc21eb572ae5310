import DayfiBackend.Consumer.PaidSends
import DayfiBackend.Consumer.ProviderWebhooks

/-!
# The value of a collection

A collection is asked for in a currency of its own, which no table keeps. When it completes,
`completeCollectionInflow` takes an amount from the webhook, the USD one if there is one, and a
currency from the webhook, USD if there is none, each by itself. So a USD amount may be converted
again (`dollars_converted_twice`), and a local amount taken for dollars. `collection_value_iff` says
for which webhooks the user is credited the value of the collection, once, however often they are
delivered.
-/

namespace DayfiBackend.Consumer.CollectionInflows

open DayfiBackend.Found DayfiBackend.Found.Prog DayfiBackend.Found.Keys DayfiBackend.Found.Rows
  DayfiBackend.Consumer.Webhooks
open DayfiBackend.Consumer.YellowCard (RatedQuery Answers answers_sql answers_bind answers_pure
  answers_convert answers_ensure)

/-! ### Deliveries -/

/-- A collection: whom it is for, and the currency it was asked for in. -/
structure CollectionRequest where
  sequenceId : String
  userId : String
  currency : String
  sequenceId_ne : sequenceId ≠ ""
  userId_ne : userId ≠ ""
  deriving DecidableEq, Repr

/-- The amount that the handler passes on. -/
def localAmount (body : YellowCardBody) : Numeric := (body.amount.or body.localAmount).getD none

/-- A webhook of the completed collection. Source: `controller.ts` `webhook`. -/
def delivery (c : CollectionRequest) (body : YellowCardBody) : HookCall Unit :=
  completeCollectionInflow c.sequenceId (localAmount body) body.currency body.usdAmount

/-- The webhook is delivered a number of times, none of which has been handled. -/
def deliveries (c : CollectionRequest) (body : YellowCardBody) (n : ℕ) (s : Store) :
    Pool (Beside Query TransactionSql) (Except WebhookError Unit) Store :=
  ⟨s, List.replicate n (delivery c body).run⟩

/-- The rates to dollars that are read are those of the table `exchange_rates`. -/
def Rated (rates : String → Option ℚ) {β : Type} (_ : ℕ) (st : Beside Query TransactionSql β)
    (o : Except WebhookError Outside) (_ : Store) : Prop :=
  match o, st with
  | .ok o, .inner st => RatedQuery rates st o.rate
  | _, _ => True

instance (rates : String → Option ℚ) {β : Type} (st : Query β) (rate : Option ℚ) :
    Decidable (RatedQuery rates st rate) :=
  decidable_of_bool (match st with
    | .fetchRate base _ => decide (rate = rates base)
    | _ => true) (by
      cases st <;> first | exact decide_eq_true_iff | exact iff_of_true rfl trivial)

instance (rates : String → Option ℚ) {β : Type} (i : ℕ) (st : Beside Query TransactionSql β)
    (o : Except WebhookError Outside) (s : Store) : Decidable (Rated rates i st o s) :=
  decidable_of_bool (match o, st with
    | .ok o, .inner st => decide (RatedQuery rates st o.rate)
    | _, _ => true) (by
      cases o <;> cases st <;>
        first | exact decide_eq_true_iff | exact iff_of_true rfl trivial)

/-! ### The property -/

/-- An amount in dollars. -/
def worthUsd (rates : String → Option ℚ) (amount : ℚ) (currency : String) : Option ℚ :=
  (usdAmount (rates currency) amount currency).toOption

/-- What a collection is worth: the webhook's USD amount when it has one, and otherwise its local
amount, converted from the currency of the collection. -/
def collectionValue (rates : String → Option ℚ) (c : CollectionRequest) (body : YellowCardBody) :
    Option ℚ :=
  match body.usdAmount with
  | some usd => usd
  | none => (localAmount body).bind (worthUsd rates · (currencyCode c.currency))

/-- The key of the credit. -/
def collectionKey (c : CollectionRequest) : String :=
  buildIdempotencyKey "yellowcard" c.sequenceId

/-- The credits of a collection. -/
def creditsOf (c : CollectionRequest) (s : Store) : List MovementRow :=
  s.1.movements.filter (·.idempotencyKey = collectionKey c)

/-- What a user has in dollars, in cents. -/
def usdCents (userId : String) (s : Store) : ℤ :=
  (s.1.wallets.map fun w => if w.userId = userId ∧ w.currency = primaryCurrency then w.balance
    else 0).sum

/-- A dollar wallet of the user. -/
def DollarWallet (c : CollectionRequest) (walletId : ℕ) (s : Store) : Prop :=
  ∃ w ∈ s.1.wallets, w.walletId = walletId ∧ w.userId = c.userId ∧ w.currency = primaryCurrency

/-- A movement credits the value of the collection to a dollar wallet of its user. -/
structure CreditsValue (rates : String → Option ℚ) (c : CollectionRequest) (body : YellowCardBody)
    (s : Store) (m : MovementRow) : Prop where
  value : (collectionValue rates c body).map cents = some m.amount
  credit : m.direction = .credit
  wallet : DollarWallet c m.walletId s

/-- The user is credited the value of the collection: at most once, once when a delivery has been
handled, and has that much more. -/
structure CreditedValue (rates : String → Option ℚ) (c : CollectionRequest)
    (body : YellowCardBody) (s : Store)
    (P : Pool (Beside Query TransactionSql) (Except WebhookError Unit) Store) : Prop where
  once : (creditsOf c P.store).length ≤ 1
  value : ∀ m ∈ creditsOf c P.store, CreditsValue rates c body P.store m
  handled : .ret (.ok ()) ∈ P.procs → creditsOf c P.store ≠ []
  balance : usdCents c.userId P.store =
    usdCents c.userId s + ((creditsOf c P.store).map (·.amount)).sum

/-- The collection is its user's, pending, and not credited. -/
structure Pending (c : CollectionRequest) (s : Store) : Prop where
  books : Books s.1
  row : ∀ r ∈ s.2, r.id = c.sequenceId → r.userId = c.userId
  pending : ∀ r ∈ s.2, r.id = c.sequenceId → startsWith r.status "success-collection" = false
  uncredited : creditsOf c s = []

/-- The currency the handler takes the amount to be in. -/
def takenCurrency (body : YellowCardBody) : String :=
  currencyCode (body.currency.getD primaryCurrency).toUpper

/-- The currency the amount is in. -/
def amountCurrency (c : CollectionRequest) (body : YellowCardBody) : String :=
  match body.usdAmount with
  | some _ => primaryCurrency
  | none => currencyCode c.currency

/-- The amount of the webhook can be credited at some rate. -/
def Creditable (body : YellowCardBody) : Prop :=
  ∃ x ∈ body.usdAmount.getD (localAmount body),
    0 < x ∧ (takenCurrency body = primaryCurrency → 0 < cents x ∧ cents x < centsLimit)

/-! ### What every delivery keeps -/

section deliveries

variable {rates : String → Option ℚ} {c : CollectionRequest} {body : YellowCardBody}
  {s₀ s t : Store} {A : Accounts} {i : ℕ} {x usd : ℚ} {m : MovementRow}

/-- An amount taken in its own currency is credited at its value. -/
theorem value_of_same (hsame : takenCurrency body = amountCurrency c body)
    (hx : body.usdAmount.getD (localAmount body) = some x)
    (husd : usdAmount (rates (takenCurrency body)) x (takenCurrency body) = .ok usd) :
    collectionValue rates c body = some usd := by
  rw [hsame] at husd
  unfold amountCurrency at husd
  unfold collectionValue
  cases hpresent : body.usdAmount with
  | some u =>
      rw [hpresent] at hx husd
      obtain rfl : u = some x := hx
      have hx : 0 ≤ x := by
        by_contra hneg
        simp [usdAmount, not_le.mp hneg] at husd
      simp only [usdAmount, if_neg (not_lt.mpr hx), if_true] at husd
      exact congrArg some (Except.ok.inj husd)
  | none =>
      rw [hpresent] at hx husd
      have hlocal : localAmount body = some x := hx
      rw [hlocal]
      simp only [Option.bind_some, worthUsd, husd]
      rfl

/-- The collection is not credited, or once and at its value. -/
def InflowCredits (rates : String → Option ℚ) (c : CollectionRequest) (body : YellowCardBody)
    (s₀ s : Store) : Prop :=
  creditsOf c s = [] ∧ usdCents c.userId s = usdCents c.userId s₀ ∨
    ∃ m, creditsOf c s = [m] ∧ CreditsValue rates c body s m ∧
      usdCents c.userId s = usdCents c.userId s₀ + m.amount

/-- The invariant of the deliveries. -/
structure InflowInv (rates : String → Option ℚ) (c : CollectionRequest) (body : YellowCardBody)
    (s₀ s : Store) : Prop where
  books : Books s.1
  row : ∀ r ∈ s.2, r.id = c.sequenceId → r.userId = c.userId
  credits : InflowCredits rates c body s₀ s
  done : ∀ r ∈ s.2, r.id = c.sequenceId → startsWith r.status "success-collection" = true →
    creditsOf c s ≠ []

/-- What a delivery may count on. -/
structure Grows (c : CollectionRequest) (s t : Store) : Prop where
  credits : creditsOf c s ≠ [] → creditsOf c t ≠ []
  wallets : ∀ walletId, DollarWallet c walletId s → DollarWallet c walletId t

theorem Grows.refl (s : Store) : Grows c s s := ⟨fun h => h, fun _ h => h⟩

/-- The discipline of the deliveries. -/
def inflowDiscipline (rates : String → Option ℚ) (c : CollectionRequest) (body : YellowCardBody)
    (s₀ : Store) :
    Discipline (Beside Query TransactionSql) (Except WebhookError Outside) Store where
  inv := InflowInv rates c body s₀
  rely _ := Grows c
  cond := Rated rates
  good _ _ _ _ _ _ := True
  rely_refl _ := Grows.refl
  rely_trans _ _ _ _ h h' :=
    ⟨fun hs => h'.credits (h.credits hs), fun w hw => h'.wallets w (h.wallets w hw)⟩

theorem inflowLax : Lax (inflowDiscipline rates c body s₀) := ⟨fun _ _ _ _ _ _ => trivial⟩

/-- A credit that is there stays. -/
theorem creditsOf_cons (hA : A.movements = m :: s.1.movements) :
    creditsOf c (A, s.2) =
      if m.idempotencyKey = collectionKey c then m :: creditsOf c s else creditsOf c s := by
  unfold creditsOf
  rw [hA, List.filter_cons]
  simp only [decide_eq_true_eq]

/-- Nothing of the collection is credited when there is no movement under its key. -/
theorem creditsOf_eq_nil (h : s.1.movement? (collectionKey c) = none) : creditsOf c s = [] := by
  unfold creditsOf
  refine List.filter_eq_nil_iff.mpr fun m hm => ?_
  simpa using List.find?_eq_none.mp h m hm

theorem creditsOf_ne_nil (h : s.1.movement? (collectionKey c) = some m) : creditsOf c s ≠ [] := by
  have hm : m ∈ creditsOf c s := List.mem_filter.mpr
    ⟨List.mem_of_find?_eq_some h, by simpa using List.find?_some h⟩
  exact List.ne_nil_of_mem hm

theorem DollarWallet.posts {slack : ℤ} {walletId : ℕ} (h : DollarWallet c walletId s)
    (hposts : Posts s.1 A m slack) : DollarWallet c walletId (A, s.2) := by
  obtain ⟨w, hw, hid, huser, hcurrency⟩ := h
  unfold DollarWallet
  dsimp only
  rw [hposts.wallets]
  refine ⟨_, List.mem_map_of_mem hw, ?_⟩
  split_ifs
  · exact ⟨hid, huser, hcurrency⟩
  · exact ⟨hid, huser, hcurrency⟩

/-- The credit of the collection. -/
theorem InflowInv.credit (h : InflowInv rates c body s₀ s) {p : BalanceParams}
    (hstep : CreditStep p primaryCurrency s.1 A) (hkey : p.idempotencyKey = collectionKey c)
    (hw : DollarWallet c p.walletId s)
    (hvalue : (collectionValue rates c body).map cents = some (cents p.amount)) :
    InflowInv rates c body s₀ (A, s.2) ∧ Grows c s (A, s.2) ∧ creditsOf c (A, s.2) ≠ [] := by
  have hposts := hstep.posts h.books
  have hnone : creditsOf c s = [] := creditsOf_eq_nil (hkey ▸ hstep.fresh)
  have hmovement : (p.credited primaryCurrency s.1).idempotencyKey = collectionKey c := hkey
  have hcredits : creditsOf c (A, s.2) = [p.credited primaryCurrency s.1] := by
    rw [creditsOf_cons hposts.movements, if_pos hmovement, hnone]
  have hnil : creditsOf c (A, s.2) ≠ [] := by
    rw [hcredits]
    exact List.cons_ne_nil _ _
  have hgrows : Grows c s (A, s.2) := ⟨fun _ => hnil, fun _ hwallet => hwallet.posts hposts⟩
  have hbefore : usdCents c.userId s = usdCents c.userId s₀ := by
    rcases h.credits with ⟨-, hsame⟩ | ⟨m, hm, -⟩
    · exact hsame
    · rw [hnone] at hm
      cases hm
  have hbalance : usdCents c.userId (A, s.2) = usdCents c.userId s + cents p.amount := by
    obtain ⟨w, hmem, hid, huser, hcurrency⟩ := hw
    unfold usdCents
    dsimp only
    rw [hposts.sum_wallets h.books hmem hid, if_pos ⟨huser, hcurrency⟩, if_pos ⟨huser, hcurrency⟩]
    simp only [BalanceParams.credited, BalanceParams.movement, MovementRow.signed]
    ring
  refine ⟨⟨hposts.books h.books, h.row, .inr ⟨_, hcredits, ⟨hvalue, rfl, hw.posts hposts⟩, ?_⟩,
    fun _ _ _ _ => hnil⟩, hgrows, hnil⟩
  rw [hbalance, hbefore]
  rfl

/-- A wallet is opened. -/
theorem InflowInv.wallet (h : InflowInv rates c body s₀ s) {userId : String} {w : WalletRow}
    (hnew : s.1.createWallet userId primaryCurrency = (.ok w, A)) :
    InflowInv rates c body s₀ (A, s.2) ∧ Grows c s (A, s.2) ∧
      (userId = c.userId → DollarWallet c w.walletId (A, s.2)) := by
  unfold Accounts.createWallet at hnew
  split_ifs at hnew with hid
  · cases (Prod.mk.inj hnew).1
  · obtain ⟨hw, rfl⟩ := Prod.mk.inj hnew
    obtain rfl := Except.ok.inj hw
    have hkept : ∀ walletId, DollarWallet c walletId s → DollarWallet c walletId
        ({ s.1 with
          wallets := { walletId := s.1.nextId, userId := userId, currency := primaryCurrency } ::
            s.1.wallets
          nextId := s.1.nextId + 1 }, s.2) := by
      rintro walletId ⟨v, hv, hwallet⟩
      exact ⟨v, List.mem_cons_of_mem _ hv, hwallet⟩
    refine ⟨⟨⟨?_, ?_, ?_⟩, h.row, ?_, h.done⟩, ⟨fun hs => hs, hkept⟩, fun huser => ?_⟩
    · refine List.pairwise_cons.mpr ⟨fun v hv he => hid ?_, h.books.ids⟩
      exact List.any_eq_true.mpr ⟨v, hv, by simpa using he.symm⟩
    · intro m hm
      obtain ⟨v, hv, hvid⟩ := h.books.owned m hm
      exact ⟨v, List.mem_cons_of_mem _ hv, hvid⟩
    · intro v hv
      rcases List.mem_cons.mp hv with rfl | hv
      · exact le_rfl
      · exact h.books.nonneg v hv
    · have hcents : usdCents c.userId ({ s.1 with
          wallets := { walletId := s.1.nextId, userId := userId, currency := primaryCurrency } ::
            s.1.wallets
          nextId := s.1.nextId + 1 }, s.2) = usdCents c.userId s := by
        simp [usdCents]
      rcases h.credits with ⟨hnone, hsame⟩ | ⟨m, hm, hvalue, hsame⟩
      · exact .inl ⟨hnone, hcents.trans hsame⟩
      · exact .inr ⟨m, hm, ⟨hvalue.value, hvalue.credit, hkept _ hvalue.wallet⟩,
          hcents.trans hsame⟩
    · exact ⟨_, List.mem_cons_self, rfl, huser, rfl⟩

/-- The status of a credited collection is set. -/
theorem InflowInv.status (h : InflowInv rates c body s₀ s) (hcredited : creditsOf c s ≠ [])
    (which : TransactionRow → Bool) (status : String) :
    InflowInv rates c body s₀ (s.1, (setStatus s.2 which status).2) := by
  have hcredits : InflowCredits rates c body s₀ (s.1, (setStatus s.2 which status).2) := by
    rcases h.credits with hnone | ⟨m, hm, hvalue, hsame⟩
    · exact .inl hnone
    · exact .inr ⟨m, hm, ⟨hvalue.value, hvalue.credit, hvalue.wallet⟩, hsame⟩
  refine ⟨h.books, fun r hr hid => ?_, hcredits, fun _ _ _ _ => hcredited⟩
  obtain ⟨q, hq, rfl⟩ := List.mem_map.mp hr
  split_ifs at hid ⊢
  · exact h.row q hq hid
  · exact h.row q hq hid

/-! ### What a delivery does -/

/-- What is known of the tables, in the course of a delivery. -/
abbrev Inflow (rates : String → Option ℚ) (c : CollectionRequest) (body : YellowCardBody)
    (s₀ : Store) (i : ℕ) {β : Type} (P : Store → Prop) (p : HookCall β) (Q : β → Store → Prop) :
    Prop :=
  Triple server.machine (inflowDiscipline rates c body s₀) i P p Q fun _ _ => True

theorem stays_any : ∀ s t : Store, True → Grows c s t → True := fun _ _ _ _ => trivial

theorem stays_dollarWallet {walletId : ℕ} :
    ∀ s t, DollarWallet c walletId s → Grows c s t → DollarWallet c walletId t :=
  fun _ _ h hgrows => hgrows.wallets _ h

theorem stays_credited : ∀ s t, creditsOf c s ≠ [] → Grows c s t → creditsOf c t ≠ [] :=
  fun _ _ h hgrows => hgrows.credits h

/-- The row of the collection is read. -/
theorem inflow_read : Inflow rates c body s₀ i (fun _ => True)
    (Webhooks.sql (.getWalletTransactionById c.sequenceId))
    fun found s => (∀ tx ∈ found, tx.userId = c.userId) ∧
      ∀ tx ∈ found, startsWith tx.status "success-collection" = true → creditsOf c s ≠ [] := by
  refine Beside.triple_own (fun _ => rfl) stays_any (fun _ _ _ _ _ => ⟨trivial, trivial⟩)
    fun s o _ hinv _ => ⟨⟨trivial, hinv, fun _ _ => Grows.refl s⟩, fun found hfound => ?_,
      fun _ _ => trivial⟩
  have hrow : ∀ tx ∈ found, tx ∈ s.2 ∧ tx.id = c.sequenceId := by
    intro tx htx
    rw [← Except.ok.inj hfound] at htx
    exact ⟨List.mem_of_find?_eq_some htx, by simpa using List.find?_some htx⟩
  exact ⟨fun tx htx => hinv.row tx (hrow tx htx).1 (hrow tx htx).2,
    fun tx htx => hinv.done tx (hrow tx htx).1 (hrow tx htx).2⟩

/-- The user's dollar wallet is found, or opened. -/
theorem inflow_ensureWallet : Inflow rates c body s₀ i (fun _ => True)
    (ledger (ensureWalletForCurrency c.userId primaryCurrency))
    fun w s => DollarWallet c w.walletId s := by
  have hupper : primaryCurrency.toUpper = primaryCurrency := by decide +kernel
  unfold ensureWalletForCurrency
  rw [hupper]
  refine triple_embed_bind (R := fun found s => ∀ w ∈ found, DollarWallet c w.walletId s)
    (triple_reads inflowLax rfl rfl stays_any fun s o found _ _ _ hfound w hw => ?_) fun found => ?_
  · rw [← Except.ok.inj hfound] at hw
    have hwallet := List.find?_some hw
    simp only [Bool.and_eq_true, decide_eq_true_eq] at hwallet
    exact ⟨w, List.mem_of_find?_eq_some hw, rfl, hwallet⟩
  · cases found with
    | some w => exact triple_embed_pure fun s hs => hs w rfl
    | none =>
        refine (triple_createWallet inflowLax c.userId primaryCurrency stays_any
          fun s A w _ hinv hnew => ?_).mono (fun _ _ => trivial) (fun _ _ h => h) fun _ _ h => h
        obtain ⟨hinv', hgrows, hwallet⟩ := hinv.wallet hnew
        exact ⟨hinv', fun _ _ => hgrows, hwallet rfl⟩

/-- A conversion, at the rate of the table. -/
theorem inflow_convert {walletId : ℕ} (amount : ℚ) (currency : String) :
    Inflow rates c body s₀ i (DollarWallet c walletId)
      (ledger (convertAmountToUsd amount currency)) fun usd s =>
        usdAmount (rates (currencyCode currency)) amount (currencyCode currency) = .ok usd ∧
          DollarWallet c walletId s := by
  unfold convertAmountToUsd
  dsimp only
  split_ifs with hneg hcur hzero
  · exact triple_embed_throw fun _ _ => trivial
  · exact triple_embed_pure fun s hs => ⟨by simp [usdAmount, hneg, hcur], hs⟩
  · exact triple_embed_pure fun s hs => ⟨by simp [usdAmount, hcur, hzero], hs⟩
  · refine triple_embed_bind (R := fun rate s => rate = rates (currencyCode currency) ∧
        DollarWallet c walletId s) ?_ fun rate => Triple.assume fun hrate => ?_
    · refine Beside.triple_inner rfl stays_dollarWallet
        (fun _ _ _ _ _ => ⟨trivial, trivial⟩) fun s o hs hinv hc =>
          ⟨⟨trivial, hinv, fun _ _ => Grows.refl s⟩, fun rate hrate => ⟨?_, hs⟩, fun _ _ => trivial⟩
      rw [← Except.ok.inj hrate]
      exact hc
    · subst hrate
      cases husd : usdAmount (rates (currencyCode currency)) amount (currencyCode currency) with
      | error e => exact triple_embed_throw fun _ _ => trivial
      | ok usd => exact triple_embed_pure fun s hs => ⟨rfl, hs⟩

/-- An amount that is credited is one that can be. -/
theorem creditable_of_posted (hx : body.usdAmount.getD (localAmount body) = some x)
    (husd : usdAmount (rates (takenCurrency body)) x (takenCurrency body) = .ok usd)
    (hpos : 0 < cents usd) (hlt : cents usd < centsLimit) : Creditable body := by
  refine ⟨x, hx, ?_, fun hdollars => ?_⟩
  · unfold usdAmount at husd
    split_ifs at husd with hneg hcur hzero
    · obtain rfl := Except.ok.inj husd
      exact pos_of_cents_pos hpos
    · obtain rfl := Except.ok.inj husd
      exact absurd hpos (by decide +kernel)
    · exact lt_of_le_of_ne (not_lt.mp hneg) (Ne.symm hzero)
  · unfold usdAmount at husd
    rw [if_pos hdollars] at husd
    split_ifs at husd
    obtain rfl := Except.ok.inj husd
    exact ⟨hpos, hlt⟩

/-- The amount is credited, or has been. -/
theorem inflow_credit (hsame : Creditable body → takenCurrency body = amountCurrency c body)
    (hx : body.usdAmount.getD (localAmount body) = some x) {p : BalanceParams}
    (hkey : p.idempotencyKey = collectionKey c) (hamount : p.amount = x)
    (hcurrency : currencyCode p.currency = takenCurrency body) :
    Inflow rates c body s₀ i (DollarWallet c p.walletId) (ledger (creditUsdBalance p))
      fun _ s => creditsOf c s ≠ [] := by
  refine triple_embed_bind ((triple_find inflowLax p.idempotencyKey stays_dollarWallet).mono
    (fun _ h => h) (fun _ _ h => h) fun _ _ _ => trivial) fun found => ?_
  cases found with
  | some m =>
      exact triple_embed_pure fun s hs => creditsOf_ne_nil (hkey ▸ hs.2.2.1.symm)
  | none =>
      refine triple_embed_bind ((inflow_convert p.amount p.currency).mono (fun s hs => hs.1)
        (fun _ _ h => h) fun _ _ h => h) fun usd => Triple.assume fun husd => ?_
      rw [hcurrency, hamount] at husd
      suffices hkeeps : CreditKeeps (inflowDiscipline rates c body s₀) i
          (DollarWallet c p.walletId) { p with amount := usd, usdEquivalent := usd } primaryCurrency
          fun s => creditsOf c s ≠ [] from
        triple_embed_bind ((triple_creditTx inflowLax stays_dollarWallet hkeeps).mono
          (fun _ h => h) (fun _ _ h => h) fun _ _ _ => trivial) fun _ =>
            triple_embed_pure fun s hs => hs
      intro s A hs hinv hstep
      obtain ⟨w, -, -, -, hfits, -⟩ := hstep.wallet
      have hcreditable : Creditable body := creditable_of_posted hx husd hfits.pos
        ((le_abs_self _).trans_lt hfits.amount_lt)
      have hvalue : collectionValue rates c body = some usd :=
        value_of_same (hsame hcreditable) hx husd
      obtain ⟨hinv', hgrows, hcredited⟩ := hinv.credit hstep hkey hs (by rw [hvalue]; rfl)
      exact ⟨hinv', fun _ _ => hgrows, hcredited⟩

/-- The status of the credited collection is set. -/
theorem inflow_status : Inflow rates c body s₀ i (fun s => creditsOf c s ≠ [])
    (Webhooks.sql (.updateWalletTransaction c.sequenceId "success-collection"))
    fun _ s => creditsOf c s ≠ [] := by
  refine Beside.triple_own (fun _ => rfl) stays_credited (fun _ _ _ _ _ => ⟨trivial, trivial⟩)
    fun s o hs hinv _ => ?_
  have hrun : transactions.run i (.updateWalletTransaction c.sequenceId "success-collection") o s =
      (.ok (setStatus s.2 (·.id = c.sequenceId) "success-collection").1, s.1,
        (setStatus s.2 (·.id = c.sequenceId) "success-collection").2) := rfl
  rw [hrun]
  exact ⟨⟨trivial, hinv.status hs _ _, fun _ _ => ⟨fun h => h, fun _ h => h⟩⟩, fun _ _ => hs,
    fun _ _ => trivial⟩

/-- The inflow of the amount. -/
theorem inflow_amount (hsame : Creditable body → takenCurrency body = amountCurrency c body) :
    Inflow rates c body s₀ i (fun _ => True)
      (creditWalletInflow c.userId (body.usdAmount.getD (localAmount body))
        (body.currency.getD primaryCurrency).toUpper .yellowcard "yellowcard" c.sequenceId)
      fun _ s => creditsOf c s ≠ [] := by
  unfold creditWalletInflow
  rw [if_neg c.sequenceId_ne]
  refine Triple.bind inflow_ensureWallet fun usdWallet => ?_
  unfold creditUsdInflow
  dsimp only
  cases hx : body.usdAmount.getD (localAmount body) with
  | some x =>
      let p : BalanceParams := {
        userId := c.userId
        walletId := usdWallet.walletId
        amount := x
        currency := (body.currency.getD primaryCurrency).toUpper
        source := .yellowcard
        idempotencyKey := buildIdempotencyKey "yellowcard" c.sequenceId
        externalReference := some c.sequenceId }
      have hcredit : Inflow rates c body s₀ i (DollarWallet c usdWallet.walletId)
          (ledger (creditUsdBalance p)) fun _ s => creditsOf c s ≠ [] :=
        inflow_credit (p := p) hsame hx rfl rfl rfl
      exact Triple.bind hcredit fun _ => Triple.pure fun _ h => h
  | none =>
      refine Triple.bind ((triple_find inflowLax (collectionKey c) stays_dollarWallet).mono
        (fun _ h => h) (fun _ _ h => h) fun _ _ _ => trivial) fun found => ?_
      cases found with
      | some m => exact Triple.pure fun s hs => creditsOf_ne_nil hs.2.2.1.symm
      | none => exact Triple.throw fun _ _ => trivial

/-- A delivery credits the collection, or finds it credited. -/
theorem inflow_delivery (hsame : Creditable body → takenCurrency body = amountCurrency c body) :
    Inflow rates c body s₀ i (fun _ => True) (delivery c body) fun _ s => creditsOf c s ≠ [] := by
  refine Triple.bind inflow_read fun found => Triple.assume fun huser => ?_
  cases found with
  | none => exact Triple.throw fun _ _ => trivial
  | some tx =>
      have huser : tx.userId = c.userId := huser tx rfl
      dsimp only
      rw [huser, if_neg c.userId_ne]
      by_cases hdone : startsWith tx.status "success-collection" = true
      · rw [if_pos hdone]
        exact Triple.pure fun s hs => hs tx rfl hdone
      · rw [if_neg hdone]
        exact Triple.bind ((inflow_amount hsame).mono (fun _ _ => trivial) (fun _ _ h => h)
          fun _ _ h => h) fun _ => Triple.bind inflow_status fun _ => Triple.pure fun _ h => h

/-- However often the webhook is delivered, the collection is credited its value. -/
theorem credited_of_same (hsame : Creditable body → takenCurrency body = amountCurrency c body)
    (n : ℕ) (hpending : Pending c s) {sched : List (ℕ × Except WebhookError Outside)}
    (hc : Pool.Along server.machine (Pool.CondAt (Rated rates)) (deliveries c body n s) sched) :
    CreditedValue rates c body s ((deliveries c body n s).run server.machine sched) := by
  have hinv : InflowInv rates c body s s :=
    ⟨hpending.books, hpending.row, .inl ⟨hpending.uncredited, rfl⟩, fun r hr hid hdone => by
      simp [hpending.pending r hr hid] at hdone⟩
  have hstart : Pool.Verified server.machine (inflowDiscipline rates c body s)
      (fun _ r t => r = .ok () → creditsOf c t ≠ []) (deliveries c body n s) := by
    refine Pool.Verified.start hinv fun i p hp => ?_
    obtain rfl := List.eq_of_mem_replicate (List.mem_of_getElem? hp)
    refine wp_mono (fun r t ht hr => ?_) _ _ (inflow_delivery hsame s trivial)
    subst hr
    exact ht
  have hverified := (Pool.run_sound hstart sched hc).1
  have hcredits := hverified.1.credits
  refine ⟨?_, ?_, fun hret => ?_, ?_⟩
  · rcases hcredits with ⟨hnone, -⟩ | ⟨m, hm, -⟩
    · simp [hnone]
    · simp [hm]
  · rcases hcredits with ⟨hnone, -⟩ | ⟨m, hm, hvalue, -⟩
    · simp [hnone]
    · simpa [hm] using hvalue
  · obtain ⟨i, hi⟩ := List.mem_iff_getElem?.mp hret
    obtain ⟨t, ht, hgrows⟩ := hverified.result hi
    exact hgrows.credits (ht rfl)
  · rcases hcredits with ⟨hnone, hsame⟩ | ⟨m, hm, -, hsame⟩
    · simpa [hnone] using hsame
    · simpa [hm] using hsame

end deliveries

/-! ### A delivery of an amount in another currency -/

section alone

variable {rates : String → Option ℚ} {c : CollectionRequest} {body : YellowCardBody} {x usd : ℚ}

/-- The dollar wallet of the user. -/
def dollarWallet (c : CollectionRequest) : WalletRow where
  walletId := 1
  userId := c.userId
  currency := "USD"

/-- The user has a dollar wallet, and the collection is pending. -/
def opening (c : CollectionRequest) : Store where
  fst := {
    wallets := [dollarWallet c]
    nextId := 2 }
  snd := [{
    id := c.sequenceId
    userId := c.userId
    status := "pending-collection" }]

theorem pending_opening (c : CollectionRequest) : Pending c (opening c) where
  books := ⟨List.pairwise_singleton _ _, fun m hm => (by cases hm), fun w hw => by
    obtain rfl := List.mem_singleton.mp hw
    exact le_rfl⟩
  row r hr _ := by
    obtain rfl := List.mem_singleton.mp hr
    rfl
  pending r hr _ := by
    obtain rfl := List.mem_singleton.mp hr
    show startsWith "pending-collection" "success-collection" = false
    decide +kernel
  uncredited := rfl

/-- The parameters of the credit. -/
def inflowParams (c : CollectionRequest) (body : YellowCardBody) (x : ℚ) : BalanceParams where
  userId := c.userId
  walletId := 1
  amount := x
  currency := (body.currency.getD primaryCurrency).toUpper
  source := .yellowcard
  idempotencyKey := buildIdempotencyKey "yellowcard" c.sequenceId
  externalReference := some c.sequenceId

/-- An amount that can be held is credited. -/
theorem answers_inflow
    (husd : usdAmount (rates (takenCurrency body)) x (takenCurrency body) = .ok usd)
    (hpos : 0 < cents usd) (hlt : cents usd < centsLimit) :
    ∃ b B, Answers rates 0 (creditUsdBalance (inflowParams c body x)) (opening c).1 b B ∧
      ∃ m, B.movements = [m] ∧ m.idempotencyKey = collectionKey c ∧ m.amount = cents usd := by
  have hbalance : |cents usd| < centsLimit := by rwa [abs_of_pos hpos]
  let p : BalanceParams := { inflowParams c body x with amount := usd, usdEquivalent := usd }
  have hfits : (opening c).1.Fits (cents (decimal (dollarWallet c).balance + p.amount))
      (p.credited primaryCurrency (opening c).1) := by
    refine ⟨?_, hbalance, hbalance, hpos, rfl⟩
    have hzero : decimal (dollarWallet c).balance = 0 := by simp [decimal, dollarWallet]
    rw [hzero, zero_add]
    exact hbalance
  have htx : (opening c).1.creditTx p primaryCurrency = (.ok (opening c).1.nextId,
      (opening c).1.recorded (cents (decimal (dollarWallet c).balance + p.amount))
        (p.credited primaryCurrency (opening c).1)) := by
    unfold Accounts.creditTx
    exact Accounts.record_of_fits hfits
  refine ⟨_, _, answers_bind (b := none) (B := (opening c).1) (answers_sql (fun _ => trivial) rfl)
    (answers_bind (answers_convert husd) (answers_bind (answers_sql (fun _ => trivial) htx)
      (answers_pure _))), _, rfl, rfl, rfl⟩

/-- A delivery credits what its amount comes to in the currency it is taken in. -/
theorem reaches_delivery (hx : body.usdAmount.getD (localAmount body) = some x)
    (husd : usdAmount (rates (takenCurrency body)) x (takenCurrency body) = .ok usd)
    (hpos : 0 < cents usd) (hlt : cents usd < centsLimit) :
    ∃ q t, Reaches server.machine (Rated rates) 0 (delivery c body).run (opening c) q t ∧
      ∃ m ∈ creditsOf c t, m.amount = cents usd := by
  obtain ⟨b, B, hcredit, m, hmovements, hkey, hamount⟩ := answers_inflow (c := c) husd hpos hlt
  have hledger : ∀ {β : Type} {p : Call β} {b : β} {B : Accounts},
      Answers rates 0 p (opening c).1 b B →
      Reaches server.machine (Rated rates) 0 (ledger p).run (opening c) (ret (.ok b))
        (B, (opening c).2) := fun h =>
    Reaches.inside (fun st o s ho => by
      obtain ⟨o', rfl, hrated⟩ := ho
      exact ⟨o', rfl, hrated⟩) h
  have hread : Reaches server.machine (Rated rates) 0
      (Webhooks.sql (.getWalletTransactionById c.sequenceId)).run (opening c)
      (ret (.ok (some {
        id := c.sequenceId
        userId := c.userId
        status := "pending-collection" }))) (opening c) :=
    .call {} trivial (by simp [server, Backend.beside, transactions, TransactionSql.run, opening])
  have hensure : Answers rates 0 (ensureWalletForCurrency c.userId primaryCurrency) (opening c).1
      (dollarWallet c) (opening c).1 := by
    have hupper : primaryCurrency.toUpper = "USD" := by decide +kernel
    exact answers_ensure (by simp [opening, dollarWallet, hupper])
  have hopen : startsWith "pending-collection" "success-collection" = false := by decide +kernel
  have hinflow : Reaches server.machine (Rated rates) 0
      (creditWalletInflow c.userId (body.usdAmount.getD (localAmount body))
        (body.currency.getD primaryCurrency).toUpper .yellowcard "yellowcard" c.sequenceId).run
      (opening c) (ret (.ok ())) (B, (opening c).2) := by
    unfold creditWalletInflow
    rw [if_neg c.sequenceId_ne, hx]
    exact ((hledger hensure).bind_ok _).trans
      (((hledger hcredit).bind_ok fun _ => pure ()).trans (.refl _ _))
  let rest : HookCall Unit := do
    let _ ← Webhooks.sql (.updateWalletTransaction c.sequenceId "success-collection")
    pure ()
  refine ⟨rest.run, (B, (opening c).2), (hread.bind_ok _).trans ?_, m, ?_, hamount⟩
  · dsimp only
    rw [if_neg c.userId_ne, hopen]
    exact (hinflow.bind_ok fun _ => rest).trans (.refl _ _)
  · simp [creditsOf, hmovements, hkey]

/-- Rates at which no amount comes to the same in two currencies. -/
def unevenRates (taken : String) (x : ℚ) (currency : String) : Option ℚ :=
  some (decimal (if currency = taken ∨ taken = primaryCurrency then
    (if cents x = 1 then 2 else 1) else 3) / x)

theorem usdAmount_of_cents {k : ℤ} (hx : 0 < x) {currency : String}
    (hcurrency : currency ≠ primaryCurrency) :
    usdAmount (some (decimal k / x)) x currency = .ok (decimal k) := by
  unfold usdAmount
  rw [if_neg (not_lt.mpr hx.le), if_neg hcurrency, if_neg hx.ne']
  dsimp only
  rw [mul_div_cancel₀ _ hx.ne', toFixed2, cents_decimal]

/-- At some rates a creditable amount is credited, at another value than that of the collection
when it is taken in another currency. -/
theorem exists_rates (hx : body.usdAmount.getD (localAmount body) = some x) (hpos : 0 < x)
    (hdollars : takenCurrency body = primaryCurrency → 0 < cents x ∧ cents x < centsLimit)
    (hother : takenCurrency body ≠ amountCurrency c body) :
    ∃ usd, usdAmount (unevenRates (takenCurrency body) x (takenCurrency body)) x
        (takenCurrency body) = .ok usd ∧ 0 < cents usd ∧ cents usd < centsLimit ∧
      (collectionValue (unevenRates (takenCurrency body) x) c body).map cents ≠
        some (cents usd) := by
  let k : ℤ := if cents x = 1 then 2 else 1
  have hk : cents x ≠ k ∧ 0 < k ∧ k < 3 := by
    simp only [k]
    split_ifs <;> omega
  have hvalue : body.usdAmount = none → ∀ j : ℤ, currencyCode c.currency ≠ primaryCurrency →
      unevenRates (takenCurrency body) x (currencyCode c.currency) = some (decimal j / x) →
      (collectionValue (unevenRates (takenCurrency body) x) c body).map cents = some j := by
    intro hnone j hlocal hrate
    rw [hnone] at hx
    have hx : localAmount body = some x := hx
    simp [collectionValue, hnone, hx, worthUsd, hrate, usdAmount_of_cents hpos hlocal,
      Except.toOption, cents_decimal]
  have hdollar : (body.usdAmount.isSome = true ∨ currencyCode c.currency = primaryCurrency) →
      (collectionValue (unevenRates (takenCurrency body) x) c body).map cents = some (cents x) := by
    intro hown
    unfold collectionValue
    cases hpresent : body.usdAmount with
    | some u =>
        rw [hpresent] at hx
        obtain rfl : u = some x := hx
        rfl
    | none =>
        rw [hpresent] at hx hown
        have hx : localAmount body = some x := hx
        have hcode : currencyCode c.currency = primaryCurrency := by simpa using hown
        simp [hx, worthUsd, hcode, usdAmount, not_lt.mpr hpos.le, Except.toOption]
  unfold amountCurrency at hother
  by_cases htaken : takenCurrency body = primaryCurrency
  · obtain ⟨hcents, hlt⟩ := hdollars htaken
    refine ⟨x, by simp [usdAmount, htaken, hpos.le], hcents, hlt, ?_⟩
    cases hpresent : body.usdAmount with
    | some u => simp [hpresent, htaken] at hother
    | none =>
        simp only [hpresent, htaken] at hother
        rw [hvalue hpresent k (Ne.symm hother) (by simp [unevenRates, htaken, k])]
        simp [Ne.symm hk.1]
  · refine ⟨decimal k, ?_, ?_, ?_, ?_⟩
    · rw [unevenRates, if_pos (.inl rfl)]
      exact usdAmount_of_cents hpos htaken
    · rw [cents_decimal]
      exact hk.2.1
    · rw [cents_decimal]
      exact hk.2.2.trans (by decide)
    · rw [cents_decimal]
      cases hpresent : body.usdAmount with
      | some u =>
          rw [hdollar (.inl (by simp [hpresent]))]
          simp [hk.1]
      | none =>
          simp only [hpresent] at hother
          by_cases hcode : currencyCode c.currency = primaryCurrency
          · rw [hdollar (.inr hcode)]
            simp [hk.1]
          · rw [hvalue hpresent 3 hcode (by simp [unevenRates, Ne.symm hother, htaken])]
            simp [hk.2.2.ne']

end alone

/-- **A collection is credited at its value**, once, however often its webhook is delivered,
exactly when its amount is taken in the currency it is in, or cannot be credited. -/
theorem collection_value_iff (c : CollectionRequest) (body : YellowCardBody) :
    (∀ (rates : String → Option ℚ) (s : Store) (n : ℕ)
      (sched : List (ℕ × Except WebhookError Outside)), Pending c s →
      Pool.Along server.machine (Pool.CondAt (Rated rates)) (deliveries c body n s) sched →
      CreditedValue rates c body s ((deliveries c body n s).run server.machine sched)) ↔
    (Creditable body → takenCurrency body = amountCurrency c body) := by
  constructor
  · rintro h ⟨x, hx, hpos, hdollars⟩
    by_contra hother
    obtain ⟨usd, husd, hcents, hlt, hvalue⟩ := exists_rates hx hpos hdollars hother
    obtain ⟨q, t, hreach, m, hm, hamount⟩ := reaches_delivery (c := c) hx husd hcents hlt
    obtain ⟨sched, halong, hrun⟩ := hreach.run (P := deliveries c body 1 (opening c)) rfl rfl
    have hcredited := h _ _ 1 sched (pending_opening c) halong
    rw [hrun] at hcredited
    exact hvalue ((hcredited.value m hm).value.trans (congrArg some hamount))
  · intro hsame rates s n sched hpending hc
    exact credited_of_same hsame n hpending hc

/-- A collection in naira. -/
def nairaCollection : CollectionRequest where
  sequenceId := "t1"
  userId := "ada"
  currency := "NGN"
  sequenceId_ne := by decide
  userId_ne := by decide

/-- Its webhook, with an amount in dollars and the currency of the other one. -/
def hundredDollars : YellowCardBody where
  sequenceId := some "t1"
  event := some "COLLECTION.COMPLETE"
  localAmount := some (some 150000)
  usdAmount := some (some 100)
  currency := some "NGN"

/-- A hundred dollars are credited as seven cents. -/
theorem dollars_converted_twice :
    ¬ ∀ (c : CollectionRequest) (body : YellowCardBody) (rates : String → Option ℚ) (s : Store)
      (n : ℕ) (sched : List (ℕ × Except WebhookError Outside)), Pending c s →
      Pool.Along server.machine (Pool.CondAt (Rated rates)) (deliveries c body n s) sched →
      CreditedValue rates c body s ((deliveries c body n s).run server.machine sched) := by
  intro h
  have husd : usdAmount (YellowCard.nairaRate (takenCurrency hundredDollars)) 100
      (takenCurrency hundredDollars) = .ok (7 / 100) := by decide +kernel
  obtain ⟨q, t, hreach, m, hm, hamount⟩ := reaches_delivery (c := nairaCollection) rfl husd
    (by decide +kernel) (by decide +kernel)
  obtain ⟨sched, halong, hrun⟩ := hreach.run
    (P := deliveries nairaCollection hundredDollars 1 (opening nairaCollection)) rfl rfl
  have hcredited := h _ _ YellowCard.nairaRate _ 1 sched (pending_opening nairaCollection) halong
  rw [hrun] at hcredited
  have hvalue := (hcredited.value m hm).value
  have hcents : (collectionValue YellowCard.nairaRate nairaCollection hundredDollars).map cents =
      some 10000 := by decide +kernel
  have hseven : cents (7 / 100) = 7 := by decide +kernel
  rw [hcents, hamount, hseven] at hvalue
  cases hvalue

end DayfiBackend.Consumer.CollectionInflows
