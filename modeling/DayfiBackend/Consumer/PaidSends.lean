import DayfiBackend.Consumer.LedgerCalls
import DayfiBackend.Consumer.YellowCardSends
import DayfiBackend.Found.Alone

/-!
# What a wallet-funded send is paid with

A request to `/send/yellowcard` names the amount that is taken from the wallet and the amount that
is paid out. The validator, the two middlewares and `walletFundedYellowCardSend` convert and check
the first one; the second one is checked against the provider's limits and passed on.

`FullyPaid` says that what the provider is told to pay out is covered by the debit, at the
platform's rates. `fullyPaid_iff` says for which requests it holds in every run: those that
something refuses on the way, and those whose two amounts agree.
-/

namespace DayfiBackend.Consumer.YellowCard

open DayfiBackend.Found DayfiBackend.Found.Prog DayfiBackend.Found.Keys

/-! ### Requests -/

/-- A body that the validator lets pass. Source: `validator.ts` `walletFundedYellowCardSend`. -/
structure SendRequest where
  userId : String
  sendAmount : ℚ
  receiveAmount : ℚ
  receiveCurrency : String
  country : String
  channelId : String
  networkId : String
  accountNumber : String
  accountName : String
  accountType : Option String
  reason : Option String
  fee : Option ℚ
  spendCurrency : Option String
  debitCurrency : Option String
  sendAmount_pos : 0 < sendAmount
  receiveAmount_pos : 0 < receiveAmount
  fee_nonneg : ∀ x ∈ fee, 0 ≤ x

namespace SendRequest

/-- The parameters of the service. Source: `controller.ts` `walletFundedYellowCardSend`. -/
def params (r : SendRequest) : SendParams where
  userId := r.userId
  sendAmount := r.sendAmount
  payWithCurrency := (r.spendCurrency.getD primaryCurrency).toUpper
  feeUsd := r.fee.getD (1 / 10)
  receiveAmount := r.receiveAmount
  receiveCurrency := r.receiveCurrency.toUpper
  country := r.country.toUpper
  channelId := r.channelId
  networkId := r.networkId
  accountNumber := r.accountNumber
  accountName := r.accountName
  accountType := r.accountType.getD "bank"
  reason := (r.reason.getD "other").toLower

/-- Source: `walletModel.ts` `DISPLAY_CURRENCIES`. -/
def displayCurrencies : List String := ["USD", "GBP", "EUR", "NGN"]

/-- `payWith`. Source: `middleware.ts` `checkWalletExistsByUserId`. -/
def checkedCurrency (r : SendRequest) : String :=
  let spendCurrency := currencyCode ((r.debitCurrency <|> r.spendCurrency).getD primaryCurrency)
  if spendCurrency ∈ displayCurrencies then spendCurrency else primaryCurrency

/-- `totalRequired`. Source: `middleware.ts` `checkSufficientBalance`. -/
def totalRequired (r : SendRequest) : ℚ := r.sendAmount + r.fee.getD 0

end SendRequest

/-- The six rates it inserts. Source: `fxService.ts` `ensurePlatformExchangeRates`. -/
def ensurePlatformExchangeRates : ℕ → Call Unit
  | 0 => pure ()
  | n + 1 => do
      Consumer.sql .aside
      ensurePlatformExchangeRates n

/-- Source: `services.ts` `ensureUserLedgerWallets`. -/
def ensureUserLedgerWallets (userId : String) : Call Unit := do
  ensurePlatformExchangeRates 6
  let _ ← ensureWalletForCurrency userId primaryCurrency
  let _ ← ensureWalletForCurrency userId "NGN"

/-- Source: `middleware.ts` `checkWalletExistsByUserId`. -/
def checkWalletExistsByUserId (r : SendRequest) : Call WalletRow := do
  ensureUserLedgerWallets r.userId
  match ← Consumer.sql (.userWallet r.userId primaryCurrency) with
  | none => throw .walletNotFound
  | some wallet => pure wallet

/-- Source: `middleware.ts` `checkSufficientBalance`. -/
def checkSufficientBalance (r : SendRequest) (wallet : WalletRow) : Call Unit := do
  let usd ← convertAmountToUsd r.totalRequired r.checkedCurrency
  if decimal wallet.balance < usd then throw .insufficientBalance

/-- The two middlewares. -/
def checkFunds (r : SendRequest) : Call Unit := do
  let wallet ← checkWalletExistsByUserId r
  checkSufficientBalance r wallet

/-- A request, from the middlewares on. -/
def SendRequest.call (r : SendRequest) : SendCall Unit := do
  ledger (checkFunds r)
  walletFundedYellowCardSend r.params

/-- The program of a request. -/
def SendRequest.program (r : SendRequest) : Prog (Beside Query SendSql) Unit :=
  r.call.run >>= fun _ => pure ()

/-- The tables at the start: wallets within the range of their column, and nothing sent. -/
structure SendOpening where
  wallets : List WalletRow
  createdAt : ℕ → ℚ
  fails : ℕ → Bool
  balances : ∀ w ∈ wallets, w.balance < centsLimit

/-- The requests, before any has begun. -/
def posted (settings : Settings) (opening : SendOpening) (requests : List SendRequest) :
    Pool (Beside Query SendSql) Unit Store :=
  ⟨({ wallets := opening.wallets },
    { settings, createdAt := opening.createdAt, fails := opening.fails }),
    requests.map SendRequest.program⟩

/-! ### The property -/

/-- The rate from a currency to USD. -/
def platformRate (rates : String → Option ℚ) (currency : String) : Option ℚ :=
  if currency = primaryCurrency then some 1 else rates currency

/-- A movement pays for a payout: it is the debit of its send, from its user, of at least what is
paid out at the platform's rate. -/
structure PaysFor (rates : String → Option ℚ) (n : ℕ) (payload : Payload) (m : MovementRow) :
    Prop where
  direction : m.direction = .debit
  key : m.idempotencyKey = debitKey n
  user : m.userId = payload.customerUID
  covers : ∀ rate ∈ platformRate rates payload.currency,
    payload.localAmount * rate ≤ decimal m.amount

/-- Every payout the provider is asked for is paid for. -/
def FullyPaid (rates : String → Option ℚ) (s : Store) : Prop :=
  ∀ r ∈ s.2.requests, ∃ m ∈ s.1.movements, PaysFor rates r.1 r.2 m

/-- A lookup of a rate finds the platform's. -/
def RatedQuery (rates : String → Option ℚ) {β : Type} (st : Query β) (rate : Option ℚ) : Prop :=
  match st with
  | .fetchRate base _ => rate = rates base
  | _ => True

/-- The lookups of rates find the platform's. -/
def Rated (rates : String → Option ℚ) {β : Type} (_ : ℕ) (st : Beside Query SendSql β)
    (o : Except SendError Outside) (_ : Store) : Prop :=
  match st with
  | .inner st =>
      match o with
      | .ok o => RatedQuery rates st o.ledger.rate
      | .error _ => True
  | .own _ => True

/-- The largest amount a balance can hold. -/
def largestBalance : ℚ := decimal (centsLimit - 1)

/-- Nothing on the way refuses a request whose amount comes to `sendUsd`, of a user who has
enough. -/
structure SendRequest.Passes (settings : Settings) (rates : String → Option ℚ) (r : SendRequest)
    (sendUsd : ℚ) : Prop where
  checked : ∃ usd, usdAmount (rates r.checkedCurrency) r.totalRequired r.checkedCurrency =
    .ok usd ∧ usd ≤ largestBalance
  configured : settings.configured = true
  converted : usdAmount (rates (currencyCode r.params.payWith)) r.sendAmount
    (currencyCode r.params.payWith) = .ok sendUsd
  minimum : settings.meetsMinimum sendUsd = true
  limits : withinLimits r.params.country r.params.receiveCurrency r.params.receiveAmount
    r.params.channelId r.params.networkId = true
  charged : 0 < cents (r.params.totalUsd sendUsd)
  afforded : r.params.totalUsd sendUsd ≤ largestBalance

/-- What is received is covered by what is sent. -/
def SendRequest.Covered (settings : Settings) (rates : String → Option ℚ) (r : SendRequest) :
    Prop :=
  ∀ sendUsd, r.Passes settings rates sendUsd →
    ∀ rate ∈ platformRate rates (currencyCode r.receiveCurrency.toUpper),
      r.receiveAmount * rate ≤ toFixed2 (r.params.totalUsd sendUsd)

theorem SendRequest.currencyCode_checked (r : SendRequest) :
    currencyCode r.checkedCurrency = r.checkedCurrency := by
  have hall : ∀ c ∈ displayCurrencies, currencyCode c = c := by decide +kernel
  unfold checkedCurrency
  dsimp only
  split_ifs with h
  · exact hall _ h
  · exact hall _ (by decide)

/-! ### The invariant -/

structure PaidInv (rates : String → Option ℚ) (settings : Settings) (s : Store) : Prop where
  settings : s.2.settings = settings
  keys : ∀ m ∈ s.1.movements, ∃ n < s.2.issued.length,
    m.idempotencyKey = debitKey n ∨ m.idempotencyKey = reversalKey n
  balances : ∀ w ∈ s.1.wallets, w.balance < centsLimit
  paid : FullyPaid rates s

/-- What a process may count on: movements stay, and no other debits a send that it has drawn. -/
structure Keeps (i : ℕ) (s t : Store) : Prop where
  issued : ∀ n j : ℕ, s.2.issued[n]? = some j → t.2.issued[n]? = some j
  movements : ∀ m ∈ s.1.movements, m ∈ t.1.movements
  mine : ∀ n : ℕ, s.2.issued[n]? = some i → (∀ m ∈ s.1.movements, m.idempotencyKey ≠ debitKey n) →
    ∀ m ∈ t.1.movements, m.idempotencyKey ≠ debitKey n

theorem Keeps.refl (i : ℕ) (s : Store) : Keeps i s s :=
  ⟨fun _ _ h => h, fun _ h => h, fun _ _ h => h⟩

theorem Keeps.trans {i : ℕ} {s t u : Store} (h : Keeps i s t) (h' : Keeps i t u) : Keeps i s u where
  issued n j hn := h'.issued n j (h.issued n j hn)
  movements m hm := h'.movements m (h.movements m hm)
  mine n hn hm := h'.mine n (h.issued n i hn) (h.mine n hn hm)

/-- The discipline of the requests. -/
def paidDiscipline (rates : String → Option ℚ) (settings : Settings) :
    Discipline (Beside Query SendSql) (Except SendError Outside) Store where
  inv := PaidInv rates settings
  rely := Keeps
  cond := Rated rates
  good _ _ _ _ _ _ := True
  rely_refl := Keeps.refl
  rely_trans _ _ _ _ := Keeps.trans

section paid

variable {rates : String → Option ℚ} {settings : Settings} {i n : ℕ} {s t : Store}
  {A : Accounts} {m : MovementRow} {P : Store → Prop}

theorem paidLax : Lax (paidDiscipline rates settings) := ⟨fun _ _ _ _ _ _ => trivial⟩

/-- A send that the process has drawn. -/
def Mine (i n : ℕ) (s : Store) : Prop := s.2.issued[n]? = some i

/-- Such a send, not debited yet. -/
def Uncharged (i n : ℕ) (s : Store) : Prop :=
  Mine i n s ∧ ∀ m ∈ s.1.movements, m.idempotencyKey ≠ debitKey n

/-- Such a send, debited by an amount. -/
def ChargedBy (i n : ℕ) (userId : String) (amount : ℚ) (s : Store) : Prop :=
  Mine i n s ∧ ∃ m ∈ s.1.movements, m.direction = .debit ∧ m.idempotencyKey = debitKey n ∧
    m.userId = userId ∧ m.amount = cents amount

/-- What is known stays so while the others step. -/
def Stays (i : ℕ) (P : Store → Prop) : Prop := ∀ s t, P s → Keeps i s t → P t

theorem stays_true : Stays i fun _ => True := fun _ _ _ _ => trivial

theorem stays_mine : Stays i (Mine i n) := fun _ _ h hk => hk.issued n i h

theorem stays_uncharged : Stays i (Uncharged i n) := fun _ _ h hk =>
  ⟨hk.issued n i h.1, hk.mine n h.1 h.2⟩

theorem stays_chargedBy {userId : String} {amount : ℚ} : Stays i (ChargedBy i n userId amount) := by
  rintro s t ⟨hn, m, hm, h⟩ hk
  exact ⟨hk.issued n i hn, m, hk.movements m hm, h⟩

/-! ### Steps -/

theorem debitKey_inj {k : ℕ} : debitKey n = debitKey k ↔ n = k := by
  unfold debitKey buildIdempotencyKey
  rw [String.append_right_inj, Uuid.text, Uuid.text, String.append_right_inj, toString_inj]

theorem debitKey_ne_reversalKey {k : ℕ} : debitKey n ≠ reversalKey k := by
  have hkey : debitKey n = "yc_send:c" ++ toString n := by
    show "yc_send" ++ ":" ++ ("c" ++ toString n) = _
    rw [← String.append_assoc]
    rfl
  rw [hkey]
  exact append_toString_ne (by decide) _ _ n

/-- The ledger and the history may change; a movement that is added is the debit or the reversal
of a send drawn, its debit by the process that has drawn it. -/
theorem PaidInv.post (h : PaidInv rates settings s) (hA : A.movements = m :: s.1.movements)
    (hw : ∀ w ∈ A.wallets, w.balance < centsLimit) (hn : Mine i n s)
    (hm : m.idempotencyKey = debitKey n ∨ m.idempotencyKey = reversalKey n) :
    PaidInv rates settings (A, s.2) ∧ ∀ j, j ≠ i → Keeps j s (A, s.2) := by
  have hmem : ∀ m' ∈ s.1.movements, m' ∈ A.movements := fun m' hm' =>
    hA ▸ List.mem_cons_of_mem m hm'
  refine ⟨⟨h.settings, ?_, hw, fun r hr => ?_⟩, fun j hj => ⟨fun _ _ h => h, hmem, ?_⟩⟩
  · show ∀ m' ∈ A.movements, _
    rw [hA]
    intro m' hm'
    rcases List.mem_cons.mp hm' with rfl | hm'
    · exact ⟨n, (List.getElem?_eq_some_iff.mp hn).1, hm⟩
    · exact h.keys m' hm'
  · obtain ⟨m', hm', hpays⟩ := h.paid r hr
    exact ⟨m', hmem m' hm', hpays⟩
  · show ∀ k : ℕ, s.2.issued[k]? = some j → _ → ∀ m' ∈ A.movements, _
    rw [hA]
    intro k hk hnone m' hm' he
    rcases List.mem_cons.mp hm' with rfl | hm'
    · rcases hm with hm | hm
      · rw [hm, debitKey_inj] at he
        rw [← he, hn] at hk
        exact hj (Option.some.inj hk).symm
      · exact debitKey_ne_reversalKey (he.symm.trans hm)
    · exact hnone m' hm' he

/-- What is not a request, a movement or a send drawn may change. -/
theorem PaidInv.aside (h : PaidInv rates settings s) (hm : t.1.movements = s.1.movements)
    (hw : ∀ w ∈ t.1.wallets, w.balance < centsLimit) (hi : t.2.issued = s.2.issued)
    (hr : t.2.requests = s.2.requests) (hc : t.2.settings = s.2.settings) :
    PaidInv rates settings t ∧ ∀ j, Keeps j s t := by
  refine ⟨⟨hc.trans h.settings, ?_, hw, ?_⟩, fun j => ⟨fun n k hn => hi ▸ hn, fun m hm' => hm ▸ hm',
    fun n _ hnone => hm ▸ hnone⟩⟩
  · rw [hm, hi]
    exact h.keys
  · unfold FullyPaid
    rw [hm, hr]
    exact h.paid

/-- A send is drawn. -/
theorem PaidInv.draw (h : PaidInv rates settings s) (i : ℕ) :
    PaidInv rates settings (s.1, { s.2 with issued := s.2.issued ++ [i] }) ∧
      (∀ j, Keeps j s (s.1, { s.2 with issued := s.2.issued ++ [i] })) ∧
        Uncharged i s.2.issued.length (s.1, { s.2 with issued := s.2.issued ++ [i] }) := by
  have hlen : s.2.issued.length < (s.2.issued ++ [i]).length := by simp
  refine ⟨⟨h.settings, fun m hm => ?_, h.balances, h.paid⟩, fun j => ⟨fun n k hn => ?_,
    fun _ hm => hm, fun _ _ hm => hm⟩, ?_, fun m hm he => ?_⟩
  · obtain ⟨n, hn, hkey⟩ := h.keys m hm
    exact ⟨n, hn.trans hlen, hkey⟩
  · show (s.2.issued ++ [i])[n]? = some k
    rw [List.getElem?_append_left (List.getElem?_eq_some_iff.mp hn).1, hn]
  · simp [Mine]
  · obtain ⟨n, hn, hkey | hkey⟩ := h.keys m hm
    · rw [hkey, debitKey_inj] at he
      exact absurd hn (by simp [he])
    · exact debitKey_ne_reversalKey (he.symm.trans hkey)

/-- A payout that is paid for is requested. -/
theorem PaidInv.ask (h : PaidInv rates settings s) {payload : Payload} {T : Sends}
    (hm : m ∈ s.1.movements) (hpays : PaysFor rates n payload m)
    (hr : T.requests = (n, payload) :: s.2.requests) (hi : T.issued = s.2.issued)
    (hc : T.settings = s.2.settings) :
    PaidInv rates settings (s.1, T) ∧ ∀ j, Keeps j s (s.1, T) := by
  refine ⟨⟨hc.trans h.settings, ?_, h.balances, ?_⟩, fun j => ⟨fun n k hn => hi ▸ hn,
    fun _ hm => hm, fun _ _ hnone => hnone⟩⟩
  · show ∀ m ∈ s.1.movements, ∃ n < T.issued.length, _
    rw [hi]
    exact h.keys
  · show ∀ r ∈ T.requests, _
    rw [hr]
    intro r hr'
    rcases List.mem_cons.mp hr' with rfl | hr'
    · exact ⟨m, hm, hpays⟩
    · exact h.paid r hr'

/-- The balances after one of them is set. -/
theorem balances_recorded {B : Accounts} (h : ∀ w ∈ B.wallets, w.balance < centsLimit)
    {balance : ℤ} (hb : |balance| < centsLimit) :
    ∀ w ∈ (B.recorded balance m).wallets, w.balance < centsLimit := by
  intro w hw
  obtain ⟨v, hv, rfl⟩ := List.mem_map.mp hw
  split_ifs
  · exact (le_abs_self balance).trans_lt hb
  · exact h v hv

/-! ### Rules -/

/-- What a call does under the discipline. -/
abbrev Pays (rates : String → Option ℚ) (settings : Settings) (i : ℕ) {β : Type}
    (P : Store → Prop) (c : SendCall β) (Q : β → Store → Prop) (E : SendError → Store → Prop) :
    Prop :=
  Triple server.machine (paidDiscipline rates settings) i P c Q E

/-- The statements that neither draw a send nor ask the provider for a payout. -/
def SendSql.Plain {β : Type} : SendSql β → Bool
  | .newSend | .createPaymentRequest .. => false
  | _ => true

theorem SendSql.run_plain {β : Type} {st : SendSql β} (h : st.Plain = true) (i : ℕ) (o : Outside)
    (s : Store) : (st.run i o s).2.1 = s.1 ∧ (st.run i o s).2.2.issued = s.2.issued ∧
      (st.run i o s).2.2.requests = s.2.requests ∧
        (st.run i o s).2.2.settings = s.2.settings := by
  cases st with
  | newSend => cases h
  | createPaymentRequest n payload => cases h
  | insertRow row =>
      simp only [run]
      split_ifs <;> exact ⟨rfl, rfl, rfl, rfl⟩
  | _ => exact ⟨rfl, rfl, rfl, rfl⟩

/-- Such a statement. -/
theorem pays_plain {β : Type} {st : SendSql (Ans β)} (hst : ∀ e, st.fail e = .error e)
    (hplain : st.Plain = true) (hP : Stays i P) :
    Pays rates settings i P (sql st) (fun _ => P) fun _ => P := by
  refine Beside.triple_own hst hP (fun s e hs _ _ => ⟨trivial, hs⟩) fun s o hs hinv _ => ?_
  obtain ⟨hledger, hissued, hrequests, hsettings⟩ := SendSql.run_plain hplain i o s
  obtain ⟨hinv', hkeeps⟩ := hinv.aside (t := (st.run i o s).2) (by rw [hledger])
    (by rw [hledger]; exact hinv.balances) hissued hrequests hsettings
  exact ⟨⟨trivial, hinv', fun j _ => hkeeps j⟩, fun _ _ => hP _ _ hs (hkeeps i),
    fun _ _ => hP _ _ hs (hkeeps i)⟩

/-- A conversion, at the platform's rate. -/
theorem pays_convert (amount : ℚ) (currency : String) (hP : Stays i P) :
    Pays rates settings i P (ledger (convertAmountToUsd amount currency))
      (fun usd s => usdAmount (rates (currencyCode currency)) amount (currencyCode currency) =
        .ok usd ∧ P s) fun _ => P := by
  unfold convertAmountToUsd
  dsimp only
  split_ifs with hneg hcur hzero
  · exact triple_embed_throw fun s hs => hs
  · exact triple_embed_pure fun s hs => ⟨by simp [usdAmount, hneg, hcur], hs⟩
  · exact triple_embed_pure fun s hs => ⟨by simp [usdAmount, hcur, hzero], hs⟩
  · refine triple_embed_bind (R := fun rate s => rate = rates (currencyCode currency) ∧ P s)
      (Beside.triple_inner rfl hP (fun s e hs _ _ => ⟨trivial, hs⟩) fun s o hs hinv hc =>
        ⟨⟨trivial, hinv, fun j _ => Keeps.refl j s⟩, fun b hb => ⟨?_, hs⟩,
          fun e he => (by cases he)⟩) fun rate => Triple.assume fun hrate => ?_
    · rw [← Except.ok.inj hb]
      exact hc
    · subst hrate
      cases husd : usdAmount (rates (currencyCode currency)) amount (currencyCode currency) with
      | error e => exact triple_embed_throw fun s hs => hs
      | ok usd => exact triple_embed_pure fun s hs => ⟨rfl, hs⟩

/-- A wallet is found or created. -/
theorem pays_ensureWallet (userId currency : String) (hP : Stays i P) :
    Pays rates settings i P (ledger (ensureWalletForCurrency userId currency)) (fun _ => P)
      fun _ => P := by
  refine triple_ensureWallet paidLax userId currency hP fun s A w hs hinv hnew => ?_
  have hw : ∀ v ∈ A.wallets, v.balance < centsLimit := by
    unfold Accounts.createWallet at hnew
    split_ifs at hnew
    · cases (Prod.mk.inj hnew).1
    · rw [← (Prod.mk.inj hnew).2]
      intro v hv
      rcases List.mem_cons.mp hv with rfl | hv
      · show (0 : ℤ) < centsLimit
        decide
      · exact hinv.balances v hv
  obtain ⟨hinv', hkeeps⟩ := hinv.aside (t := (A, s.2)) (Accounts.createWallet_movements hnew) hw
    rfl rfl rfl
  exact ⟨hinv', fun j _ => hkeeps j, hP _ _ hs (hkeeps i)⟩

/-- The credit of a reversal. -/
theorem pays_credit {p : BalanceParams} (hkey : p.idempotencyKey = reversalKey n) :
    Pays rates settings i (Mine i n) (ledger (creditUsdBalance p)) (fun _ => Mine i n)
      fun _ => Mine i n := by
  refine triple_creditUsdBalance paidLax stays_mine (fun s m hs _ _ _ => hs)
    fun usd _ s A hs hinv hstep => ?_
  obtain ⟨w, -, -, -, hfits, hA⟩ := hstep.wallet
  obtain ⟨hinv', hkeeps⟩ := hinv.post hstep.movements
    (hA ▸ balances_recorded hinv.balances hfits.balance_lt) hs (.inr hkey)
  exact ⟨hinv', hkeeps, hs⟩

/-- The debit of a send. -/
theorem pays_debit {p : BalanceParams} (hkey : p.idempotencyKey = debitKey n) :
    Pays rates settings i (Uncharged i n) (ledger (debitUsdBalance p))
      (fun _ s => (0 < cents p.amount ∧ p.amount ≤ largestBalance) ∧
        ChargedBy i n p.userId p.amount s) fun _ _ => True := by
  refine Triple.mono (triple_debit paidLax (P := Uncharged i n)
    (Q := fun s => (0 < cents p.amount ∧ p.amount ≤ largestBalance) ∧
      ChargedBy i n p.userId p.amount s) stays_uncharged
    (fun s t hs hk => ⟨hs.1, stays_chargedBy s t hs.2 hk⟩) (fun s m hs _ _ hm => ?_)
    fun _ s A hs hinv _ hstep => ?_) (fun _ h => h) (fun _ _ h => h) fun _ _ _ => trivial
  · have hfound : m.idempotencyKey = p.idempotencyKey := by simpa using List.find?_some hm
    exact absurd (hfound.trans hkey) (hs.2 m (List.mem_of_find?_eq_some hm))
  · obtain ⟨w, hw, -, -, -, hle, rate, usd, -, hfits, hA⟩ := hstep.wallet
    obtain ⟨usd', hmoves⟩ := hstep.movements
    obtain ⟨hinv', hkeeps⟩ := hinv.post hmoves
      (hA ▸ balances_recorded hinv.balances hfits.balance_lt) hs.1 (.inl hkey)
    refine ⟨hinv', hkeeps, ⟨hfits.pos, hle.trans ?_⟩, hs.1, _, hmoves ▸ List.mem_cons_self, rfl,
      hkey, rfl, rfl⟩
    have hbalance : w.balance ≤ centsLimit - 1 := Int.le_sub_one_of_lt (hinv.balances w hw)
    unfold largestBalance decimal
    gcongr

/-! ### Calls -/

/-- The history of a send. -/
theorem pays_record (a : Activity) (hP : Stays i P) :
    Pays rates settings i P (recordWalletActivity a) (fun _ => P) fun _ => P := by
  have hplain : ∀ {β : Type} {st : SendSql (Ans β)}, (∀ e, st.fail e = .error e) →
      st.Plain = true → Pays rates settings i P (sql st) (fun _ => P) fun _ => P :=
    fun hst hp => pays_plain hst hp hP
  have hnote : Pays rates settings i P (sql (.noteParty a.send)) (fun _ => P) fun _ => P :=
    hplain (fun _ => rfl) rfl
  have hinsert : Pays rates settings i P (sql (.insertRow a.row)) (fun _ => P) fun _ => P :=
    hplain (fun _ => rfl) rfl
  refine Triple.ite (fun _ => Triple.pure fun _ h => h) fun _ => ?_
  refine Triple.bind (hplain (fun _ => rfl) rfl) fun r => ?_
  cases r with
  | some row =>
      refine Triple.bind (hplain (fun _ => rfl) rfl) fun _ => Triple.ite (fun _ => ?_)
        fun _ => Triple.pure fun _ h => h
      exact Triple.bind hnote fun _ => hnote
  | none =>
      refine Triple.bind (hplain (fun _ => rfl) rfl) fun r => ?_
      cases r with
      | some row => exact Triple.pure fun _ h => h
      | none =>
          refine Triple.bind hnote fun _ => Triple.ite (fun _ => ?_) fun _ => hinsert
          exact Triple.bind hnote fun _ => hinsert

/-- The reversal of a send drawn. -/
theorem pays_reverse (userId : String) :
    Pays rates settings i (Mine i n) (reverseYellowCardWalletDebit userId n) (fun _ => Mine i n)
      fun _ => Mine i n := by
  refine Triple.ite (fun _ => Triple.pure fun _ h => h) fun _ => ?_
  refine Triple.bind (R := fun _ => Mine i n) ((triple_find paidLax _ stays_mine).mono
    (fun _ h => h) (fun _ _ h => h.1) fun _ _ h => h) fun r => ?_
  cases r with
  | some m => exact Triple.pure fun _ h => h
  | none =>
      refine Triple.bind (pays_plain (fun _ => rfl) rfl stays_mine) fun r => ?_
      cases r with
      | some m => exact Triple.pure fun _ h => h
      | none =>
          refine Triple.bind (pays_plain (fun _ => rfl) rfl stays_mine) fun r => ?_
          cases r with
          | none => exact Triple.pure fun _ h => h
          | some debit =>
              refine Triple.ite (fun _ => Triple.pure fun _ h => h) fun _ => ?_
              exact Triple.bind (pays_credit rfl) fun _ => Triple.pure fun _ h => h

/-- A failure that is swallowed. -/
theorem pays_swallow {c : SendCall Unit} {E : SendError → Store → Prop}
    (h : Pays rates settings i P c (fun _ => P) fun _ => P) :
    Pays rates settings i P (swallow c) (fun _ => P) E :=
  Triple.tryCatch h fun _ => Triple.pure fun _ hs => hs

/-- What asking the provider for a payout answers and leaves, by what the provider did. -/
def answered (n : ℕ) (payload : Payload) (s : Store) :
    CreateOutcome → Except SendError (Option ProviderPayment) × Store
  | .answered payment => (.ok payment, s.1, { s.2 with
      requests := (n, payload) :: s.2.requests, accepted := n :: s.2.accepted })
  | .acceptedThenFailed => (.error .provider, s.1, { s.2 with
      requests := (n, payload) :: s.2.requests, accepted := n :: s.2.accepted })
  | .refused => (.error .provider, s.1, { s.2 with requests := (n, payload) :: s.2.requests })

/-- A payout that is covered by what was debited is requested. -/
theorem pays_request {p : SendParams} {sendUsd : ℚ}
    (hcovers : ∀ rate ∈ platformRate rates (currencyCode p.receiveCurrency),
      p.receiveAmount * rate ≤ toFixed2 (p.totalUsd sendUsd)) :
    Pays rates settings i (ChargedBy i n p.userId (p.totalUsd sendUsd))
      (sql (.createPaymentRequest n (p.payload n))) (fun _ => Mine i n) fun _ => Mine i n := by
  refine Beside.triple_own (fun _ => rfl) stays_chargedBy
    (fun s e hs _ _ => ⟨trivial, hs.1⟩) fun s o hs hinv _ => ?_
  obtain ⟨hn, m, hm, hdir, hkey, huser, hamount⟩ := hs
  have hpays : PaysFor rates n (p.payload n) m := by
    refine ⟨hdir, hkey, huser, fun rate hrate => ?_⟩
    rw [hamount]
    exact hcovers rate hrate
  have hask := fun (T : Sends) (hr : T.requests = (n, p.payload n) :: s.2.requests)
    (hi : T.issued = s.2.issued) (hc : T.settings = s.2.settings) =>
      hinv.ask hm hpays hr hi hc
  have hrun : sends.run i (.createPaymentRequest n (p.payload n)) o s =
      answered n (p.payload n) s o.create := rfl
  rw [hrun]
  cases o.create with
  | answered payment =>
      obtain ⟨hinv', hkeeps⟩ := hask { s.2 with
        requests := (n, p.payload n) :: s.2.requests, accepted := n :: s.2.accepted } rfl rfl rfl
      exact ⟨⟨trivial, hinv', fun j _ => hkeeps j⟩, fun _ _ => hn, fun _ he => (by cases he)⟩
  | acceptedThenFailed =>
      obtain ⟨hinv', hkeeps⟩ := hask { s.2 with
        requests := (n, p.payload n) :: s.2.requests, accepted := n :: s.2.accepted } rfl rfl rfl
      exact ⟨⟨trivial, hinv', fun j _ => hkeeps j⟩, fun _ hb => (by cases hb), fun _ _ => hn⟩
  | refused =>
      obtain ⟨hinv', hkeeps⟩ := hask { s.2 with
        requests := (n, p.payload n) :: s.2.requests } rfl rfl rfl
      exact ⟨⟨trivial, hinv', fun j _ => hkeeps j⟩, fun _ hb => (by cases hb), fun _ _ => hn⟩

/-- From the request to the provider on. -/
theorem pays_submit {p : SendParams} {walletId : ℕ} {sendUsd : ℚ}
    (hcovers : ∀ rate ∈ platformRate rates (currencyCode p.receiveCurrency),
      p.receiveAmount * rate ≤ toFixed2 (p.totalUsd sendUsd)) :
    Pays rates settings i (ChargedBy i n p.userId (p.totalUsd sendUsd))
      (submitSend p walletId n sendUsd) (fun _ _ => True) fun _ _ => True := by
  refine Triple.tryCatch (F := fun _ => Mine i n) (Triple.bind (pays_request hcovers)
    fun payment => Triple.bind (pays_record _ stays_mine) fun _ => Triple.ite (fun _ => ?_)
      fun _ => Triple.pure fun _ _ => trivial) fun e => ?_
  · exact (pays_swallow (pays_reverse _)).mono (fun _ h => h) (fun _ _ _ => trivial)
      fun _ _ h => h
  · refine Triple.bind (R := fun _ => Mine i n) (pays_swallow (Triple.bind (pays_credit rfl)
      fun _ => Triple.pure fun _ h => h)) fun _ => ?_
    exact Triple.bind (pays_swallow (pays_record _ stays_mine)) fun _ =>
      Triple.throw fun _ _ => trivial

/-- The middlewares. -/
theorem pays_checkFunds (r : SendRequest) :
    Pays rates settings i (fun _ => True) (ledger (checkFunds r))
      (fun _ _ => ∃ usd, usdAmount (rates r.checkedCurrency) r.totalRequired r.checkedCurrency =
        .ok usd ∧ usd ≤ largestBalance) fun _ _ => True := by
  have hrates : ∀ k, Pays rates settings i (fun _ => True) (ledger (ensurePlatformExchangeRates k))
      (fun _ _ => True) fun _ _ => True := by
    intro k
    induction k with
    | zero => exact triple_embed_pure fun _ h => h
    | succ k ih =>
        exact triple_embed_bind
          (triple_reads paidLax rfl rfl stays_true fun _ _ _ _ _ _ _ => trivial) fun _ => ih
  refine triple_embed_bind (R := fun wallet _ => decimal wallet.balance ≤ largestBalance ∧ True)
    (triple_embed_bind (R := fun _ _ => True) (triple_embed_bind (hrates 6) fun _ =>
      triple_embed_bind (pays_ensureWallet _ _ stays_true) fun _ =>
        triple_embed_bind (pays_ensureWallet _ _ stays_true) fun _ =>
          triple_embed_pure fun _ h => h) fun _ => ?_) fun wallet => ?_
  · refine triple_embed_bind (R := fun found _ => ∀ w ∈ found, decimal w.balance ≤ largestBalance)
      (triple_reads paidLax rfl rfl stays_true fun s o b _ hinv _ hb w hw => ?_) fun found => ?_
    · rw [← Except.ok.inj hb] at hw
      have hbalance : w.balance ≤ centsLimit - 1 :=
        Int.le_sub_one_of_lt (hinv.balances w (List.mem_of_find?_eq_some hw))
      unfold largestBalance decimal
      gcongr
    · cases found with
      | none => exact triple_embed_throw fun _ _ => trivial
      | some w => exact triple_embed_pure fun _ h => ⟨h w rfl, trivial⟩
  · refine Triple.assume fun hbalance => ?_
    refine triple_embed_bind (R := fun usd _ => usdAmount (rates r.checkedCurrency)
      r.totalRequired r.checkedCurrency = .ok usd) ?_ fun usd => ?_
    · refine (pays_convert r.totalRequired r.checkedCurrency stays_true).mono
        (fun _ _ => trivial) (fun usd _ h => ?_) fun _ _ h => h
      have hconvert := h.1
      rwa [r.currencyCode_checked] at hconvert
    · by_cases hle : decimal wallet.balance < usd
      · rw [if_pos hle]
        exact triple_embed_throw fun _ _ => trivial
      · rw [if_neg hle]
        exact triple_embed_pure fun _ husd => ⟨usd, husd, (not_lt.mp hle).trans hbalance⟩

/-- The configuration. -/
theorem pays_settings :
    Pays rates settings i (fun _ => True) (sql .settings) (fun c _ => c = settings ∧ True)
      fun _ _ => True := by
  refine Beside.triple_own (fun _ => rfl) stays_true (fun _ _ _ _ _ => ⟨trivial, trivial⟩)
    fun s o _ hinv _ => ⟨⟨trivial, hinv, fun j _ => Keeps.refl j s⟩, fun c hc => ⟨?_, trivial⟩,
      fun _ _ => trivial⟩
  rw [← Except.ok.inj hc]
  exact hinv.settings

/-- A send is drawn. -/
theorem pays_newSend :
    Pays rates settings i (fun _ => True) (sql .newSend) (fun n => Uncharged i n)
      fun _ _ => True := by
  refine Beside.triple_own (fun _ => rfl) stays_true (fun _ _ _ _ _ => ⟨trivial, trivial⟩)
    fun s o _ hinv _ => ?_
  obtain ⟨hinv', hkeeps, hnew⟩ := hinv.draw i
  refine ⟨⟨trivial, hinv', fun j _ => hkeeps j⟩, fun n hn => ?_, fun _ _ => trivial⟩
  rw [← Except.ok.inj hn]
  exact hnew

/-- A request that is covered. -/
theorem pays_call {r : SendRequest} (hr : r.Covered settings rates) :
    Pays rates settings i (fun _ => True) r.call (fun _ _ => True) fun _ _ => True := by
  refine Triple.bind (R := fun _ _ => (∃ usd, usdAmount (rates r.checkedCurrency) r.totalRequired
    r.checkedCurrency = .ok usd ∧ usd ≤ largestBalance) ∧ True) ((pays_checkFunds r).mono
      (fun _ h => h) (fun _ _ h => ⟨h, trivial⟩) fun _ _ h => h) fun _ =>
    Triple.assume fun hchecked => ?_
  refine Triple.bind pays_settings fun c => Triple.assume fun hc => ?_
  subst hc
  by_cases hconfigured : (!c.configured) = true
  · rw [if_pos hconfigured]
    exact Triple.throw fun _ _ => trivial
  rw [if_neg hconfigured]
  refine Triple.ite (fun _ => Triple.throw fun _ _ => trivial) fun _ => ?_
  refine Triple.ite (fun _ => Triple.throw fun _ _ => trivial) fun _ => ?_
  refine Triple.bind (pays_convert _ _ stays_true) fun sendUsd => Triple.assume fun husd => ?_
  by_cases hminimum : (!c.meetsMinimum sendUsd) = true
  · rw [if_pos hminimum]
    exact Triple.throw fun _ _ => trivial
  rw [if_neg hminimum]
  by_cases hlimits : (!withinLimits r.params.country r.params.receiveCurrency
      r.params.receiveAmount r.params.channelId r.params.networkId) = true
  · rw [if_pos hlimits]
    exact Triple.throw fun _ _ => trivial
  rw [if_neg hlimits]
  refine Triple.bind (pays_ensureWallet _ _ stays_true) fun usdWallet => ?_
  refine Triple.bind pays_newSend fun n => ?_
  have hlook : Pays rates c i (Uncharged i n) (sql .lookUp) (fun _ => Uncharged i n)
      fun _ _ => True :=
    (pays_plain (fun _ => rfl) rfl stays_uncharged).mono (fun _ h => h) (fun _ _ h => h)
      fun _ _ _ => trivial
  refine Triple.bind hlook fun _ => Triple.bind hlook fun _ => Triple.bind hlook fun _ => ?_
  refine Triple.bind (pays_debit rfl) fun _ => Triple.assume fun hdebit => ?_
  exact pays_submit (hr sendUsd ⟨hchecked, by simpa using hconfigured, husd,
    by simpa using hminimum, by simpa using hlimits, hdebit.1, hdebit.2⟩)

end paid

/-! ### A run of one request -/

section alone

variable {rates : String → Option ℚ} {i : ℕ} {A B : Accounts}

/-- The lookups of the ledger find the platform's rates, and nothing fails. -/
def RatedInner (rates : String → Option ℚ) {β : Type} (_ : ℕ) (st : Query β)
    (o : Except Err Consumer.Outside) (_ : Accounts) : Prop :=
  ∃ o', o = .ok o' ∧ RatedQuery rates st o'.rate

/-- A call of the ledger answers. -/
abbrev Answers (rates : String → Option ℚ) (i : ℕ) {β : Type} (c : Call β) (A : Accounts) (b : β)
    (B : Accounts) : Prop :=
  Reaches accounts.machine (RatedInner rates) i c.run A (ret (.ok b)) B

/-- A statement of the ledger that does not look for a rate. -/
theorem answers_sql {β : Type} {st : Query (Consumer.Ans β)} {b : β}
    (hst : ∀ rate, RatedQuery rates st rate)
    (hrun : st.run {} A = (.ok b, B)) : Answers rates i (Consumer.sql st) A b B :=
  .call {} ⟨{}, rfl, hst _⟩ hrun

theorem answers_bind {β γ : Type} {c : Call β} {f : β → Call γ} {b : β} {g : γ} {C : Accounts}
    (h : Answers rates i c A b B) (hf : Answers rates i (f b) B g C) :
    Answers rates i (c >>= f) A g C :=
  (h.bind_ok f).trans hf

theorem answers_pure {β : Type} (b : β) : Answers rates i (pure b) A b A := .refl _ _

theorem answers_convert {amount usd : ℚ} {currency : String}
    (h : usdAmount (rates (currencyCode currency)) amount (currencyCode currency) = .ok usd) :
    Answers rates i (convertAmountToUsd amount currency) A usd A := by
  unfold convertAmountToUsd
  dsimp only
  split_ifs with hneg hcur hzero
  · simp [usdAmount, hneg] at h
  · simp only [usdAmount, if_neg hneg, if_pos hcur] at h
    exact Except.ok.inj h ▸ answers_pure amount
  · simp only [usdAmount, if_neg hneg, if_neg hcur, if_pos hzero] at h
    exact Except.ok.inj h ▸ answers_pure 0
  · refine answers_bind (b := rates (currencyCode currency)) (B := A)
      (.call { rate := rates (currencyCode currency) } ⟨_, rfl, rfl⟩ rfl) ?_
    rw [h]
    exact answers_pure usd

theorem answers_userWallet {userId currency : String} {found : Option WalletRow}
    (h : (A.wallets.find? fun w => w.userId = userId && w.currency = currency) = found) :
    Answers rates i (Consumer.sql (.userWallet userId currency)) A found A :=
  answers_sql (fun _ => trivial) (by rw [← h]; rfl)

theorem answers_ensure {userId currency : String} {w : WalletRow}
    (h : (A.wallets.find? fun w => w.userId = userId && w.currency = currency.toUpper) = some w) :
    Answers rates i (ensureWalletForCurrency userId currency) A w A :=
  answers_bind (answers_userWallet h) (answers_pure w)

theorem answers_debit {p : BalanceParams} {id : ℕ} {w : WalletRow}
    (hfresh : A.movement? p.idempotencyKey = none) (hpos : 0 < p.amount)
    (htx : A.debitTx p primaryCurrency none = (.ok id, B))
    (hw : B.wallets.find? (·.walletId = p.walletId) = some w) :
    Answers rates i (debitUsdBalance p) A ⟨decimal w.balance, id⟩ B := by
  refine answers_bind (b := none) (B := A)
    (answers_sql (fun _ => trivial) (by rw [← hfresh]; rfl)) ?_
  dsimp only
  rw [if_neg (not_le.mpr hpos)]
  refine answers_bind (answers_sql (fun _ => trivial) htx) (answers_bind (b := decimal w.balance)
    (B := B) (answers_sql (fun _ => trivial) ?_) (answers_pure _))
  simp only [Query.run, hw]

/-- The USD wallet of a user who has as much as it can hold. -/
def fullWallet (userId : String) : WalletRow :=
  { walletId := 1, userId := userId, currency := "USD", balance := centsLimit - 1 }

theorem decimal_fullWallet (userId : String) :
    decimal (fullWallet userId).balance = largestBalance := rfl

/-- The wallets of such a user. -/
def full (userId : String) : Accounts :=
  { wallets := [fullWallet userId, { walletId := 2, userId := userId, currency := "NGN" }] }

theorem answers_ensureUsd {userId : String} :
    Answers rates i (ensureWalletForCurrency userId primaryCurrency) (full userId)
      (fullWallet userId) (full userId) := by
  have hupper : primaryCurrency.toUpper = "USD" := by decide +kernel
  exact answers_ensure (by simp [full, fullWallet, hupper])

theorem answers_checkFunds {r : SendRequest} {usd : ℚ}
    (husd : usdAmount (rates r.checkedCurrency) r.totalRequired r.checkedCurrency = .ok usd)
    (hle : usd ≤ largestBalance) :
    Answers rates i (checkFunds r) (full r.userId) () (full r.userId) := by
  have hrates : ∀ k, Answers rates i (ensurePlatformExchangeRates k) (full r.userId) ()
      (full r.userId) := by
    intro k
    induction k with
    | zero => exact answers_pure ()
    | succ k ih => exact answers_bind (answers_sql (fun _ => trivial) rfl) ih
  have hngn : Answers rates i (ensureWalletForCurrency r.userId "NGN") (full r.userId)
      { walletId := 2, userId := r.userId, currency := "NGN" } (full r.userId) := by
    have hupper : "NGN".toUpper = "NGN" := by decide +kernel
    exact answers_ensure (by simp [full, fullWallet, hupper])
  have hwallets : Answers rates i (ensureUserLedgerWallets r.userId) (full r.userId) ()
      (full r.userId) :=
    answers_bind (hrates 6) (answers_bind answers_ensureUsd (answers_bind hngn (answers_pure ())))
  have hexists : Answers rates i (checkWalletExistsByUserId r) (full r.userId)
      (fullWallet r.userId) (full r.userId) :=
    answers_bind hwallets (answers_bind (answers_userWallet
      (by simp [full, fullWallet, primaryCurrency] :
        _ = some (fullWallet r.userId))) (answers_pure _))
  have hconvert : Answers rates i (convertAmountToUsd r.totalRequired r.checkedCurrency)
      (full r.userId) usd (full r.userId) :=
    answers_convert (by rw [r.currencyCode_checked]; exact husd)
  refine answers_bind hexists (answers_bind hconvert ?_)
  rw [decimal_fullWallet, if_neg (not_lt.mpr hle)]
  exact answers_pure ()

/-- The tables of such a user once an amount is debited. -/
def drained (p : BalanceParams) : Accounts :=
  (full p.userId).recorded (cents (largestBalance - p.amount))
    (p.movement .debit primaryCurrency p.amount 1)

/-- What can be held fits its column. -/
theorem cents_lt {x : ℚ} (hx : 0 ≤ x) (hle : x ≤ largestBalance) : |cents x| < centsLimit := by
  rw [abs_of_nonneg (cents_nonneg hx), cents_of_nonneg hx, Int.floor_lt]
  have hmax : largestBalance * 100 = (centsLimit - 1 : ℤ) := decimal_mul _
  have hcast : ((centsLimit - 1 : ℤ) : ℚ) = (centsLimit : ℚ) - 1 := by push_cast; rfl
  linarith

theorem answers_fullDebit {p : BalanceParams} (hid : p.walletId = 1) (hpos : 0 < cents p.amount)
    (hle : p.amount ≤ largestBalance) :
    ∃ b, Answers rates i (debitUsdBalance p) (full p.userId) b (drained p) := by
  have hamount : 0 < p.amount := pos_of_cents_pos hpos
  have hfits : (full p.userId).Fits (cents (largestBalance - p.amount))
      (p.movement .debit primaryCurrency p.amount 1) :=
    ⟨cents_lt (by linarith) (by linarith), cents_lt hamount.le hle, cents_lt hamount.le hle, hpos,
      rfl⟩
  have hfind : (full p.userId).debited? p primaryCurrency = some (fullWallet p.userId) := by
    simp [Accounts.debited?, full, fullWallet, hid, primaryCurrency]
  have htx : (full p.userId).debitTx p primaryCurrency none = (.ok 1, drained p) := by
    have hcode : currencyCode primaryCurrency = primaryCurrency := by decide +kernel
    unfold Accounts.debitTx
    rw [hfind]
    dsimp only
    rw [decimal_fullWallet, if_neg (not_lt.mpr hle), hcode, usdAmount,
      if_neg (not_lt.mpr hamount.le), if_pos rfl]
    exact Accounts.record_of_fits hfits
  have hwallet : (drained p).wallets.find? (·.walletId = p.walletId) =
      some { fullWallet p.userId with balance := cents (largestBalance - p.amount) } := by
    simp [drained, Accounts.recorded, Accounts.setBalance, full, fullWallet, hid,
      BalanceParams.movement]
  exact ⟨_, answers_debit rfl hamount htx hwallet⟩

/-! ### Requests that are not covered -/

/-- The ledger's part of a step, in the whole. -/
theorem reaches_ledger {β : Type} {c : Call β} {A B : Accounts} {b : β} {T : Sends}
    (h : Answers rates i c A b B) :
    Reaches server.machine (Rated rates) i (ledger c).run (A, T) (ret (.ok b)) (B, T) := by
  refine Reaches.inside (fun st o s ho => ?_) h
  obtain ⟨o', rfl, hrated⟩ := ho
  exact ⟨{ ledger := o' }, rfl, hrated⟩

/-- A statement of the sends answers. -/
theorem reaches_sql {β : Type} {st : SendSql (Ans β)} {b : β} {s t : Store}
    (hrun : st.run i {} s = (.ok b, t)) :
    Reaches server.machine (Rated rates) i (sql st).run s (ret (.ok b)) t :=
  .call {} trivial hrun

theorem reaches_bind {β γ : Type} {c : SendCall β} {f : β → SendCall γ} {b : β} {s t u : Store}
    {q : Prog (Beside Query SendSql) (Except SendError γ)}
    (h : Reaches server.machine (Rated rates) i c.run s (ret (.ok b)) t)
    (hf : Reaches server.machine (Rated rates) i (f b).run t q u) :
    Reaches server.machine (Rated rates) i (c >>= f).run s q u :=
  (h.bind_ok f).trans hf

/-- A request that nothing refuses, of a user who has enough, gets to the provider. -/
theorem reaches_request {settings : Settings} {r : SendRequest} {sendUsd : ℚ}
    (h : r.Passes settings rates sendUsd) (T : Sends) (hT : T.settings = settings)
    (hnew : T.issued = []) :
    ∃ q t, Reaches server.machine (Rated rates) i r.call.run (full r.userId, T) q t ∧
      t.2.requests = (0, r.params.payload 0) :: T.requests ∧
        t.1.movements = [(r.params.debit 1 0 sendUsd).movement .debit primaryCurrency
          (r.params.totalUsd sendUsd) 1] := by
  subst hT
  obtain ⟨⟨usd, husd, hle⟩, hconfigured, hconverted, hminimum, hlimits, hcharged, hafforded⟩ := h
  obtain ⟨b, hdebit⟩ : ∃ b, Answers rates i (debitUsdBalance (r.params.debit 1 0 sendUsd))
      (full r.userId) b (drained (r.params.debit 1 0 sendUsd)) :=
    answers_fullDebit rfl hcharged hafforded
  have hsubmit : ∃ q t, Reaches server.machine (Rated rates) i
      (submitSend r.params 1 0 sendUsd).run
      (drained (r.params.debit 1 0 sendUsd), { T with issued := T.issued ++ [i] }) q t ∧
        t.2.requests = (0, r.params.payload 0) :: T.requests ∧
          t.1.movements = (drained (r.params.debit 1 0 sendUsd)).movements :=
    ⟨_, _, .step (.ok {}) trivial rfl (.refl _ _), rfl, rfl⟩
  obtain ⟨q, t, hsubmit, hrequests, hmovements⟩ := hsubmit
  refine ⟨q, t, ?_, hrequests, hmovements⟩
  have hsend : ¬ r.params.sendAmount ≤ 0 := not_le.mpr r.sendAmount_pos
  have hreceive : ¬ r.params.receiveAmount ≤ 0 := not_le.mpr r.receiveAmount_pos
  refine reaches_bind (reaches_ledger (answers_checkFunds husd hle)) ?_
  refine reaches_bind (reaches_sql (b := T.settings) rfl) ?_
  rw [if_neg (by simp [hconfigured]), if_neg hsend, if_neg hreceive]
  refine reaches_bind (reaches_ledger (answers_convert hconverted)) ?_
  rw [if_neg (by simp [hminimum]), if_neg (by simp [hlimits])]
  refine reaches_bind (reaches_ledger answers_ensureUsd) ?_
  have hnewSend : SendSql.run i .newSend {} (full r.userId, T) =
      (.ok 0, full r.userId, { T with issued := T.issued ++ [i] }) := by
    simp [SendSql.run, hnew]
  refine reaches_bind (reaches_sql hnewSend) ?_
  refine reaches_bind (reaches_sql rfl) (reaches_bind (reaches_sql rfl)
    (reaches_bind (reaches_sql rfl) ?_))
  exact reaches_bind (reaches_ledger hdebit) hsubmit

/-- Requests that are fully paid in every run are covered. -/
theorem covered_of_fullyPaid {settings : Settings} {requests : List SendRequest}
    (h : ∀ (opening : SendOpening) (sched : List (ℕ × Except SendError Outside)),
      Pool.Along server.machine (Pool.CondAt (Rated rates)) (posted settings opening requests)
        sched →
      FullyPaid rates ((posted settings opening requests).run server.machine sched).store) :
    ∀ r ∈ requests, r.Covered settings rates := by
  intro r hr sendUsd hpasses rate hrate
  obtain ⟨k, hk, rfl⟩ := List.getElem_of_mem hr
  have hbalances : ∀ w ∈ (full requests[k].userId).wallets, w.balance < centsLimit := by
    intro w hw
    rcases List.mem_cons.mp hw with rfl | hw
    · show centsLimit - 1 < centsLimit
      omega
    · rw [List.mem_singleton.mp hw]
      show (0 : ℤ) < centsLimit
      decide
  let opening : SendOpening :=
    ⟨(full requests[k].userId).wallets, fun _ => 0, fun _ => false, hbalances⟩
  obtain ⟨q, t, hreach, hrequests, hmovements⟩ := reaches_request (i := k) hpasses
    (posted settings opening requests).store.2 rfl rfl
  have hproc : (posted settings opening requests).procs[k]? = some requests[k].program := by
    simp [posted, hk]
  obtain ⟨sched, halong, hrun⟩ := (hreach.bind fun _ => pure ()).run
    (P := posted settings opening requests) rfl hproc
  have hpaid := h opening sched halong
  rw [hrun] at hpaid
  obtain ⟨m, hm, hpays⟩ := hpaid (0, requests[k].params.payload 0) (hrequests ▸ List.mem_cons_self)
  rw [hmovements, List.mem_singleton] at hm
  subst hm
  exact hpays.covers rate hrate

/-- Requests that are covered are fully paid in every run. -/
theorem fullyPaid_of_covered {settings : Settings} {requests : List SendRequest}
    (h : ∀ r ∈ requests, r.Covered settings rates) (opening : SendOpening)
    (sched : List (ℕ × Except SendError Outside))
    (hc : Pool.Along server.machine (Pool.CondAt (Rated rates)) (posted settings opening requests)
      sched) :
    FullyPaid rates ((posted settings opening requests).run server.machine sched).store := by
  have hstart : Pool.Verified server.machine (paidDiscipline rates settings) (fun _ _ _ => True)
      (posted settings opening requests) := by
    refine Pool.Verified.start ⟨rfl, fun m hm => (by cases hm), opening.balances,
      fun r hr => (by cases hr)⟩ fun i p hp => ?_
    have hget : (requests.map SendRequest.program)[i]? = some p := hp
    rw [List.getElem?_map] at hget
    obtain ⟨r, hr, rfl⟩ := Option.map_eq_some_iff.mp hget
    exact (pays_call (h r (List.mem_of_getElem? hr))).map_unit _ trivial
  exact (Pool.run_sound hstart sched hc).1.1.paid

/-- **Requests are fully paid for in every run exactly when each of them is covered**, at any
rates and configuration. -/
theorem fullyPaid_iff (settings : Settings) (rates : String → Option ℚ)
    (requests : List SendRequest) :
    (∀ (opening : SendOpening) (sched : List (ℕ × Except SendError Outside)),
      Pool.Along server.machine (Pool.CondAt (Rated rates)) (posted settings opening requests)
        sched →
      FullyPaid rates ((posted settings opening requests).run server.machine sched).store) ↔
    ∀ r ∈ requests, r.Covered settings rates :=
  ⟨covered_of_fullyPaid, fullyPaid_of_covered⟩

end alone

/-- One dollar is sent, and thirty million naira are to be received. -/
def dollarForMillions : SendRequest :=
  ⟨"ada", 1, 30000000, "NGN", "NG", "bank-channel", "000013", "0123456789", "Bola", none, none,
    none, none, none, by norm_num, by norm_num, by simp⟩

/-- The platform's rate of the naira. -/
def nairaRate (currency : String) : Option ℚ := if currency = "NGN" then some (13 / 20000) else none

/-- Nothing refuses it. -/
theorem dollarForMillions_passes : dollarForMillions.Passes {} nairaRate 1 where
  checked := ⟨1, by decide +kernel, by decide +kernel⟩
  configured := rfl
  converted := by decide +kernel
  minimum := by decide +kernel
  limits := by decide +kernel
  charged := by decide +kernel
  afforded := by decide +kernel

/-- Not every payout is paid for: millions are paid out for one dollar. -/
theorem millions_for_a_dollar :
    ¬ ∀ (settings : Settings) (rates : String → Option ℚ) (requests : List SendRequest)
      (opening : SendOpening) (sched : List (ℕ × Except SendError Outside)),
        Pool.Along server.machine (Pool.CondAt (Rated rates)) (posted settings opening requests)
          sched →
        FullyPaid rates ((posted settings opening requests).run server.machine sched).store := by
  intro h
  have hcovered := covered_of_fullyPaid (h {} nairaRate [dollarForMillions]) dollarForMillions
    (List.mem_singleton.mpr rfl)
  have hle : (30000000 : ℚ) * (13 / 20000) ≤ toFixed2 (dollarForMillions.params.totalUsd 1) :=
    hcovered 1 dollarForMillions_passes (13 / 20000) (by decide +kernel)
  have htotal : toFixed2 (dollarForMillions.params.totalUsd 1) = 11 / 10 := by decide +kernel
  rw [htotal] at hle
  norm_num at hle

end DayfiBackend.Consumer.YellowCard
