import DayfiBackend.Consumer.EvmInflows
import DayfiBackend.Found.Matched

/-!
# The ledger mirrors the chains

Whatever syncs run side by side, and whatever else the ledger does meanwhile: each movement that a
sync has made is the credit of a transfer to the address of its user, at the amount of the
transfer, and no transfer has two (`Mirrored.genuine`, `Mirrored.once`); so a user is credited no
more than has arrived (`Mirrored.total`). A sync that ends without an error has left no transfer
out that was among the last blocks of its chain all along (`Mirrored.complete`).
-/

namespace DayfiBackend.Consumer.Evm

open DayfiBackend.Found DayfiBackend.Found.Prog DayfiBackend.Found.Binary64
  DayfiBackend.Found.Keys DayfiBackend.Found.Matched

/-! ### Keys -/

theorem colon_notMem_toString (n : ℕ) : ':' ∉ (toString n).toList := fun h => by
  have := isDigit_of_mem_toString h
  revert this
  decide

theorem inflowKey_toList (key : String) (log : Log) :
    (inflowKey key log).toList = "evm:evm-in:".toList ++ key.toList ++ ':' ::
      log.transactionHash.toList ++ ':' :: (toString log.index).toList := by
  simp [inflowKey, reference, buildIdempotencyKey]

/-- The key of a transfer says which it is. -/
theorem inflowKey_inj {key key' : String} {log log' : Log}
    (h : inflowKey key log = inflowKey key' log') :
    key = key' ∧ log.transactionHash = log'.transactionHash ∧ log.index = log'.index := by
  have hlist := congrArg String.toList h
  rw [inflowKey_toList, inflowKey_toList] at hlist
  obtain ⟨hlist, hindex⟩ := append_cons_inj (colon_notMem_toString _) (colon_notMem_toString _)
    hlist
  obtain ⟨hkey, hhash⟩ := append_cons_inj log.hash_ok log'.hash_ok hlist
  exact ⟨String.toList_inj.mp (List.append_cancel_left hkey), String.toList_inj.mp hhash,
    toString_inj.mp (String.toList_inj.mp hindex)⟩

theorem inflowKey_prefix (key : String) (log : Log) :
    "evm:".toList <+: (inflowKey key log).toList := by
  rw [inflowKey_toList]
  exact ⟨"evm-in:".toList ++ key.toList ++ ':' :: log.transactionHash.toList ++ ':' ::
    (toString log.index).toList, by simp⟩

/-- Two transfers of a chain with one key are one. -/
theorem Network.log_unique (N : Network) {key : String} {log log' : Log} (h : log ∈ N.logs key)
    (h' : log' ∈ N.logs key) (heq : inflowKey key log = inflowKey key log') : log = log' := by
  obtain ⟨-, hhash, hindex⟩ := inflowKey_inj heq
  exact List.inj_on_of_nodup_map (N.unique key) h h' (Prod.ext hhash hindex)

/-! ### The property -/

section property

variable (cfg : Config) (N : Network) (deposits : String → Option String)

/-- The address of a user. -/
def addressOf (userId : String) : Option String := orNull ((deposits (trim userId)).map trim)

/-- The transfer is one of USDC on the chain to the address of the user, from another address. -/
structure Arrived (userId : String) (chain : EvmChainConfig) (log : Log) : Prop where
  logged : log ∈ N.logs chain.key
  contract : SameAddress log.contract chain.usdc
  address : ∃ address, addressOf deposits userId = some address ∧
    SameAddress log.recipient address ∧ ¬ SameAddress log.sender address

/-- The movement is the credit of a transfer that has arrived. -/
structure Mirrors (r : SyncRequest) (chain : EvmChainConfig) (log : Log) (m : MovementRow) :
    Prop where
  arrived : Arrived N deposits r.userId chain log
  key : m.idempotencyKey = inflowKey chain.key log
  direction : m.direction = .credit
  amount : m.amount = cents (log.amount (N.decimals chain.key))
  user : m.userId = trim r.userId
  wallet : r.usdWallet = some m.walletId

/-- The transfers to a user, with their chains. -/
def arrivals (chains : List EvmChainConfig) (address : String) : List (EvmChainConfig × Log) :=
  chains.flatMap fun chain => ((N.logs chain.key).filter fun l =>
    SameAddress l.contract chain.usdc && SameAddress l.recipient address).map fun l => (chain, l)

/-- A transfer that was among the last blocks of its chain at every step of a process. -/
def Visible (sched : List (ℕ × Except InflowError Outside)) (i : ℕ) (log : Log) : Prop :=
  ∀ o, (i, .ok o) ∈ sched → log.blockNumber ≤ o.latest ∧ o.latest ≤ log.blockNumber + logBlockRange

/-- What is shown of a run. -/
structure Mirrored (isAddress : String → Bool) (wallets : List WalletRow)
    (requests : List Request) (sched : List (ℕ × Except InflowError Outside)) : Prop where
  genuine : ∀ m ∈ ((begun cfg isAddress wallets requests).run (server N deposits).machine
      sched).store.1.movements, m.source = .evm →
    ∃ r chains, ∃ chain ∈ chains, ∃ log, .sync r ∈ requests ∧
      listEvmChainsForSync cfg = .ok chains ∧ Mirrors N deposits r chain log m
  once : (((begun cfg isAddress wallets requests).run (server N deposits).machine
    sched).store.1.movements.map (·.idempotencyKey)).Nodup
  total : ∀ userId address chains, addressOf deposits userId = some address →
    listEvmChainsForSync cfg = .ok chains →
    ((((begun cfg isAddress wallets requests).run (server N deposits).machine
        sched).store.1.movements.filter fun m => m.source = .evm && m.userId = trim userId).map
          (·.amount)).sum ≤
      ((arrivals N chains address).map fun a =>
        cents (a.2.amount (N.decimals a.1.key))).sum
  complete : ∀ (i : ℕ) r result chains, requests[i]? = some (.sync r) →
    ((begun cfg isAddress wallets requests).run (server N deposits).machine sched).procs[i]? =
      some (.ret (.synced (.ok result))) → result.errors = [] → trim r.userId ≠ "" →
    listEvmChainsForSync cfg = .ok chains → ∀ chain ∈ chains, ∀ log,
      Arrived N deposits r.userId chain log → 0 < log.amount (N.decimals chain.key) →
      Visible sched i log →
      ∃ m ∈ ((begun cfg isAddress wallets requests).run (server N deposits).machine
        sched).store.1.movements, m.source = .evm ∧ m.idempotencyKey = inflowKey chain.key log

end property

/-! ### The discipline -/

section discipline

variable {cfg : Config} {N : Network} {deposits : String → Option String}
  {requests : List Request}

/-- What holds between any two steps. -/
structure Genuine (cfg : Config) (N : Network) (deposits : String → Option String)
    (requests : List Request) (s : Store) : Prop where
  keys : (s.1.movements.map (·.idempotencyKey)).Nodup
  mirrors : ∀ m ∈ s.1.movements, m.source = .evm →
    ∃ r chains, ∃ chain ∈ chains, ∃ log, .sync r ∈ requests ∧
      listEvmChainsForSync cfg = .ok chains ∧ Mirrors N deposits r chain log m
  sources : ∀ m ∈ s.1.movements, "evm:".toList <+: m.idempotencyKey.toList → m.source = .evm

/-- Movements stay. -/
def Later (s t : Store) : Prop := ∀ m ∈ s.1.movements, m ∈ t.1.movements

/-- The discipline of the syncs: the outside is that of the schedule. -/
def mirrorDiscipline (cfg : Config) (N : Network) (deposits : String → Option String)
    (requests : List Request) (sched : List (ℕ × Except InflowError Outside)) :
    Discipline (Beside Query InflowSql) (Except InflowError Outside) Store where
  inv := Genuine cfg N deposits requests
  rely _ := Later
  cond i _ o _ := (i, o) ∈ sched
  good _ _ _ _ _ _ := True
  rely_refl _ _ _ := id
  rely_trans _ _ _ _ h h' := fun m hm => h' m (h m hm)

theorem lax (sched : List (ℕ × Except InflowError Outside)) :
    Lax (mirrorDiscipline cfg N deposits requests sched) := ⟨fun _ _ _ _ _ _ => trivial⟩

variable {sched : List (ℕ × Except InflowError Outside)} {i : ℕ}

/-- A movement is recorded under a new key. -/
theorem Genuine.cons {s : Store} {A : Accounts} {m : MovementRow}
    (h : Genuine cfg N deposits requests s) (hA : A.movements = m :: s.1.movements)
    (hfresh : s.1.movement? m.idempotencyKey = none)
    (hsource : "evm:".toList <+: m.idempotencyKey.toList → m.source = .evm)
    (hm : m.source = .evm → ∃ r chains, ∃ chain ∈ chains, ∃ log, .sync r ∈ requests ∧
      listEvmChainsForSync cfg = .ok chains ∧ Mirrors N deposits r chain log m) :
    Genuine cfg N deposits requests (A, s.2) ∧ Later s (A, s.2) := by
  have hmem : ∀ m' ∈ A.movements, m' = m ∨ m' ∈ s.1.movements := fun m' hm' =>
    List.mem_cons.mp (hA ▸ hm' : m' ∈ m :: s.1.movements)
  refine ⟨⟨?_, fun m' hm' => ?_, fun m' hm' => ?_⟩,
    fun m' hm' => hA ▸ List.mem_cons_of_mem m hm'⟩
  · show (A.movements.map _).Nodup
    rw [hA]
    refine List.nodup_cons.mpr ⟨fun hmem => ?_, h.keys⟩
    obtain ⟨m', hm', hkey⟩ := List.mem_map.mp hmem
    have hnone := List.find?_eq_none.mp hfresh m' hm'
    simp [hkey] at hnone
  · rcases hmem m' hm' with rfl | hm'
    · exact hm
    · exact h.mirrors m' hm'
  · rcases hmem m' hm' with rfl | hm'
    · exact hsource
    · exact h.sources m' hm'

/-- The rules of one process under the discipline. -/
abbrev Keeps (cfg : Config) (N : Network) (deposits : String → Option String)
    (requests : List Request) (sched : List (ℕ × Except InflowError Outside)) (i : ℕ) {β : Type}
    (P : Store → Prop) (c : InflowCall β) (Q : β → Store → Prop) : Prop :=
  Triple (server N deposits).machine (mirrorDiscipline cfg N deposits requests sched) i P c Q
    fun _ _ => True

/-! ### Other calls -/

/-- A credit on behalf of another source. -/
theorem other_credit {p : BalanceParams} (hsource : p.source ≠ .evm)
    (hkey : ¬ "evm:".toList <+: p.idempotencyKey.toList) (currency : String) :
    CreditKeeps (mirrorDiscipline cfg N deposits requests sched) i (fun _ => True) p currency
      fun _ => True := by
  intro s t _ hinv hstep
  obtain ⟨hgenuine, hlater⟩ := hinv.cons hstep.movements hstep.fresh (fun h => absurd h hkey)
    fun h => absurd h hsource
  exact ⟨hgenuine, fun _ _ => hlater, trivial⟩

/-- A debit on behalf of another source. -/
theorem other_debit {p : BalanceParams} (hsource : p.source ≠ .evm)
    (hkey : ¬ "evm:".toList <+: p.idempotencyKey.toList) (currency : String) :
    DebitKeeps (mirrorDiscipline cfg N deposits requests sched) Outside.ledger i (fun _ => True) p
      currency fun _ => True := by
  intro s t _ hinv _ hstep
  obtain ⟨usd, hmovements⟩ := hstep.movements
  obtain ⟨hgenuine, hlater⟩ := hinv.cons hmovements hstep.fresh (fun h => absurd h hkey)
    fun h => absurd h hsource
  exact ⟨hgenuine, fun _ _ => hlater, trivial⟩

theorem keeps_other {p : BalanceParams} (hsource : p.source ≠ .evm)
    (hkey : ¬ "evm:".toList <+: p.idempotencyKey.toList) (call : OtherCall) :
    Keeps cfg N deposits requests sched i (fun _ => True) (call.call p) fun _ _ => True := by
  have hstable : ∀ s t : Store, True →
      (mirrorDiscipline cfg N deposits requests sched).rely i s t → True := fun _ _ _ _ => trivial
  cases call with
  | creditUsdBalance =>
      refine Triple.bind (R := fun _ _ => True) ?_ fun _ => Triple.pure fun _ _ => trivial
      refine Triple.mono (triple_creditUsdBalance (lax sched) (Q := fun _ => True) hstable
        (fun _ _ _ _ _ _ => trivial) fun usd _ => ?_) (fun _ h => h) (fun _ _ h => h)
          fun _ _ _ => trivial
      exact other_credit (p := { p with amount := usd, usdEquivalent := usd }) hsource hkey _
  | debitUsdBalance =>
      refine Triple.bind (R := fun _ _ => True) ?_ fun _ => Triple.pure fun _ _ => trivial
      exact Triple.mono (triple_debit (lax sched) (Q := fun _ => True) hstable hstable
        (fun _ _ _ _ _ _ => trivial) fun _ => other_debit hsource hkey _) (fun _ h => h)
          (fun _ _ h => h) fun _ _ _ => trivial
  | creditWalletBalance =>
      refine Triple.bind (R := fun _ _ => True) ?_ fun _ => Triple.pure fun _ _ => trivial
      exact Triple.mono (triple_creditWalletBalance (lax sched) (Q := fun _ => True) hstable
        (fun _ _ _ _ _ _ => trivial) (other_credit hsource hkey _)) (fun _ h => h) (fun _ _ h => h)
          fun _ _ _ => trivial
  | debitWalletBalance =>
      refine Triple.bind (R := fun _ _ => True) ?_ fun _ => Triple.pure fun _ _ => trivial
      exact Triple.mono (triple_debit (lax sched) (Q := fun _ => True) hstable hstable
        (fun _ _ _ _ _ _ => trivial) fun _ => other_debit hsource hkey _) (fun _ h => h)
          (fun _ _ h => h) fun _ _ _ => trivial

/-! ### Syncs -/

/-- The transfer has its movement. -/
def Recorded (key : String) (log : Log) (s : Store) : Prop :=
  ∃ m ∈ s.1.movements, m.idempotencyKey = inflowKey key log

theorem Recorded.later {key : String} {log : Log} {s t : Store} (h : Recorded key log s)
    (hl : Later s t) : Recorded key log t := by
  obtain ⟨m, hm, hkey⟩ := h
  exact ⟨m, hl m hm, hkey⟩

/-- Without an error, the transfers from other addresses have their movements. -/
def Covers (N : Network) (p : SyncParams) (key : String) (logs : List Log)
    (errors : List InflowNote) (s : Store) : Prop :=
  errors = [] → ∀ log ∈ logs, ¬ SameAddress log.sender p.address →
    0 < log.amount (N.decimals key) → Recorded key log s

theorem Covers.later {p : SyncParams} {key : String} {logs : List Log} {errors : List InflowNote}
    {s t : Store} (h : Covers N p key logs errors s) (hl : Later s t) :
    Covers N p key logs errors t :=
  fun he log hlog hsender hpos => (h he log hlog hsender hpos).later hl

/-- One more transfer, which is left out or has its movement. -/
theorem Covers.snoc {p : SyncParams} {key : String} {logs : List Log} {log : Log}
    {errors : List InflowNote} {s : Store} (h : Covers N p key logs errors s)
    (hlog : ¬ SameAddress log.sender p.address → 0 < log.amount (N.decimals key) →
      Recorded key log s) : Covers N p key (logs ++ [log]) errors s := by
  intro he log' hlog' hsender hpos
  rcases List.mem_append.mp hlog' with h' | h'
  · exact h he log' h' hsender hpos
  · obtain rfl := List.mem_singleton.mp h'
    exact hlog hsender hpos

/-- What a sync of a user works with. -/
structure Syncing (deposits : String → Option String) (requests : List Request)
    (r : SyncRequest) (p : SyncParams) : Prop where
  asked : .sync r ∈ requests
  user : p.userId = trim r.userId
  wallet : r.usdWallet = some p.usdWalletId
  address : addressOf deposits r.userId = some p.address

/-- One of the chains. -/
def Listed (cfg : Config) (chain : EvmChainConfig) : Prop :=
  ∃ chains, listEvmChainsForSync cfg = .ok chains ∧ chain ∈ chains

section syncs

variable {r : SyncRequest} {p : SyncParams} {chain : EvmChainConfig} {F : Store → Prop}

/-- The rules of a process beside what it keeps anyway. -/
abbrev KeepsToo (cfg : Config) (N : Network) (deposits : String → Option String)
    (requests : List Request) (sched : List (ℕ × Except InflowError Outside)) (i : ℕ)
    (F : Store → Prop) {β : Type} (P : Store → Prop) (c : InflowCall β) (Q : β → Store → Prop) :
    Prop :=
  Triple (server N deposits).machine (mirrorDiscipline cfg N deposits requests sched) i
    (fun s => F s ∧ P s) c (fun b s => F s ∧ Q b s) fun _ => F

theorem InflowSql.run_same {β : Type} (st : InflowSql β) (o : Outside) (s : Store) :
    (st.run N deposits o s).2 = s := by
  cases st <;> rfl

/-- A statement that reads. -/
theorem keeps_read (hF : ∀ s t, F s → Later s t → F t) {β : Type} {st : InflowSql (Ans β)}
    {P : Store → Prop} {Q : β → Store → Prop} (hst : ∀ e, st.fail e = .error e)
    (hstable : ∀ s t, P s → Later s t → P t)
    (hQ : ∀ s o b, P s → (i, .ok o) ∈ sched → (st.run N deposits o s).1 = .ok b → Q b s) :
    KeepsToo cfg N deposits requests sched i F P (sql st) Q := by
  refine Beside.triple_own hst (fun s t hs hl => ⟨hF s t hs.1 hl, hstable s t hs.2 hl⟩)
    (fun _ _ hs _ _ => ⟨trivial, hs.1⟩) fun s o hs hinv hc => ?_
  rw [show ((inflows N deposits).run i st o s).2 = s from st.run_same o s]
  exact ⟨⟨trivial, hinv, fun _ _ _ h => h⟩, fun b hb => ⟨hs.1, hQ s o b hs.2 hc hb⟩,
    fun _ _ => hs.1⟩

/-- The credit of a transfer that has arrived. -/
theorem keeps_credit (hp : Syncing deposits requests r p) (hc : Listed cfg chain) {log : Log}
    (ha : Arrived N deposits r.userId chain log) {P : Store → Prop}
    (hstable : ∀ s t, P s → Later s t → P t) :
    Triple (server N deposits).machine (mirrorDiscipline cfg N deposits requests sched) i P
      (ledger (creditWalletBalance (p.credit chain.key (N.decimals chain.key) log)))
      (fun _ s => P s ∧ Recorded chain.key log s) fun _ => P := by
  obtain ⟨chains, hchains, hchain⟩ := hc
  refine triple_creditWalletBalance (lax sched) hstable (fun s m hs _ _ hm => ?_) ?_
  · have hkey := List.find?_some hm
    exact ⟨hs, m, List.mem_of_find?_eq_some hm, of_decide_eq_true hkey⟩
  · intro s t hs hinv hstep
    have hmirrors : ∀ currency, Mirrors N deposits r chain log
        ((p.credit chain.key (N.decimals chain.key) log).credited currency s.1) :=
      fun _ => ⟨ha, rfl, rfl, rfl, hp.user, hp.wallet⟩
    obtain ⟨hgenuine, hlater⟩ := hinv.cons hstep.movements hstep.fresh (fun _ => rfl) fun _ =>
      ⟨r, chains, chain, hchain, log, hp.asked, hchains, hmirrors _⟩
    have hnew : ∀ {m ms}, t.movements = m :: ms → m ∈ t.movements :=
      fun h => h ▸ List.mem_cons_self
    exact ⟨hgenuine, fun _ _ => hlater, hstable _ _ hs hlater, _, hnew hstep.movements, rfl⟩

theorem keeps_mirrorLog (hF : ∀ s t, F s → Later s t → F t) (hp : Syncing deposits requests r p)
    (hc : Listed cfg chain) {log : Log} (hlog : log ∈ N.logs chain.key)
    (hcontract : SameAddress log.contract chain.usdc)
    (hrecipient : SameAddress log.recipient p.address) (seen : List Log)
    (result : EvmInflowSyncResult) :
    KeepsToo cfg N deposits requests sched i F (Covers N p chain.key seen result.errors)
      (mirrorLog p chain.key (N.decimals chain.key) result log)
      fun result => Covers N p chain.key (seen ++ [log]) result.errors := by
  refine Triple.ite (fun hsame => ?_) fun hsender => Triple.ite (fun hle => ?_) fun hpos => ?_
  · exact Triple.pure fun s hs => ⟨hs.1, hs.2.snoc fun h => absurd hsame h⟩
  · exact Triple.pure fun s hs => ⟨hs.1, hs.2.snoc fun _ h => absurd hle (not_le.mpr h)⟩
  have ha : Arrived N deposits r.userId chain log :=
    ⟨hlog, hcontract, p.address, hp.address, hrecipient, hsender⟩
  refine Triple.tryCatch (F := fun _ s => F s ∧ Covers N p chain.key seen result.errors s)
    (Triple.bind (keeps_credit hp hc ha fun s t hs hl => ⟨hF s t hs.1 hl, hs.2.later hl⟩)
      fun credit => Triple.pure fun s hs => ?_) fun e => Triple.pure fun s hs => ⟨hs.1, ?_⟩
  · exact ⟨hs.1.1, hs.1.2.snoc fun _ _ => hs.2⟩
  · intro he
    exact absurd he (List.append_ne_nil_of_right_ne_nil _ (List.cons_ne_nil _ _))

theorem keeps_mirrorLogs (hF : ∀ s t, F s → Later s t → F t) (hp : Syncing deposits requests r p)
    (hc : Listed cfg chain) :
    ∀ (logs : List Log) (seen : List Log) (result : EvmInflowSyncResult),
      (∀ log ∈ logs, log ∈ N.logs chain.key ∧ SameAddress log.contract chain.usdc ∧
        SameAddress log.recipient p.address) →
      KeepsToo cfg N deposits requests sched i F (Covers N p chain.key seen result.errors)
        (mirrorLogs p chain.key (N.decimals chain.key) result logs)
        fun result => Covers N p chain.key (seen ++ logs) result.errors
  | [], seen, result, _ => Triple.pure fun s hs => by rwa [List.append_nil]
  | log :: logs, seen, result, h => by
      obtain ⟨hlog, hcontract, hrecipient⟩ := h log List.mem_cons_self
      refine Triple.bind (keeps_mirrorLog hF hp hc hlog hcontract hrecipient seen result)
        fun result => ?_
      have hrest := keeps_mirrorLogs hF hp hc logs (seen ++ [log]) result
        fun log' hlog' => h log' (List.mem_cons_of_mem log hlog')
      rwa [List.append_assoc, List.singleton_append] at hrest

/-- Without an error, no transfer of a chain is left out. -/
def Complete (N : Network) (deposits : String → Option String)
    (sched : List (ℕ × Except InflowError Outside)) (i : ℕ) (r : SyncRequest)
    (chains : List EvmChainConfig) (errors : List InflowNote) (s : Store) : Prop :=
  errors = [] → ∀ chain ∈ chains, ∀ log, Arrived N deposits r.userId chain log →
    0 < log.amount (N.decimals chain.key) → Visible sched i log → Recorded chain.key log s

theorem Complete.later {chains : List EvmChainConfig} {errors : List InflowNote} {s t : Store}
    (h : Complete N deposits sched i r chains errors s) (hl : Later s t) :
    Complete N deposits sched i r chains errors t :=
  fun he chain hchain log ha hpos hv => (h he chain hchain log ha hpos hv).later hl

/-- The transfers of a range that holds all that are visible. -/
theorem Covers.complete (hp : Syncing deposits requests r p) {o : Outside}
    (ho : (i, .ok o) ∈ sched) {errors : List InflowNote} {s : Store}
    (h : Covers N p chain.key
      (N.transfers chain p.address (o.latest - logBlockRange) o.latest) errors s) :
    Complete N deposits sched i r [chain] errors s := by
  intro he c hc log ha hpos hv
  obtain rfl := List.mem_singleton.mp hc
  obtain ⟨address, haddress, hrecipient, hsender⟩ := ha.address
  obtain rfl := Option.some.inj (hp.address.symm.trans haddress)
  obtain ⟨hle, hge⟩ := hv o ho
  refine h he log (List.mem_filter.mpr ⟨ha.logged, ?_⟩) hsender hpos
  simp only [Bool.and_eq_true, decide_eq_true_eq]
  exact ⟨⟨⟨ha.contract, hrecipient⟩, by omega⟩, hle⟩

theorem keeps_mirrorChain (hF : ∀ s t, F s → Later s t → F t)
    (hp : Syncing deposits requests r p) (hc : Listed cfg chain) (isAddress : String → Bool) :
    KeepsToo cfg N deposits requests sched i F (fun _ => True) (mirrorChain isAddress p chain)
      fun result => Complete N deposits sched i r [chain] result.errors := by
  refine Triple.bind (R := fun latest s => F s ∧ ∃ o, (i, .ok o) ∈ sched ∧ latest = o.latest)
    (keeps_read hF (fun _ => rfl) (fun _ _ _ _ => trivial)
      fun s o b _ ho hb => ⟨o, ho, (Except.ok.inj hb).symm⟩) fun latest => ?_
  refine Triple.ite (fun _ => Triple.throw fun _ hs => hs.1) fun _ => ?_
  refine Triple.bind (R := fun logs s => F s ∧ ∃ o, (i, .ok o) ∈ sched ∧
      logs = N.transfers chain p.address (o.latest - logBlockRange) o.latest)
    (keeps_read hF (fun _ => rfl) (fun _ _ h _ => h) fun s o' b hs _ hb => ?_) fun logs => ?_
  · obtain ⟨o, ho, rfl⟩ := hs
    exact ⟨o, ho, (Except.ok.inj hb).symm⟩
  refine Triple.bind (R := fun d s => F s ∧ d = N.decimals chain.key ∧
      ∃ o, (i, .ok o) ∈ sched ∧
        logs = N.transfers chain p.address (o.latest - logBlockRange) o.latest)
    (keeps_read hF (fun _ => rfl) (fun _ _ h _ => h)
      fun s o b hs _ hb => ⟨(Except.ok.inj hb).symm, hs⟩) fun d => ?_
  intro s hs
  obtain ⟨hs, rfl, o, ho, rfl⟩ := hs
  have hlogs : KeepsToo cfg N deposits requests sched i F (Covers N p chain.key [] [])
      (mirrorLogs p chain.key (N.decimals chain.key) {}
        (N.transfers chain p.address (o.latest - logBlockRange) o.latest))
      fun result => Covers N p chain.key
        ([] ++ N.transfers chain p.address (o.latest - logBlockRange) o.latest) result.errors :=
    keeps_mirrorLogs hF hp hc _ [] {} (fun log hlog => by
      obtain ⟨hmem, hprop⟩ := List.mem_filter.mp hlog
      simp only [Bool.and_eq_true, decide_eq_true_eq] at hprop
      exact ⟨hmem, hprop.1.1.1, hprop.1.1.2⟩)
  exact hlogs.mono (fun _ h => h) (fun result t ht => ⟨ht.1, ht.2.complete hp ho⟩)
    (fun _ _ h => h) s ⟨hs, fun _ log hlog => (by cases hlog)⟩

theorem keeps_syncChain (hF : ∀ s t, F s → Later s t → F t) (hp : Syncing deposits requests r p)
    (hc : Listed cfg chain) (isAddress : String → Bool) :
    KeepsToo cfg N deposits requests sched i F (fun _ => True)
      (syncChainUsdcInflows isAddress p chain)
      fun result => Complete N deposits sched i r [chain] result.errors :=
  Triple.tryCatch (F := fun _ => F) (keeps_mirrorChain hF hp hc isAddress) fun _ =>
    Triple.pure fun _ hs => ⟨hs, fun he => absurd he (List.cons_ne_nil _ _)⟩

theorem keeps_syncChains (hp : Syncing deposits requests r p) (isAddress : String → Bool) :
    ∀ (chains seen : List EvmChainConfig) (result : EvmInflowSyncResult),
      (∀ chain ∈ chains, Listed cfg chain) →
      Keeps cfg N deposits requests sched i
        (Complete N deposits sched i r seen result.errors) (syncChains isAddress p result chains)
        fun result => Complete N deposits sched i r (seen ++ chains) result.errors
  | [], seen, result, _ => Triple.pure fun s hs => by rwa [List.append_nil]
  | chain :: chains, seen, result, h => by
      refine Triple.bind (R := fun more =>
          Complete N deposits sched i r (seen ++ [chain]) (result.add more).errors)
        ((keeps_syncChain (F := Complete N deposits sched i r seen result.errors)
          (fun _ _ hs hl => hs.later hl) hp (h chain List.mem_cons_self) isAddress).mono
            (fun s hs => ⟨hs, trivial⟩) (fun more s hs => ?_) fun _ _ _ => trivial)
        fun more => ?_
      · intro he c hc
        obtain ⟨hresult, hpartial⟩ := List.append_eq_nil_iff.mp he
        rcases List.mem_append.mp hc with hc | hc
        · exact hs.1 hresult c hc
        · exact hs.2 hpartial c hc
      · have hrest := keeps_syncChains hp isAddress chains (seen ++ [chain])
          (result.add more) fun c hc => h c (List.mem_cons_of_mem chain hc)
        rwa [List.append_assoc, List.singleton_append] at hrest

/-- What a sync has done when it ends without an error. -/
theorem keeps_sync (isAddress : String → Bool) (hr : .sync r ∈ requests) :
    Keeps cfg N deposits requests sched i (fun _ => True)
      (syncEvmInflowsToLedger cfg isAddress r) fun result s =>
        trim r.userId ≠ "" → ∀ chains, listEvmChainsForSync cfg = .ok chains →
          Complete N deposits sched i r chains result.errors s := by
  have hnoted : ∀ (n : InflowNote) (s : Store), trim r.userId ≠ "" → ∀ chains,
      listEvmChainsForSync cfg = .ok chains →
        Complete N deposits sched i r chains (({} : EvmInflowSyncResult).note n).errors s :=
    fun n s _ chains _ he => absurd he (List.cons_ne_nil _ _)
  have htrue : ∀ s t : Store, True → Later s t → True := fun _ _ _ _ => trivial
  refine Triple.ite (fun hempty => Triple.pure fun _ _ hne => absurd hempty hne) fun _ => ?_
  refine Triple.bind (R := fun _ _ => True) ((keeps_read (F := fun _ => True) htrue
    (P := fun _ => True) (Q := fun _ _ => True) (fun _ => rfl) htrue
      fun _ _ _ _ _ _ => trivial).mono (fun _ _ => ⟨trivial, trivial⟩) (fun _ _ h => h.2)
        fun _ _ h => h) fun ready => ?_
  refine Triple.ite (fun _ => Triple.pure fun s _ => hnoted _ s) fun _ => ?_
  cases hwallet : r.usdWallet with
  | none => exact Triple.pure fun s _ => hnoted _ s
  | some usdWalletId =>
      refine Triple.bind (R := fun address _ => address = addressOf deposits r.userId)
        ((keeps_read (F := fun _ => True) htrue (P := fun _ => True) (fun _ => rfl) htrue
          fun s o b _ _ hb => ?_).mono (fun _ _ => ⟨trivial, trivial⟩) (fun _ _ h => h.2)
            fun _ _ h => h) fun found => ?_
      · exact (Except.ok.inj hb).symm
      · cases found with
        | none => exact Triple.pure fun s _ => hnoted _ s
        | some address =>
            refine Triple.assume (φ := some address = addressOf deposits r.userId)
              (P := fun _ => True) (fun haddress => ?_) |>.mono (fun s hs => ⟨hs, trivial⟩)
                (fun _ _ h => h) fun _ _ h => h
            have hp : Syncing deposits requests r ⟨trim r.userId, address, usdWalletId⟩ :=
              ⟨hr, rfl, hwallet, haddress.symm⟩
            cases hchains : listEvmChainsForSync cfg with
            | error e =>
                show Keeps _ _ _ _ _ _ _ (worked (.error e) >>= _) _
                exact Triple.throw fun _ _ => trivial
            | ok chains =>
                have hall : Keeps cfg N deposits requests sched i
                    (Complete N deposits sched i r [] [])
                    (syncChains isAddress ⟨trim r.userId, address, usdWalletId⟩ {} chains)
                    fun result => Complete N deposits sched i r ([] ++ chains) result.errors :=
                  keeps_syncChains hp isAddress chains [] {} fun c hc => ⟨chains, hchains, hc⟩
                refine Triple.mono hall (fun s _ => ?_) (fun result s hs _ chains' hc => ?_)
                  fun _ _ h => h
                · intro _ c hc
                  cases hc
                · obtain rfl := Except.ok.inj hc
                  exact hs

end syncs

/-! ### Every run -/

/-- What a request comes to, where nothing is left to be done. -/
def Ends (cfg : Config) (N : Network) (deposits : String → Option String)
    (requests : List Request) (sched : List (ℕ × Except InflowError Outside)) (i : ℕ)
    (outcome : Outcome) (s : Store) : Prop :=
  ∀ r result, requests[i]? = some (.sync r) → outcome = .synced (.ok result) →
    trim r.userId ≠ "" → ∀ chains, listEvmChainsForSync cfg = .ok chains →
      Complete N deposits sched i r chains result.errors s

theorem verified_request {isAddress : String → Bool} {request : Request}
    (hi : requests[i]? = some request) (s : Store) :
    wp (server N deposits).machine (mirrorDiscipline cfg N deposits requests sched) i
      (request.program cfg isAddress) (Ends cfg N deposits requests sched i) s := by
  cases request with
  | sync r =>
      refine (wp_bind _ _ _ _).mpr (wp_mono (fun b t hb => ?_) _ _
        (keeps_sync isAddress (List.mem_of_getElem? hi) s trivial))
      refine (wp_ret _ _ _ _ _ _).mpr fun r' result hi' houtcome => ?_
      obtain rfl : r = r' := Request.sync.inj (Option.some.inj (hi.symm.trans hi'))
      obtain rfl := Outcome.synced.inj houtcome
      exact hb
  | other call p =>
      refine (wp_bind _ _ _ _).mpr (wp_mono (fun b t _ => ?_) _ _
        (keeps_other p.source_ne p.key_ne call s trivial))
      exact (wp_ret _ _ _ _ _ _).mpr fun r result _ h => by cases h

end discipline

/-- The amounts credited are those of transfers, each counted once. -/
theorem Genuine.total {cfg : Config} {N : Network} {deposits : String → Option String}
    {requests : List Request} {s : Store} (h : Genuine cfg N deposits requests s)
    {userId address : String} {chains : List EvmChainConfig}
    (haddress : addressOf deposits userId = some address)
    (hchains : listEvmChainsForSync cfg = .ok chains) :
    ((s.1.movements.filter fun m => m.source = .evm && m.userId = trim userId).map
        (·.amount)).sum ≤
      ((arrivals N chains address).map fun a =>
        cents (a.2.amount (N.decimals a.1.key))).sum := by
  refine sum_le_of_matched (f := (·.idempotencyKey)) (g := fun a => inflowKey a.1.key a.2)
    (h.keys.sublist (List.filter_sublist.map _)) (fun a _ => ?_) fun m hm => ?_
  · exact cents_nonneg (nearest_nonneg (by positivity))
  · obtain ⟨hmem, hprop⟩ := List.mem_filter.mp hm
    simp only [Bool.and_eq_true, decide_eq_true_eq] at hprop
    obtain ⟨r, chains', chain, hchain, log, -, hchains', hmirrors⟩ := h.mirrors m hmem hprop.1
    obtain rfl := Except.ok.inj (hchains.symm.trans hchains')
    refine ⟨(chain, log), List.mem_flatMap.mpr ⟨chain, hchain, List.mem_map.mpr ⟨log, ?_, rfl⟩⟩,
      hmirrors.key.symm, hmirrors.amount.le⟩
    obtain ⟨address', haddress', hrecipient, -⟩ := hmirrors.arrived.address
    have huser : addressOf deposits r.userId = addressOf deposits userId := by
      unfold addressOf
      rw [← hmirrors.user, hprop.2]
    obtain rfl : address = address' :=
      Option.some.inj (haddress.symm.trans (huser.symm.trans haddress'))
    refine List.mem_filter.mpr ⟨hmirrors.arrived.logged, ?_⟩
    simp only [Bool.and_eq_true, decide_eq_true_eq]
    exact ⟨hmirrors.arrived.contract, hrecipient⟩

/-- A run meets the discipline whose outside is that of its schedule. -/
theorem along_mem {M : Machine (Beside Query InflowSql) (Except InflowError Outside) Store}
    {sched : List (ℕ × Except InflowError Outside)} :
    ∀ (rest : List (ℕ × Except InflowError Outside))
      (P : Pool (Beside Query InflowSql) Outcome Store), (∀ e ∈ rest, e ∈ sched) →
      Pool.Along M (Pool.CondAt fun i _ o _ => (i, o) ∈ sched) P rest
  | [], _, _ => trivial
  | e :: rest, P, h => by
      refine ⟨?_, along_mem rest _ fun e' he' => h e' (List.mem_cons_of_mem e he')⟩
      unfold Pool.CondAt
      split
      · exact h e List.mem_cons_self
      · trivial

end DayfiBackend.Consumer.Evm
