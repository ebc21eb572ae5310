import DayfiBackend.Infra.TransferConservation

/-!
# A transfer requested again

A call that repeats the key of a completed transfer should answer with that transfer, or refuse
with a conflict when it asks for something else, whatever the wallets hold by then. The call looks
its key up only after it has checked that a fee can be paid: with a fee to charge, a sender who can
no longer pay is refused before the transfer is found, and a closed wallet refuses the answer
(`repeats_iff`).
-/

namespace DayfiBackend.Infra.InternalTransfer

open DayfiBackend.Found.Binary64 DayfiBackend.Found.Keys DayfiBackend.Found.Tx

/-! ### Two calls with one key -/

/-- What the fingerprint of a checked request is taken of. -/
def partsOf (cfg : FeeSettings) (i : TransferInput) (p : Prepared) : FingerprintParts :=
  ⟨p.quote.transferAmount, p.environment, p.recipientOrgId,
    getTransferSettlementMode cfg i.settlementMode⟩

/-- The `STELLAR_ONCHAIN` mode, as far as the key is looked up; `execute` is the rest. -/
def onchainMode (o : Outside) (execute : Prepared → Option TransferRow → CallM Presented)
    (p : Prepared) : CallM Presented := do
  Session.failIf (p.environment = .live ∧ p.idem = none) (.transfer .idempotencyRequired)
  match p.idem with
  | none => execute p none
  | some idem => do
      let existing ← loadTransferByIdempotency o p idem
      Session.failIf (∃ f, existing.bind (orNull ·.requestFingerprint) = some f ∧
        f ≠ p.fingerprint) (.transfer .idempotencyConflict)
      execute p existing

/-- A call of the `INTERNAL_LEDGER` mode on the request `p` made the transfer `x`. -/
structure Completes (o : Outside) (cfg : FeeSettings) (onchain : Prepared → CallM Presented)
    (i : TransferInput) (p : Prepared) (b b₁ : Books) (x : TransferRow) : Prop where
  mode : getTransferSettlementMode cfg i.settlementMode = .internalLedger
  prepared : prepare o cfg i b = .ok p
  leaves : ((createInternalTransfer o cfg onchain i).exec b).2 = b₁
  stored : x ∈ b₁.transfers
  made : x.id = o.transferGroupId
  new : ∀ r ∈ b.transfers, r.id ≠ o.transferGroupId

/-- A call under the key of an earlier one. -/
structure SameKey (i₀ i : TransferInput) : Prop where
  sender : i.senderOrgId = i₀.senderOrgId
  environment : normalizeEnv i.environment = normalizeEnv i₀.environment
  key : i.idem = i₀.idem
  given : i₀.idem ≠ none

/-- The tables of a later time: transfers and organisations stay, and the constraints of the schema
hold. Wallets, movements, fees and everything else may be any. -/
structure Later (o : Outside) (b₀ b₁ b : Books) : Prop where
  transfers : ∀ r ∈ b₁.transfers, r ∈ b.transfers
  orgs : ∀ id, b₀.hasOrg id = true → b.hasOrg id = true
  keys : ∀ r ∈ b.transfers, ∀ s ∈ b.transfers, r.clashes s = true → r = s
  parties : ∀ r ∈ b.transfers, b.hasOrg r.senderOrgId = true ∧ b.hasOrg r.recipientOrgId = true
  ids : ∀ org ∈ b.orgs, o.uuid.read org.id = some org.id

/-- A call that meets the database of an earlier one: no statement fails, and the id drawn for a
fee organisation is new. -/
structure Meets (o₀ o : Outside) (b : Books) : Prop where
  uuid : o.uuid = o₀.uuid
  fingerprint : o.fingerprint = o₀.fingerprint
  fails : ∀ step, o.fails step = false
  drawn : o.uuid.read o.feeOrgId = some o.feeOrgId
  unused : b.hasOrg o.feeOrgId = false

/-- No money moved, and no transfer was made. -/
structure Unmoved (b b' : Books) : Prop where
  unchanged : Unchanged b b'
  transfers : b'.transfers = b.transfers

/-- The stored transfer is the answer. -/
def AnswersWith (x : TransferRow) (r : Except TransferFailure Presented) : Prop :=
  ∃ a, r = .ok a ∧ a.row = x ∧ a.duplicate = true

/-- What a call with the key of the transfer `x` should do; `parts` were asked for with `i₀` when
the tables were `b₀`. -/
structure Repeats (o : Outside) (cfg : FeeSettings) (i₀ i : TransferInput)
    (parts : FingerprintParts) (x : TransferRow) (b₀ b : Books)
    (r : Except TransferFailure Presented) (b' : Books) : Prop where
  identical : i = i₀ → b.members = b₀.members →
    getTransferSettlementMode cfg i.settlementMode = .internalLedger → AnswersWith x r
  refused : ∀ e, prepare o cfg i b = .error e → r = .error e
  same : ∀ p, prepare o cfg i b = .ok p → partsOf cfg i p = parts → AnswersWith x r
  other : ∀ p, prepare o cfg i b = .ok p → partsOf cfg i p ≠ parts →
    r = .error (.transfer .idempotencyConflict)
  unmoved : Unmoved b b'

/-! ### When it does -/

/-- The wallet is not closed. -/
def Presentable (l : Ledger) (k : WalletKey) : Prop := (l.row k).status ≠ .closed

instance (l : Ledger) (k : WalletKey) : Decidable (Presentable l k) :=
  inferInstanceAs (Decidable (_ ≠ _))

/-- What a wallet reads as available pays the amount and the fee. -/
def Affords (l : Ledger) (k : WalletKey) (q : FeeQuote) : Prop :=
  Presentable l k ∧ ∃ minor,
    parseUsdcToMinor (.number (some (l.row k).read.available)) = .ok minor ∧
      q.customerDebitAmount ≤ minor

/-- The wallets of a transfer. -/
def TransferRow.senderWallet (x : TransferRow) : WalletKey := usdcWallet x.senderOrgId x.environment

def TransferRow.recipientWallet (x : TransferRow) : WalletKey :=
  usdcWallet x.recipientOrgId x.environment

/-- The wallets let a repetition through: a fee it is to pay could be paid again, and the wallets
it answers with are not closed. -/
structure LetsThrough (l : Ledger) (x : TransferRow) (q : FeeQuote) (sameRequest : Prop) :
    Prop where
  fee : q.feeCharged = true → Affords l x.senderWallet q
  wallets : sameRequest → Presentable l x.senderWallet ∧ Presentable l x.recipientWallet

/-! ### The request, checked again -/

section request

variable {o o₀ : Outside} {cfg cfg₀ : FeeSettings} {i : TransferInput} {p p₀ : Prepared}
  {b b₀ b₁ : Books} {recipient : String}

/-- What a checked request is made of. -/
theorem prepare_eq_ok : prepare o cfg i b = .ok p ↔
    ∃ minor recipient, parseUsdcToMinor i.amount = .ok minor ∧ 0 < minor ∧
      normalizeAsset i.asset = "USDC" ∧
      (orNull i.recipientEnvironment).any (normalizeEnv · ≠ normalizeEnv i.environment) = false ∧
      resolveRecipientOrgId o i b = .ok recipient ∧ recipient ≠ i.senderOrgId ∧
      p = ⟨i.senderOrgId, recipient, normalizeEnv i.environment, i.quote cfg minor, i.idem,
        o.fingerprint ⟨minor, normalizeEnv i.environment, recipient,
          getTransferSettlementMode cfg i.settlementMode⟩⟩ := by
  have hbind : ∀ {α β : Type} {x : Except TransferFailure α} {f : α → Except TransferFailure β}
      {c : β}, (x >>= f) = .ok c ↔ ∃ a, x = .ok a ∧ f a = .ok c := by
    intro α β x f c
    cases x with
    | error e => simp [bind, Except.bind]
    | ok a => simp [bind, Except.bind]
  have hrefuse : ∀ {c : Prop} [Decidable c] {e : TransferError} {u : Unit},
      refuseIf c e = .ok u ↔ ¬ c := by
    intro c _ e u
    unfold refuseIf
    split_ifs with hc <;> simp [hc]
  unfold prepare
  simp only [hbind, hrefuse, pure, Except.pure, Except.ok.injEq, not_le, ne_eq, not_not,
    Bool.not_eq_true]
  constructor
  · rintro ⟨minor, hminor, -, hpos, -, hasset, -, henv, recipient, hr, -, hself, rfl⟩
    exact ⟨minor, recipient, hminor, hpos, hasset, henv, hr, hself, rfl⟩
  · rintro ⟨minor, recipient, hminor, hpos, hasset, henv, hr, hself, rfl⟩
    exact ⟨minor, hminor, (), hpos, (), hasset, (), henv, recipient, hr, (), hself, rfl⟩

/-- A recipient that was found is found again. -/
theorem resolveRecipient_again (h : Meets o₀ o b) (hmembers : b.members = b₀.members)
    (horgs : ∀ id, b₀.hasOrg id = true → b.hasOrg id = true)
    (hr : resolveRecipientOrgId o₀ i b₀ = .ok recipient) :
    resolveRecipientOrgId o i b = .ok recipient := by
  have hexisting : ∀ orgId, existingRecipient o₀ b₀ orgId = .ok recipient →
      existingRecipient o b orgId = .ok recipient := by
    intro orgId hold
    unfold existingRecipient orgExists at hold ⊢
    rw [h.uuid]
    cases hid : o₀.uuid.read orgId with
    | none => simp [hid] at hold
    | some id =>
        cases hhas : b₀.hasOrg id with
        | false => simp [hid, hhas] at hold
        | true =>
            simp only [hid, hhas] at hold
            simp only [horgs id hhas]
            exact hold
  unfold resolveRecipientOrgId at hr ⊢
  dsimp only at hr ⊢
  by_cases hfails : o₀.fails .recipient = true
  · rw [if_pos hfails] at hr
    cases hr
  rw [if_neg hfails] at hr
  rw [if_neg (by simp [h.fails])]
  by_cases hexplicit : trim (i.recipientOrgId.getD "") ≠ ""
  · rw [if_pos hexplicit] at hr ⊢
    split_ifs at hr ⊢
    exact hexisting _ hr
  rw [if_neg hexplicit] at hr ⊢
  by_cases htag : bareTag (i.dayfiTag.getD "") = ""
  · rw [if_pos htag] at hr
    cases hr
  rw [if_neg htag] at hr ⊢
  rw [hmembers]
  cases hfind : b₀.members.find? (fun m => m.dayfiTag.map String.toLower =
      some (bareTag (i.dayfiTag.getD "")).toLower) with
  | none =>
      rw [hfind] at hr
      cases hr
  | some member =>
      rw [hfind] at hr
      dsimp only at hr ⊢
      cases horg : orNull member.orgId with
      | none =>
          rw [horg] at hr
          cases hr
      | some orgId =>
          rw [horg] at hr
          exact hexisting _ hr

/-- The identical request is checked again, and asks for the same. -/
theorem prepare_again (h : Meets o₀ o b) (hmembers : b.members = b₀.members)
    (horgs : ∀ id, b₀.hasOrg id = true → b.hasOrg id = true)
    (hmode : getTransferSettlementMode cfg i.settlementMode =
      getTransferSettlementMode cfg₀ i.settlementMode)
    (hp : prepare o₀ cfg₀ i b₀ = .ok p₀) :
    ∃ p, prepare o cfg i b = .ok p ∧ partsOf cfg i p = partsOf cfg₀ i p₀ := by
  obtain ⟨minor, recipient, hminor, hpos, hasset, henv, hr, hself, rfl⟩ := prepare_eq_ok.mp hp
  refine ⟨_, prepare_eq_ok.mpr ⟨minor, recipient, hminor, hpos, hasset, henv,
    resolveRecipient_again h hmembers horgs hr, hself, rfl⟩, ?_⟩
  unfold partsOf
  rw [hmode]
  rfl

theorem prepare_fields (h : prepare o cfg i b = .ok p) :
    p.senderOrgId = i.senderOrgId ∧ p.environment = normalizeEnv i.environment ∧
      p.idem = i.idem := by
  obtain ⟨minor, recipient, -, -, -, -, -, -, rfl⟩ := prepare_eq_ok.mp h
  simp only [and_self]

theorem prepare_fingerprint (h : prepare o cfg i b = .ok p) :
    p.fingerprint = o.fingerprint (partsOf cfg i p) := by
  obtain ⟨minor, recipient, -, -, -, -, -, -, rfl⟩ := prepare_eq_ok.mp h
  rfl

end request

/-! ### The statements of a repetition -/

section statements

variable {o : Outside} {cfg : FeeSettings} {p : Prepared} {b t u : Books} {l : Ledger}
  {k : WalletKey} {x : TransferRow}

/-- A step that moves no money and loses no organisation. -/
structure Calm (o : Outside) (cfg : FeeSettings) (b t : Books) : Prop where
  quiet : Quiet o cfg b t
  orgs : ∀ id, b.hasOrg id = true → t.hasOrg id = true

theorem Calm.refl (o : Outside) (cfg : FeeSettings) (b : Books) : Calm o cfg b b :=
  ⟨.refl .., fun _ h => h⟩

theorem Calm.trans (h : Calm o cfg b t) (h' : Calm o cfg t u) : Calm o cfg b u :=
  ⟨h.quiet.trans h'.quiet, fun id hid => h'.orgs id (h.orgs id hid)⟩

theorem Calm.unmoved (h : Calm o cfg b t) : Unmoved b t :=
  ⟨⟨fun k => by rw [h.quiet.ledger.row], h.quiet.ledger.movements, h.quiet.fees⟩,
    h.quiet.transfers⟩

theorem Calm.presentable (h : Calm o cfg b t) :
    Presentable t.ledger k ↔ Presentable b.ledger k := by
  unfold Presentable
  rw [h.quiet.ledger.row]

theorem ensureWalletAccount_run (h : k.asset.length ≤ 16) :
    (ensureWalletAccount k).run l = .ok (l.row k, l.setRow k (l.row k)) := by
  unfold ensureWalletAccount
  refine bind_ok.mpr ⟨l, l, get_ok.mpr ⟨rfl, rfl⟩, ?_⟩
  cases hk : l.wallets k with
  | some existing =>
      refine pure_ok.mpr ⟨by simp [Ledger.row, hk], ?_⟩
      have hrow : l.row k = existing := by simp [Ledger.row, hk]
      rw [hrow, Ledger.setRow, ← hk, Function.update_eq_self]
  | none =>
      have hrow : l.row k = .fresh := by simp [Ledger.row, hk]
      refine bind_ok.mpr ⟨(), l, throwIf_ok.mpr ⟨not_lt.mpr h, rfl⟩, ?_⟩
      refine bind_ok.mpr ⟨(), _, modify_ok.mpr rfl, ?_⟩
      rw [hrow]
      exact pure_ok.mpr ⟨rfl, rfl⟩

/-- The wallet of an organisation that exists is there afterwards, and reads as before. -/
theorem ensureWallet_run (cfg : FeeSettings) (env : Environment) {orgId id : String}
    (hread : o.uuid.read orgId = some id) (horg : b.hasOrg id = true) :
    ∃ t, (ensureWallet o orgId env).run b = .ok (b.ledger.row (usdcWallet id env), t) ∧
      Calm o cfg b t := by
  have hasset : (usdcWallet id env).asset.length ≤ 16 := by
    change (normalizeAsset (some "USDC")).length ≤ 16
    decide +kernel
  have hrun : (ensureWallet o orgId env).run b = .ok (b.ledger.row (usdcWallet id env),
      { b with
        ledger := b.ledger.setRow (usdcWallet id env) (b.ledger.row (usdcWallet id env)) }) := by
    refine bind_ok.mpr ⟨id, b, readUuid_ok.mpr ⟨hread, rfl⟩, ?_⟩
    refine bind_ok.mpr ⟨b, b, get_ok.mpr ⟨rfl, rfl⟩, ?_⟩
    refine bind_ok.mpr ⟨(), b, throwIf_ok.mpr ⟨by simp [horg], rfl⟩, ?_⟩
    exact onLedger_ok.mpr ⟨_, ensureWalletAccount_run hasset, rfl⟩
  have hquiet : Quiet o cfg b _ := (ensureWallet_ok hrun).choose_spec.2.2
  exact ⟨_, hrun, hquiet, fun _ h => h⟩

/-- A transaction whose result is known. -/
theorem inTx_sat {α : Type} {tx : BooksTx α} {a : α}
    {post : Except TransferFailure α → Books → Prop}
    (hrun : tx.run b = .ok (a, t)) (h : post (.ok a) t) : (Session.inTx tx).Sat b post := by
  refine Session.Sat.inTx (fun a' t' hrun' => ?_) fun e hrun' => ?_
  · rw [hrun] at hrun'
    cases hrun'
    exact h
  · rw [hrun] at hrun'
    cases hrun'

/-- The balance of a wallet is read unless the wallet is closed. -/
theorem getOrgBalance_sat (cfg : FeeSettings) (env : Environment) {step : Step} {orgId id : String}
    (hfails : o.fails step = false) (hread : o.uuid.read orgId = some id)
    (horg : b.hasOrg id = true) :
    (getOrgBalance o step orgId env).Sat b fun r t => Calm o cfg b t ∧
      r = if Presentable b.ledger (usdcWallet id env) then
        .ok (b.ledger.row (usdcWallet id env)).read else .error .walletClosed := by
  obtain ⟨t, hrun, hcalm⟩ := ensureWallet_run cfg env hread horg
  unfold getOrgBalance
  refine Session.Sat.bind (inTx_sat (statement_ok.mpr ⟨hfails, hrun⟩)
    ⟨fun w hw => ?_, fun e he => (by cases he)⟩)
  cases hw
  refine Session.Sat.bind (Session.Sat.failIf (fun hopen => ?_) fun hclosed => ?_)
  · exact ⟨fun _ _ => Session.Sat.pure ⟨hcalm, (if_pos hopen).symm⟩, fun e he => (by cases he)⟩
  · refine ⟨fun _ hu => (by cases hu), fun e he => ?_⟩
    cases he
    exact ⟨hcalm, (if_neg (not_not.mpr hclosed)).symm⟩

/-- A fee organisation is there afterwards. -/
theorem ensureFeeRevenueOrg_sat (hfails : ∀ step, o.fails step = false)
    (hdrawn : o.uuid.read o.feeOrgId = some o.feeOrgId) (hunused : b.hasOrg o.feeOrgId = false)
    (hids : ∀ org ∈ b.orgs, o.uuid.read org.id = some org.id) :
    (ensureFeeRevenueOrg Session.inTx o cfg).Sat b fun r t =>
      (∃ id, r = .ok id) ∧ Calm o cfg b t := by
  unfold ensureFeeRevenueOrg
  dsimp only
  split_ifs with henv
  · exact Session.Sat.pure ⟨⟨_, rfl⟩, .refl ..⟩
  have hlookup : (o.statement .feeOrg (return (← get).orgs.find? (·.slug = feeOrgSlug)) :
      BooksTx (Option Organization)).run b =
        .ok (b.orgs.find? (·.slug = feeOrgSlug), b) :=
    statement_ok.mpr ⟨hfails _, bind_ok.mpr ⟨b, b, get_ok.mpr ⟨rfl, rfl⟩, pure_ok.mpr ⟨rfl, rfl⟩⟩⟩
  have hwallet : ∀ {id : String} {t : Books}, o.uuid.read id = some id → t.hasOrg id = true →
      Calm o cfg b t → Session.Sat (do
        let _ ← Session.inTx (o.statement .feeWallet (ensureWallet o id .test))
        return id : CallM String) t fun r u => (∃ id, r = .ok id) ∧ Calm o cfg b u := by
    intro id t hread horg hcalm
    obtain ⟨u, hrun, hcalm'⟩ := ensureWallet_run cfg .test hread horg
    refine Session.Sat.bind (inTx_sat (statement_ok.mpr ⟨hfails _, hrun⟩)
      ⟨fun _ _ => ?_, fun e he => (by cases he)⟩)
    exact Session.Sat.pure ⟨⟨_, rfl⟩, hcalm.trans hcalm'⟩
  refine Session.Sat.bind (inTx_sat hlookup ⟨fun found hfound => ?_, fun e he => (by cases he)⟩)
  cases hfound
  unfold feeOrgOr
  cases hfind : b.orgs.find? (·.slug = feeOrgSlug) with
  | some org =>
      have hmem := List.mem_of_find?_eq_some hfind
      refine Session.Sat.bind (Session.Sat.pure ⟨fun id hid => ?_, fun e he => (by cases he)⟩)
      cases hid
      refine hwallet (hids org hmem) (List.any_eq_true.mpr ⟨org, hmem, by simp⟩) (.refl ..)
  | none =>
      have hrun : (insertFeeOrg o).run b =
          .ok (o.feeOrgId, { b with orgs := ⟨o.feeOrgId, feeOrgSlug⟩ :: b.orgs }) := by
        refine bind_ok.mpr ⟨b, b, get_ok.mpr ⟨rfl, rfl⟩, ?_⟩
        refine bind_ok.mpr ⟨(), b, throwIf_ok.mpr ⟨by simp [hunused], rfl⟩, ?_⟩
        exact bind_ok.mpr ⟨(), _, set_ok.mpr rfl, pure_ok.mpr ⟨rfl, rfl⟩⟩
      have hquiet : Quiet o cfg b _ := (insertFeeOrg_ok hfind hrun).2
      refine Session.Sat.bind (inTx_sat (statement_ok.mpr ⟨hfails _, hrun⟩)
        ⟨fun id hid => ?_, fun e he => (by cases he)⟩)
      cases hid
      refine hwallet hdrawn (by simp [Books.hasOrg]) ⟨hquiet, fun id hid => ?_⟩
      simp only [Books.hasOrg, List.any_cons, Bool.or_eq_true]
      exact .inr hid

/-- The check of the fee passes exactly when none is charged or it could be paid. -/
theorem checkFeePayable_sat (hfails : ∀ step, o.fails step = false)
    (hdrawn : o.uuid.read o.feeOrgId = some o.feeOrgId) (hunused : b.hasOrg o.feeOrgId = false)
    (hids : ∀ org ∈ b.orgs, o.uuid.read org.id = some org.id) {sender : String}
    (hread : o.uuid.read p.senderOrgId = some sender) (horg : b.hasOrg sender = true) :
    (checkFeePayable o cfg p).Sat b fun r t => Calm o cfg b t ∧
      ((r = .ok () ∧ (p.quote.feeCharged = true →
          Affords b.ledger (usdcWallet sender p.environment) p.quote)) ∨
        ∃ e, r = .error e ∧ e ≠ .transfer .idempotencyConflict ∧ p.quote.feeCharged = true ∧
          ¬ Affords b.ledger (usdcWallet sender p.environment) p.quote) := by
  unfold checkFeePayable
  split_ifs with hcharged
  · exact Session.Sat.pure ⟨.refl .., .inl ⟨rfl, fun h => by simp [hcharged] at h⟩⟩
  have hyes : p.quote.feeCharged = true := by simpa using hcharged
  refine Session.Sat.bind ((ensureFeeRevenueOrg_sat hfails hdrawn hunused hids).mono ?_)
  rintro _ t ⟨⟨id, rfl⟩, hcalm⟩
  refine ⟨fun _ _ => ?_, fun e he => (by cases he)⟩
  refine Session.Sat.bind ((getOrgBalance_sat cfg p.environment (hfails .balance)
    hread (hcalm.orgs _ horg)).mono ?_)
  rintro _ u ⟨hcalm', rfl⟩
  have hall := hcalm.trans hcalm'
  have hrow := hcalm.quiet.ledger.row (usdcWallet sender p.environment)
  by_cases hopen : Presentable b.ledger (usdcWallet sender p.environment)
  · rw [if_pos (hcalm.presentable.mpr hopen), hrow]
    refine ⟨fun a ha => ?_, fun e he => (by cases he)⟩
    cases ha
    refine Session.Sat.reading ⟨hall, ?_⟩
    unfold assertCustomerCanPay
    cases hminor : parseUsdcToMinor
        (.number (some (b.ledger.row (usdcWallet sender p.environment)).read.available)) with
    | error e =>
        refine .inr ⟨e, rfl, ?_, hyes, ?_⟩
        · rintro rfl
          unfold parseUsdcToMinor at hminor
          dsimp only at hminor
          split at hminor <;> cases hminor
        · rintro ⟨-, minor, hok, -⟩
          rw [hminor] at hok
          cases hok
    | ok minor =>
        dsimp only
        split_ifs with hless
        · refine .inr ⟨_, rfl, by simp, hyes, ?_⟩
          rintro ⟨-, minor', hok, hle⟩
          rw [hminor] at hok
          cases hok
          omega
        · exact .inl ⟨rfl, fun _ => ⟨hopen, minor, hminor, by omega⟩⟩
  · rw [if_neg (fun h => hopen (hcalm.presentable.mp h))]
    refine ⟨fun a ha => (by cases ha), fun e he => ?_⟩
    cases he
    exact ⟨hall, .inr ⟨_, rfl, by simp, hyes, fun h => hopen h.1⟩⟩

/-- The transfer with a key is found. -/
theorem loadTransfer_sat (hfails : ∀ step, o.fails step = false) {idem : String}
    (hread : o.uuid.read p.senderOrgId = some x.senderOrgId) (henv : x.environment = p.environment)
    (hkey : x.idempotencyKey = some idem) (hmem : x ∈ b.transfers)
    (hkeys : ∀ r ∈ b.transfers, ∀ s ∈ b.transfers, r.clashes s = true → r = s) :
    (loadTransferByIdempotency o p idem).Sat b fun r t => r = .ok (some x) ∧ t = b := by
  have hfind : b.transfers.find? (fun r => r.senderOrgId = x.senderOrgId ∧
      r.environment = p.environment ∧ r.idempotencyKey = some idem) = some x := by
    cases hf : b.transfers.find? (fun r => r.senderOrgId = x.senderOrgId ∧
        r.environment = p.environment ∧ r.idempotencyKey = some idem) with
    | none =>
        have hnone := List.find?_eq_none.mp hf x hmem
        simp [henv, hkey] at hnone
    | some y =>
        have hy := List.find?_some hf
        simp only [decide_eq_true_eq] at hy
        obtain ⟨hsender, henv', hkey'⟩ := hy
        rw [hkeys y (List.mem_of_find?_eq_some hf) x hmem
          (by simp [TransferRow.clashes, hsender, henv', henv, hkey', hkey])]
  unfold loadTransferByIdempotency
  refine inTx_sat (a := some x) (t := b) (statement_ok.mpr ⟨hfails _, ?_⟩) ⟨rfl, rfl⟩
  refine bind_ok.mpr ⟨x.senderOrgId, b, readUuid_ok.mpr ⟨hread, rfl⟩, ?_⟩
  refine bind_ok.mpr ⟨b, b, get_ok.mpr ⟨rfl, rfl⟩, ?_⟩
  exact pure_ok.mpr ⟨hfind, rfl⟩

/-- A transfer is presented unless one of its wallets is closed. -/
theorem presentTransfer_sat (cfg : FeeSettings) (hfails : ∀ step, o.fails step = false)
    (hsender : o.uuid.read x.senderOrgId = some x.senderOrgId)
    (hrecipient : o.uuid.read x.recipientOrgId = some x.recipientOrgId)
    (horgs : b.hasOrg x.senderOrgId = true ∧ b.hasOrg x.recipientOrgId = true) :
    (presentTransfer o x true).Sat b fun r t => Calm o cfg b t ∧
      ((Presentable b.ledger x.senderWallet ∧ Presentable b.ledger x.recipientWallet ∧
          AnswersWith x r) ∨
        (r = .error .walletClosed ∧
          ¬ (Presentable b.ledger x.senderWallet ∧ Presentable b.ledger x.recipientWallet))) := by
  unfold presentTransfer
  refine Session.Sat.bind ((getOrgBalance_sat cfg x.environment
    (hfails .balanceAfter) hsender horgs.1).mono ?_)
  rintro _ t ⟨hcalm, rfl⟩
  by_cases hs : Presentable b.ledger (usdcWallet x.senderOrgId x.environment)
  swap
  · rw [if_neg hs]
    refine ⟨fun a ha => (by cases ha), fun e he => ?_⟩
    cases he
    exact ⟨hcalm, .inr ⟨rfl, fun h => hs h.1⟩⟩
  rw [if_pos hs]
  refine ⟨fun a _ => ?_, fun e he => (by cases he)⟩
  refine Session.Sat.bind ((getOrgBalance_sat cfg x.environment
    (hfails .balanceAfter) hrecipient (hcalm.orgs _ horgs.2)).mono ?_)
  rintro _ u ⟨hcalm', rfl⟩
  have hall := hcalm.trans hcalm'
  by_cases hr : Presentable b.ledger (usdcWallet x.recipientOrgId x.environment)
  swap
  · rw [if_neg (fun h => hr (hcalm.presentable.mp h))]
    refine ⟨fun a ha => (by cases ha), fun e he => ?_⟩
    cases he
    exact ⟨hall, .inr ⟨rfl, fun h => hr h.2⟩⟩
  rw [if_pos (hcalm.presentable.mpr hr)]
  refine ⟨fun a' _ => ?_, fun e he => (by cases he)⟩
  refine Session.Sat.bind (inTx_sat (statement_ok.mpr ⟨hfails _, bind_ok.mpr
    ⟨u, u, get_ok.mpr ⟨rfl, rfl⟩, pure_ok.mpr ⟨rfl, rfl⟩⟩⟩)
    ⟨fun _ _ => ?_, fun e he => (by cases he)⟩)
  exact Session.Sat.pure ⟨hall, .inl ⟨hs, hr, _, rfl, rfl, rfl⟩⟩

end statements

/-! ### The stored transfer -/

section stored

variable {o : Outside} {cfg : FeeSettings} {p : Prepared} {b b' : Books} {row x : TransferRow}

/-- What a stored transfer keeps of its request. -/
structure StoredFor (o : Outside) (p : Prepared) (x : TransferRow) : Prop where
  sender : o.uuid.read p.senderOrgId = some x.senderOrgId
  recipient : o.uuid.read p.recipientOrgId = some x.recipientOrgId
  environment : x.environment = p.environment
  key : x.idempotencyKey = p.idem
  fingerprint : x.requestFingerprint = some p.fingerprint

theorem insertTransfer_stored (h : (insertTransfer o p).run b = .ok (row, b')) :
    StoredFor o p row := by
  unfold insertTransfer at h
  obtain ⟨sender, s, hs, h⟩ := bind_ok.mp h
  obtain ⟨hsender, rfl⟩ := readUuid_ok.mp hs
  obtain ⟨recipient, s, hs, h⟩ := bind_ok.mp h
  obtain ⟨hrecipient, rfl⟩ := readUuid_ok.mp hs
  obtain ⟨_, s, -, h⟩ := bind_ok.mp h
  obtain ⟨t, s, -, h⟩ := bind_ok.mp h
  obtain ⟨_, s, -, h⟩ := bind_ok.mp h
  obtain ⟨_, s, -, h⟩ := bind_ok.mp h
  obtain ⟨_, s, -, h⟩ := bind_ok.mp h
  obtain ⟨rfl, -⟩ := pure_ok.mp h
  exact ⟨hsender, hrecipient, rfl, rfl, rfl⟩

/-- The transfer of a committed transaction is the row with its id. -/
theorem transferTx_stored (h : (transferTx o cfg p).run b = .ok (row, b')) (hx : x ∈ b'.transfers)
    (hid : x.id = o.transferGroupId) : StoredFor o p x := by
  unfold transferTx at h
  obtain ⟨inserted, s, hs, h⟩ := bind_ok.mp h
  have hstored := insertTransfer_stored (statement_ok.mp hs).2
  obtain ⟨-, -, -, -, hrow, hnew, rfl⟩ := insertTransfer_ok (statement_ok.mp hs).2
  obtain ⟨_, s, hs, h⟩ := bind_ok.mp h
  obtain rfl := insertTransaction_ok (statement_ok.mp hs).2
  obtain ⟨_, s, hs, h⟩ := bind_ok.mp h
  obtain rfl := insertTransaction_ok (statement_ok.mp hs).2
  obtain ⟨posted, s, hs, h⟩ := bind_ok.mp h
  obtain ⟨l, -, rfl⟩ := onLedger_ok.mp (statement_ok.mp hs).2
  obtain ⟨feeId, t, ht, h⟩ := bind_ok.mp h
  obtain ⟨htransfers, -⟩ := recordTransferFee_ok ht
  obtain ⟨done, s', hs', h⟩ := bind_ok.mp h
  have hupdate := (statement_ok.mp hs').2
  unfold updateTransfer at hupdate
  obtain ⟨_, v, hv, hupdate⟩ := bind_ok.mp hupdate
  obtain rfl := modify_ok.mp hv
  obtain ⟨rfl, rfl⟩ := pure_ok.mp hupdate
  obtain ⟨rfl, rfl⟩ := pure_ok.mp (statement_ok.mp h).2
  obtain ⟨r, hr, rfl⟩ := List.mem_map.mp hx
  rw [htransfers] at hr
  by_cases hsame : r.id = inserted.id
  · rw [if_pos hsame]
    exact ⟨hstored.sender, hstored.recipient, hstored.environment, hstored.key,
      hstored.fingerprint⟩
  · rw [if_neg hsame] at hid
    rcases List.mem_cons.mp hr with rfl | hold
    · exact absurd rfl hsame
    · exact absurd hid (hnew r hold)

theorem Completes.storedFor {onchain : Prepared → CallM Presented} {i : TransferInput}
    (h : Completes o cfg onchain i p b b' x) : StoredFor o p x := by
  have hcommits : Commits o b b' := ⟨⟨x, h.stored, h.made⟩, h.new⟩
  have houtcome := createInternalTransfer_outcome (b := b) (o := o) onchain i h.mode
  unfold Session.Sat at houtcome
  rw [h.leaves] at houtcome
  rcases houtcome with hquiet | ⟨p', hp', hquiet | ⟨b₁, b₂, row, -, hrun, hafter, -, -⟩⟩
  · exact absurd hcommits hquiet.not_commits
  · exact absurd hcommits hquiet.not_commits
  · obtain rfl := Except.ok.inj (h.prepared.symm.trans hp')
    refine transferTx_stored hrun ?_ h.made
    rw [← hafter.transfers]
    exact h.stored

end stored

/-! ### The call -/

section call

variable {o o₀ : Outside} {cfg cfg₀ : FeeSettings} {i i₀ : TransferInput} {p p₀ : Prepared}
  {b b₀ b₁ : Books} {x : TransferRow} {r : Except TransferFailure Presented}

/-- How a call on a key that has a transfer ends. -/
inductive Repetition (l : Ledger) (p : Prepared) (x : TransferRow)
    (r : Except TransferFailure Presented) : Prop where
  | unpaid (e : TransferFailure) (hr : r = .error e) (he : e ≠ .transfer .idempotencyConflict)
      (hfee : ¬ (p.quote.feeCharged = true → Affords l x.senderWallet p.quote))
  | conflict (hr : r = .error (.transfer .idempotencyConflict))
      (hfee : p.quote.feeCharged = true → Affords l x.senderWallet p.quote)
      (hother : x.requestFingerprint ≠ some p.fingerprint)
  | closed (hr : r = .error .walletClosed)
      (hsame : x.requestFingerprint = some p.fingerprint)
      (hclosed : ¬ (Presentable l x.senderWallet ∧ Presentable l x.recipientWallet))
  | answered (hr : AnswersWith x r)
      (hfee : p.quote.feeCharged = true → Affords l x.senderWallet p.quote)
      (hsame : x.requestFingerprint = some p.fingerprint)
      (hopen : Presentable l x.senderWallet ∧ Presentable l x.recipientWallet)

/-- A request under the key of the stored transfer `x`. -/
structure Again (o : Outside) (p : Prepared) (x : TransferRow) (b : Books) : Prop where
  stored : x ∈ b.transfers
  sender : o.uuid.read p.senderOrgId = some x.senderOrgId
  recipient : o.uuid.read x.recipientOrgId = some x.recipientOrgId
  environment : x.environment = p.environment
  key : x.idempotencyKey = p.idem
  given : p.idem ≠ none
  text : ∀ f, x.requestFingerprint = some f → f ≠ ""

/-- The stored fingerprint is another than that of the request. -/
theorem Again.conflicts_iff (h : Again o p x b) (hsome : x.requestFingerprint ≠ none) :
    (∃ f, orNull x.requestFingerprint = some f ∧ f ≠ p.fingerprint) ↔
      x.requestFingerprint ≠ some p.fingerprint := by
  obtain ⟨f, hf⟩ := Option.ne_none_iff_exists'.mp hsome
  have hnull : orNull x.requestFingerprint = some f := by
    rw [hf]
    simp [orNull, h.text f hf]
  rw [hnull, hf]
  simp

theorem transferOnLedger_repeats (h : Again o p x b) (hsome : x.requestFingerprint ≠ none)
    (hmeets : Meets o₀ o b) (hlater : Later o b₀ b₁ b) :
    (transferOnLedger o cfg p).Sat b fun r t => Calm o cfg b t ∧ Repetition b.ledger p x r := by
  have hwallet : usdcWallet x.senderOrgId p.environment = x.senderWallet := by
    rw [← h.environment]
    rfl
  obtain ⟨idem, hidem⟩ := Option.ne_none_iff_exists'.mp h.given
  obtain ⟨horg, horg'⟩ := hlater.parties x h.stored
  unfold transferOnLedger
  refine Session.Sat.bind ((checkFeePayable_sat hmeets.fails hmeets.drawn hmeets.unused hlater.ids
    h.sender horg).mono ?_)
  rintro _ t ⟨hcalm, ⟨rfl, hfee⟩ | ⟨e, rfl, he, hcharged, hunpaid⟩⟩
  swap
  · refine ⟨fun _ hu => (by cases hu), fun e' he' => ?_⟩
    cases he'
    rw [hwallet] at hunpaid
    exact ⟨hcalm, .unpaid e rfl he fun hfee => hunpaid (hfee hcharged)⟩
  rw [hwallet] at hfee
  refine ⟨fun _ _ => ?_, fun e he => (by cases he)⟩
  refine Session.Sat.bind (Session.Sat.failIf (fun _ => ⟨fun _ _ => ?_, fun e he => (by cases he)⟩)
    fun hnone => absurd hnone.2 h.given)
  unfold replayedOr
  rw [hidem]
  have hmem : x ∈ t.transfers := by
    rw [hcalm.quiet.transfers]
    exact h.stored
  have hkeys := hlater.keys
  rw [← hcalm.quiet.transfers] at hkeys
  refine Session.Sat.bind ((loadTransfer_sat hmeets.fails h.sender h.environment
    (h.key.trans hidem) hmem hkeys).mono ?_)
  rintro _ u ⟨rfl, rfl⟩
  refine ⟨fun found hfound => ?_, fun e he => (by cases he)⟩
  cases hfound
  dsimp only
  unfold replayed
  refine Session.Sat.bind (Session.Sat.failIf (fun hsame => ?_) fun hother => ?_)
  · rw [h.conflicts_iff hsome, ne_eq, not_not] at hsame
    refine ⟨fun _ _ => ?_, fun e he => (by cases he)⟩
    refine (presentTransfer_sat cfg hmeets.fails (o.uuid.canonical _ _ h.sender)
      h.recipient ⟨hcalm.orgs _ horg, hcalm.orgs _ horg'⟩).mono ?_
    rintro r v ⟨hcalm', ⟨hs, hr, hanswer⟩ | ⟨rfl, hclosed⟩⟩
    · exact ⟨hcalm.trans hcalm', .answered hanswer hfee hsame
        ⟨hcalm.presentable.mp hs, hcalm.presentable.mp hr⟩⟩
    · refine ⟨hcalm.trans hcalm', .closed rfl hsame fun hopen => hclosed ?_⟩
      exact ⟨hcalm.presentable.mpr hopen.1, hcalm.presentable.mpr hopen.2⟩
  · rw [h.conflicts_iff hsome] at hother
    refine ⟨fun _ hu => (by cases hu), fun e he => ?_⟩
    cases he
    exact ⟨hcalm, .conflict rfl hfee hother⟩

/-- A request for a payment on chain does not repeat a transfer on the ledger. -/
theorem onchainMode_conflicts (h : Again o p x b) (hsome : x.requestFingerprint ≠ none)
    (hmeets : Meets o₀ o b) (hlater : Later o b₀ b₁ b)
    (hother : x.requestFingerprint ≠ some p.fingerprint)
    (execute : Prepared → Option TransferRow → CallM Presented) :
    (onchainMode o execute p).Sat b fun r t => t = b ∧
      r = .error (.transfer .idempotencyConflict) := by
  obtain ⟨idem, hidem⟩ := Option.ne_none_iff_exists'.mp h.given
  unfold onchainMode
  refine Session.Sat.bind (Session.Sat.failIf (fun _ => ⟨fun _ _ => ?_, fun e he => (by cases he)⟩)
    fun hnone => absurd hnone.2 h.given)
  rw [hidem]
  refine Session.Sat.bind ((loadTransfer_sat hmeets.fails h.sender h.environment
    (h.key.trans hidem) h.stored hlater.keys).mono ?_)
  rintro _ u ⟨rfl, rfl⟩
  refine ⟨fun found hfound => ?_, fun e he => (by cases he)⟩
  cases hfound
  refine Session.Sat.bind (Session.Sat.failIf (fun hsame => ?_) fun _ => ?_)
  · exact absurd ((h.conflicts_iff hsome).mpr hother) hsame
  · refine ⟨fun _ hu => (by cases hu), fun e he => ?_⟩
    cases he
    exact ⟨rfl, rfl⟩

end call

/-! ### Repetitions -/

section main

variable {o o₀ : Outside} {cfg cfg₀ : FeeSettings} {i i₀ : TransferInput} {p p₀ : Prepared}
  {b b₀ b₁ : Books} {x : TransferRow} {onchain : Prepared → CallM Presented}

/-- A checked request under the key of a completed transfer repeats it. -/
theorem Completes.again (h : Completes o₀ cfg₀ onchain i₀ p₀ b₀ b₁ x) (hlater : Later o b₀ b₁ b)
    (hmeets : Meets o₀ o b) (hkey : SameKey i₀ i)
    (htext : o.fingerprint (partsOf cfg₀ i₀ p₀) ≠ "") (hp : prepare o cfg i b = .ok p) :
    Again o p x b := by
  have hstored := h.storedFor
  have hprepared := prepare_fingerprint h.prepared
  obtain ⟨hsender, henv, hidem⟩ := prepare_fields hp
  obtain ⟨hsender₀, henv₀, hidem₀⟩ := prepare_fields h.prepared
  refine ⟨hlater.transfers x h.stored, ?_, ?_, ?_, ?_, ?_, fun f hf => ?_⟩
  · rw [hmeets.uuid, hsender, hkey.sender, ← hsender₀]
    exact hstored.sender
  · rw [hmeets.uuid]
    exact o₀.uuid.canonical _ _ hstored.recipient
  · rw [hstored.environment, henv₀, henv, hkey.environment]
  · rw [hstored.key, hidem₀, hidem, hkey.key]
  · rw [hidem, hkey.key]
    exact hkey.given
  · rw [hstored.fingerprint, hprepared, ← hmeets.fingerprint] at hf
    rw [← Option.some.inj hf]
    exact htext

/-- **A transfer requested again.** A call under the key of a completed transfer answers with it,
or refuses another request with a conflict, exactly when a fee it is to charge could be paid once
more and the wallets it answers with are not closed. -/
theorem repeats_iff (hfirst : Completes o₀ cfg₀ onchain i₀ p₀ b₀ b₁ x)
    (hlater : Later o b₀ b₁ b) (hmeets : Meets o₀ o b) (hkey : SameKey i₀ i)
    (htext : o.fingerprint (partsOf cfg₀ i₀ p₀) ≠ "")
    (hhash : ∀ p, prepare o cfg i b = .ok p →
      o.fingerprint (partsOf cfg i p) = o.fingerprint (partsOf cfg₀ i₀ p₀) →
        partsOf cfg i p = partsOf cfg₀ i₀ p₀)
    (execute : Prepared → Option TransferRow → CallM Presented) :
    Repeats o cfg i₀ i (partsOf cfg₀ i₀ p₀) x b₀ b
        ((createInternalTransfer o cfg (onchainMode o execute) i).exec b).1
        ((createInternalTransfer o cfg (onchainMode o execute) i).exec b).2 ↔
      ∀ p, prepare o cfg i b = .ok p →
        LetsThrough b.ledger x p.quote (partsOf cfg i p = partsOf cfg₀ i₀ p₀) := by
  have hagain : i = i₀ → b.members = b₀.members →
      getTransferSettlementMode cfg i.settlementMode = .internalLedger →
      ∃ p, prepare o cfg i b = .ok p ∧ partsOf cfg i p = partsOf cfg₀ i₀ p₀ := by
    rintro rfl hmembers hmode
    exact prepare_again hmeets hmembers hlater.orgs (hmode.trans hfirst.mode.symm) hfirst.prepared
  have hstored := hfirst.storedFor.fingerprint
  rw [prepare_fingerprint hfirst.prepared, ← hmeets.fingerprint] at hstored
  have hsome : x.requestFingerprint ≠ none := by
    rw [hstored]
    simp
  have hsame : ∀ p, prepare o cfg i b = .ok p → (x.requestFingerprint = some p.fingerprint ↔
      partsOf cfg i p = partsOf cfg₀ i₀ p₀) := by
    intro p hp
    rw [hstored, prepare_fingerprint hp, Option.some.injEq]
    constructor
    · exact fun heq => hhash p hp heq.symm
    · exact fun heq => by rw [heq]
  suffices hend : (createInternalTransfer o cfg (onchainMode o execute) i).Sat b fun r t =>
      (Repeats o cfg i₀ i (partsOf cfg₀ i₀ p₀) x b₀ b r t ↔ ∀ p, prepare o cfg i b = .ok p →
        LetsThrough b.ledger x p.quote (partsOf cfg i p = partsOf cfg₀ i₀ p₀)) from hend
  unfold createInternalTransfer
  refine Session.Sat.bind (Session.Sat.reading ⟨fun p hp => ?_, fun e he => ?_⟩)
  swap
  · -- a request that is refused by the checks
    constructor
    · intro _ p hp
      rw [he] at hp
      cases hp
    · intro _
      refine ⟨fun heq hmembers hmode => ?_, fun e' he' => ?_, fun p hp => ?_, fun p hp => ?_,
        (Calm.refl o cfg b).unmoved⟩
      · obtain ⟨p, hp, -⟩ := hagain heq hmembers hmode
        rw [he] at hp
        cases hp
      · rw [he] at he'
        rw [Except.error.inj he']
      · rw [he] at hp
        cases hp
      · rw [he] at hp
        cases hp
  have hrequest := hfirst.again hlater hmeets hkey htext hp
  have honly : ∀ {q : Prepared → Prop}, (∀ p', prepare o cfg i b = .ok p' → q p') ↔ q p := by
    intro q
    constructor
    · exact fun h => h p hp
    · intro h p' hp'
      obtain rfl := Except.ok.inj (hp.symm.trans hp')
      exact h
  have hrefused : ∀ {r : Except TransferFailure Presented} (e : TransferFailure),
      prepare o cfg i b = .error e → r = .error e := by
    intro r e he
    rw [hp] at he
    cases he
  rw [honly]
  cases hmode : getTransferSettlementMode cfg i.settlementMode with
  | stellarOnchain =>
      -- another mode is another request, and is charged no fee
      have hne : partsOf cfg i p ≠ partsOf cfg₀ i₀ p₀ := by
        intro heq
        have hmodes := congrArg FingerprintParts.settlementMode heq
        change getTransferSettlementMode cfg i.settlementMode =
          getTransferSettlementMode cfg₀ i₀.settlementMode at hmodes
        rw [hmode, hfirst.mode] at hmodes
        cases hmodes
      have hfree : p.quote.feeCharged = false := by
        obtain ⟨minor, recipient, -, -, -, -, -, -, rfl⟩ := prepare_eq_ok.mp hp
        simp [TransferInput.quote, hmode, quoteDayfiTransactionFee, FeeQuote.feeCharged]
      refine (onchainMode_conflicts hrequest hsome hmeets hlater (fun h => hne ((hsame p hp).mp h))
        execute).mono ?_
      rintro r t ⟨rfl, rfl⟩
      constructor
      · exact fun _ => ⟨fun h => by simp [hfree] at h, fun h => absurd h hne⟩
      · intro _
        refine ⟨fun heq hmembers hmode' => ?_, hrefused, fun p' hp' heq => ?_, fun _ _ _ => rfl,
          (Calm.refl o cfg t).unmoved⟩
        · rw [hmode] at hmode'
          cases hmode'
        · obtain rfl := Except.ok.inj (hp.symm.trans hp')
          exact absurd heq hne
  | internalLedger =>
      refine (transferOnLedger_repeats hrequest hsome hmeets hlater).mono ?_
      rintro r t ⟨hcalm, hend⟩
      have hiff : Repeats o cfg i₀ i (partsOf cfg₀ i₀ p₀) x b₀ b r t ↔
          (x.requestFingerprint = some p.fingerprint → AnswersWith x r) ∧
            (x.requestFingerprint ≠ some p.fingerprint →
              r = .error (.transfer .idempotencyConflict)) := by
        rw [ne_eq, hsame p hp]
        constructor
        · exact fun h => ⟨h.same p hp, h.other p hp⟩
        · rintro ⟨hs, ho⟩
          refine ⟨fun heq hmembers hmode' => ?_, hrefused, ?_, ?_, hcalm.unmoved⟩
          · obtain ⟨p', hp', hparts⟩ := hagain heq hmembers hmode'
            obtain rfl := Except.ok.inj (hp.symm.trans hp')
            exact hs hparts
          · exact honly.mpr hs
          · exact honly.mpr ho
      rw [hiff]
      cases hend with
      | unpaid e hr he hfee =>
          constructor
          · rintro ⟨hs, ho⟩
            by_cases hprint : x.requestFingerprint = some p.fingerprint
            · obtain ⟨a, ha, -⟩ := hs hprint
              rw [hr] at ha
              cases ha
            · exact absurd (Except.error.inj (hr.symm.trans (ho hprint))) he
          · exact fun h => absurd h.fee hfee
      | conflict hr hfee hother =>
          constructor
          · exact fun _ => ⟨hfee, fun heq => absurd ((hsame p hp).mpr heq) hother⟩
          · exact fun _ => ⟨fun heq => absurd heq hother, fun _ => hr⟩
      | closed hr hprint hclosed =>
          constructor
          · rintro ⟨hs, -⟩
            obtain ⟨a, ha, -⟩ := hs hprint
            rw [hr] at ha
            cases ha
          · exact fun h => absurd (h.wallets ((hsame p hp).mp hprint)) hclosed
      | answered hr hfee hprint hopen =>
          constructor
          · exact fun _ => ⟨hfee, fun _ => hopen⟩
          · exact fun _ => ⟨fun _ => hr, fun hne => absurd hprint hne⟩

end main

/-! ### Ten dollars, requested twice -/

/-- The first request of the ten dollars. -/
def firstCall : Outside :=
  { smooth with fingerprint := fun parts => toString parts.amount ++ parts.recipientOrgId }

/-- The same request sent again. -/
def secondCall : Outside :=
  { firstCall with
    transferGroupId := "transfer 2"
    senderTransactionId := "out 2"
    recipientTransactionId := "in 2"
    feeId := "fee 2"
    feeOrgId := "44444444-4444-4444-8444-444444444444" }

/-- What the first call answers, and the tables it leaves. -/
def firstTen : Except TransferFailure Presented × Books :=
  (createInternalTransfer firstCall (feeFor none) (fun _ => throw .fault) tenDollars).exec twoOrgs

/-- The tables with so much in a wallet. -/
def Books.holding (b : Books) (k : WalletKey) (available : ℤ) : Books :=
  { b with ledger := b.ledger.setRow k ⟨.active, ⟨available, 0, 0⟩⟩ }

section holding

variable (b : Books) (k k' : WalletKey) (available : ℤ)

@[simp] theorem Books.holding_orgs : (b.holding k available).orgs = b.orgs := rfl

@[simp] theorem Books.holding_members : (b.holding k available).members = b.members := rfl

@[simp] theorem Books.holding_transfers : (b.holding k available).transfers = b.transfers := rfl

@[simp] theorem Books.holding_hasOrg (id : String) :
    (b.holding k available).hasOrg id = b.hasOrg id := rfl

theorem Books.holding_row : (b.holding k available).ledger.row k' =
    if k' = k then ⟨.active, ⟨available, 0, 0⟩⟩ else b.ledger.row k' :=
  Ledger.row_setRow_eq_ite

end holding

/-- The tables left by the first call, when the sender holds so much. -/
def afterTenWith (available : ℤ) : Books := firstTen.2.holding (usdcWallet ada .test) available

/-- The checked request. -/
def tenRequest : Prepared where
  senderOrgId := ada
  recipientOrgId := bola
  environment := .test
  quote := ⟨10 ^ 8, 10 ^ 5, 10 ^ 5⟩
  idem := some "k1"
  fingerprint := "100000000" ++ bola

/-- The transfer made of it. -/
def tenTransfer : TransferRow where
  id := "transfer"
  senderOrgId := ada
  recipientOrgId := bola
  environment := .test
  amount := 10 ^ 8
  senderTransactionId := some "out"
  recipientTransactionId := some "in"
  senderMovementId := some 0
  recipientMovementId := some 1
  idempotencyKey := some "k1"
  requestFingerprint := some ("100000000" ++ bola)
  settlementMode := .internalLedger
  feeId := some "fee"
  fee := some ⟨10 ^ 8, 10 ^ 5, 10 ^ 5⟩

theorem firstTen_eq :
    firstTen.2.orgs = [⟨smooth.feeOrgId, feeOrgSlug⟩, ⟨ada, "ada"⟩, ⟨bola, "bola"⟩] ∧
      firstTen.2.members = twoOrgs.members ∧ firstTen.2.transfers = [tenTransfer] ∧
      (firstTen.2.ledger.row (usdcWallet bola .test)).status = .active := by decide +kernel

theorem firstTen_orgs : firstTen.2.orgs =
    [⟨smooth.feeOrgId, feeOrgSlug⟩, ⟨ada, "ada"⟩, ⟨bola, "bola"⟩] := firstTen_eq.1

theorem firstTen_members : firstTen.2.members = twoOrgs.members := firstTen_eq.2.1

theorem firstTen_transfers : firstTen.2.transfers = [tenTransfer] := firstTen_eq.2.2.1

theorem ten_completes : Completes firstCall (feeFor none) (fun _ => throw .fault) tenDollars
    tenRequest twoOrgs firstTen.2 tenTransfer where
  mode := by decide +kernel
  prepared := by decide +kernel
  leaves := congrArg Prod.snd (Eq.refl firstTen)
  stored := by simp [firstTen_transfers]
  made := rfl
  new := by simp [twoOrgs]

theorem firstTen_hasOrg (id : String) :
    firstTen.2.hasOrg id = (smooth.feeOrgId = id || ada = id || bola = id) := by
  unfold Books.hasOrg
  rw [firstTen_orgs]
  simp [Bool.or_assoc]

theorem afterTen_later (available : ℤ) :
    Later secondCall twoOrgs firstTen.2 (afterTenWith available) where
  transfers r h := by
    unfold afterTenWith
    rwa [Books.holding_transfers]
  orgs id h := by
    unfold afterTenWith
    rw [Books.holding_hasOrg, firstTen_hasOrg]
    simp only [Books.hasOrg, twoOrgs, List.any_cons, List.any_nil, Bool.or_false] at h
    rw [Bool.or_assoc, h, Bool.or_true]
  keys r hr s hs _ := by
    unfold afterTenWith at hr hs
    rw [Books.holding_transfers, firstTen_transfers, List.mem_singleton] at hr hs
    rw [hr, hs]
  parties r hr := by
    unfold afterTenWith at hr ⊢
    rw [Books.holding_transfers, firstTen_transfers, List.mem_singleton] at hr
    simp [hr, firstTen_hasOrg, tenTransfer]
  ids _ _ := rfl

theorem second_meets (available : ℤ) : Meets firstCall secondCall (afterTenWith available) where
  uuid := rfl
  fingerprint := rfl
  fails _ := rfl
  drawn := rfl
  unused := by
    unfold afterTenWith
    rw [Books.holding_hasOrg, firstTen_hasOrg]
    decide

theorem ten_same_key : SameKey tenDollars tenDollars := ⟨rfl, rfl, rfl, by decide +kernel⟩

theorem afterTenWith_members (available : ℤ) :
    (afterTenWith available).members = twoOrgs.members := by
  unfold afterTenWith
  rw [Books.holding_members, firstTen_members]

/-- The request is checked the second time as it was the first. -/
theorem ten_again (available : ℤ) :
    prepare secondCall (feeFor none) tenDollars (afterTenWith available) = .ok tenRequest := by
  obtain ⟨minor, recipient, hminor, hpos, hasset, henv, hr, hself, hrequest⟩ :=
    prepare_eq_ok.mp ten_completes.prepared
  exact prepare_eq_ok.mpr ⟨minor, recipient, hminor, hpos, hasset, henv,
    resolveRecipient_again (second_meets available) (afterTenWith_members available)
      (afterTen_later available).orgs hr, hself, hrequest⟩

/-- What the request sent again answers, and the tables it leaves. -/
def tenAgain (i : TransferInput) (b : Books) : Except TransferFailure Presented × Books :=
  (createInternalTransfer secondCall (feeFor none)
    (onchainMode secondCall fun _ _ => throw .fault) i).exec b

/-- A sender who still has fifty dollars is answered with the transfer. -/
theorem ten_repeats :
    Repeats secondCall (feeFor none) tenDollars tenDollars
      (partsOf (feeFor none) tenDollars tenRequest) tenTransfer twoOrgs
      (afterTenWith (5 * 10 ^ 8)) (tenAgain tenDollars (afterTenWith (5 * 10 ^ 8))).1
      (tenAgain tenDollars (afterTenWith (5 * 10 ^ 8))).2 := by
  refine (repeats_iff ten_completes (afterTen_later _) (second_meets _) ten_same_key
    (by decide +kernel) (fun p hp _ => ?_) _).mpr fun p hp => ?_
  · obtain rfl := Except.ok.inj ((ten_again _).symm.trans hp)
    rfl
  · obtain rfl := Except.ok.inj ((ten_again _).symm.trans hp)
    have hsender : (afterTenWith (5 * 10 ^ 8)).ledger.row (usdcWallet ada .test) =
        ⟨.active, ⟨5 * 10 ^ 8, 0, 0⟩⟩ := by
      unfold afterTenWith
      rw [Books.holding_row, if_pos rfl]
    have hopen : Presentable (afterTenWith (5 * 10 ^ 8)).ledger (usdcWallet ada .test) := by
      unfold Presentable
      rw [hsender]
      decide
    have hother : Presentable (afterTenWith (5 * 10 ^ 8)).ledger (usdcWallet bola .test) := by
      unfold Presentable afterTenWith
      rw [Books.holding_row, if_neg (by decide +kernel), firstTen_eq.2.2.2]
      decide
    refine ⟨fun _ => ⟨hopen, 5 * 10 ^ 8, ?_, by decide⟩, fun _ => ⟨hopen, hother⟩⟩
    change parseUsdcToMinor (.number (some ((afterTenWith (5 * 10 ^ 8)).ledger.row
      (usdcWallet ada .test)).read.available)) = _
    rw [hsender]
    decide +kernel

/-- A sender who has five dollars left is refused for want of money, though nothing is to be
paid. -/
theorem ten_refused :
    Completes firstCall (feeFor none) (fun _ => throw .fault) tenDollars tenRequest twoOrgs
        firstTen.2 tenTransfer ∧
      Later secondCall twoOrgs firstTen.2 (afterTenWith (5 * 10 ^ 7)) ∧
      Meets firstCall secondCall (afterTenWith (5 * 10 ^ 7)) ∧
      SameKey tenDollars tenDollars ∧
      (tenAgain tenDollars (afterTenWith (5 * 10 ^ 7))).1 =
        .error (.ledger (.error (.insufficientBalance 5 (1001 / 100)))) ∧
      ¬ Repeats secondCall (feeFor none) tenDollars tenDollars
        (partsOf (feeFor none) tenDollars tenRequest) tenTransfer twoOrgs
        (afterTenWith (5 * 10 ^ 7)) (tenAgain tenDollars (afterTenWith (5 * 10 ^ 7))).1
        (tenAgain tenDollars (afterTenWith (5 * 10 ^ 7))).2 := by
  refine ⟨ten_completes, afterTen_later _, second_meets _, ten_same_key, ?_⟩
  have hanswer : (tenAgain tenDollars (afterTenWith (5 * 10 ^ 7))).1 =
      .error (.ledger (.error (.insufficientBalance 5 (1001 / 100)))) := by decide +kernel
  refine ⟨hanswer, fun h => ?_⟩
  obtain ⟨a, ha, -⟩ := h.identical rfl (afterTenWith_members _) ten_completes.mode
  rw [hanswer] at ha
  cases ha

end DayfiBackend.Infra.InternalTransfer
