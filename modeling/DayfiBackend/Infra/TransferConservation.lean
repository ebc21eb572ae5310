import DayfiBackend.Infra.TransferPostings

/-!
# A transfer with a fee conserves money

A call either moves no money or runs the transaction of `TransferPostings` between statements that
move none (`Outcome`). So it conserves money when that transaction does, and when no statement
after the commit makes a committed call fail (`conserves_iff`).
-/

namespace DayfiBackend.Infra.InternalTransfer

open DayfiBackend.Found.Binary64 DayfiBackend.Found.Keys DayfiBackend.Found.Tx

/-! ### The statements before and after the transaction -/

section sessions

variable {o : Outside} {cfg : FeeSettings} {p : Prepared} {b b₁ : Books}

instance : IsPreorder Books (Quiet o cfg) where
  refl := Quiet.refl o cfg
  trans _ _ _ := Quiet.trans

/-- A session that moves no money, whatever it answers. -/
abbrev StaysQuiet {α : Type} (o : Outside) (cfg : FeeSettings) (x : CallM α) : Prop :=
  x.Keeps (Quiet o cfg)

/-- A wallet that can be presented. -/
def OpenWallet (o : Outside) (b : Books) (orgId : String) (env : Environment) : Prop :=
  ∃ id w, o.uuid.read orgId = some id ∧ b.ledger.wallets (usdcWallet id env) = some w ∧
    w.status ≠ .closed

/-- An open wallet is found, and nothing is written. -/
theorem ensureWallet_open {orgId : String} {env : Environment} (h : OpenWallet o b orgId env) :
    ∃ w, (ensureWallet o orgId env).run b = .ok (w, b) ∧ w.status ≠ .closed := by
  obtain ⟨id, w, hid, hw, hopen⟩ := h
  have hensure : (ensureWalletAccount (usdcWallet id env)).run b.ledger = .ok (w, b.ledger) := by
    unfold ensureWalletAccount
    refine bind_ok.mpr ⟨b.ledger, b.ledger, get_ok.mpr ⟨rfl, rfl⟩, ?_⟩
    rw [hw]
    exact pure_ok.mpr ⟨rfl, rfl⟩
  refine ⟨w, bind_ok.mpr ⟨id, b, readUuid_ok.mpr ⟨hid, rfl⟩, ?_⟩, hopen⟩
  refine bind_ok.mpr ⟨b, b, get_ok.mpr ⟨rfl, rfl⟩, ?_⟩
  refine bind_ok.mpr ⟨(), b, throwIf_ok.mpr ⟨by simp [hw], rfl⟩, ?_⟩
  exact onLedger_ok.mpr ⟨b.ledger, hensure, rfl⟩

/-- Ensuring a wallet outside a transfer meets no unique index. -/
theorem ensureWallet_error {orgId : String} {env : Environment} {e : TransferFailure}
    (h : (ensureWallet o orgId env).run b = .error e) : e.isUniqueViolation = false := by
  rcases bind_error.mp h with h | ⟨id, s, -, h⟩
  · unfold readUuid at h
    cases hid : o.uuid.read orgId with
    | none =>
        rw [hid] at h
        cases h
        rfl
    | some id =>
        rw [hid] at h
        cases h
  rcases bind_error.mp h with h | ⟨t, s, -, h⟩
  · cases h
  rcases bind_error.mp h with h | ⟨_, s, -, h⟩
  · obtain ⟨-, rfl⟩ := throwIf_error.mp h
    rfl
  change onLedger _ s = _ at h
  unfold onLedger at h
  cases hrun : (ensureWalletAccount (usdcWallet id env)).run s.ledger with
  | ok r =>
      rw [hrun] at h
      cases h
  | error e' =>
      rw [hrun] at h
      cases h
      rcases bind_error.mp hrun with hrun | ⟨t, l, -, hrun⟩
      · cases hrun
      · cases hk : t.wallets (usdcWallet id env) with
        | some w =>
            rw [hk] at hrun
            cases hrun
        | none =>
            rw [hk] at hrun
            rcases bind_error.mp hrun with hrun | ⟨_, l', -, hrun⟩
            · obtain ⟨-, rfl⟩ := throwIf_error.mp hrun
              rfl
            · cases hrun

theorem statement_error {α : Type} {step : Step} {tx : BooksTx α} {e : TransferFailure}
    (h : (o.statement step tx).run b = .error e) : e = .fault ∨ tx.run b = .error e := by
  rcases bind_error.mp h with h | ⟨_, s, hs, h⟩
  · obtain ⟨-, rfl⟩ := throwIf_error.mp h
    exact .inl rfl
  · obtain ⟨-, rfl⟩ := throwIf_ok.mp hs
    exact .inr h

/-- A session after the commit stops when `F`, and else answers if `R`; either way it moves no
money. -/
structure Answers {α : Type} (o : Outside) (cfg : FeeSettings) (b : Books) (F R : Prop)
    (r : Except TransferFailure α) (t : Books) : Prop where
  quiet : Quiet o cfg b t
  notUnique : ∀ e, r = .error e → e.isUniqueViolation = false
  stops : F → ∃ e, r = .error e
  goesOn : ¬ F → R → (∃ x, r = .ok x) ∧ t = b

theorem getOrgBalance_answers (step : Step) (orgId : String) (env : Environment) :
    (getOrgBalance o step orgId env).Sat b
      (Answers o cfg b (o.fails step = true) (OpenWallet o b orgId env)) := by
  unfold getOrgBalance
  refine Session.Sat.bind (Session.Sat.inTx (fun w t hrun => ?_) fun e hrun => ?_)
  · obtain ⟨hstep, hrun⟩ := statement_ok.mp hrun
    have hquiet : Quiet o cfg b t := by
      obtain ⟨-, -, -, hquiet⟩ := ensureWallet_ok hrun
      exact hquiet
    refine ⟨fun w' hw' => ?_, fun e he => (by cases he)⟩
    cases hw'
    refine Session.Sat.bind (Session.Sat.failIf (fun hopen => ?_) fun hclosed => ?_)
    · refine ⟨fun _ _ => Session.Sat.pure ?_, fun e he => (by cases he)⟩
      refine ⟨hquiet, fun e he => (by cases he), fun hf => by simp [hstep] at hf,
        fun _ hready => ?_⟩
      obtain ⟨w', hrun', -⟩ := ensureWallet_open hready
      rw [hrun] at hrun'
      cases hrun'
      exact ⟨⟨_, rfl⟩, rfl⟩
    · refine ⟨fun _ hu => (by cases hu), fun e he => ?_⟩
      cases he
      refine ⟨hquiet, fun e he => ?_, fun _ => ⟨_, rfl⟩, fun _ hready => ?_⟩
      · cases he
        rfl
      · obtain ⟨w', hrun', hopen⟩ := ensureWallet_open hready
        rw [hrun] at hrun'
        cases hrun'
        exact absurd hclosed hopen
  · refine ⟨fun a ha => (by cases ha), fun e' he' => ?_⟩
    cases he'
    refine ⟨.refl .., fun e' he' => ?_, fun _ => ⟨_, rfl⟩, fun hok hready => ?_⟩
    · cases he'
      rcases statement_error hrun with rfl | hrun
      · rfl
      · exact ensureWallet_error hrun
    · obtain ⟨w', hrun', -⟩ := ensureWallet_open hready
      have hok' := statement_ok.mpr ⟨by simpa using hok, hrun'⟩
      rw [hrun] at hok'
      cases hok'

section answers

variable {α β : Type} {x : CallM α} {f : α → CallM β} {F F' R : Prop}

theorem Answers.bind (hx : x.Sat b (Answers o cfg b F R))
    {R' : Books → Prop} (hf : ∀ a t, (f a).Sat t (Answers o cfg t F' (R' t))) :
    (x >>= f).Sat b (Answers o cfg b (F ∨ F') (R ∧ R' b)) := by
  refine Session.Sat.bind (hx.mono fun r t h => ⟨?_, ?_⟩)
  · rintro a rfl
    refine (hf a t).mono fun r' u h' => ⟨h.quiet.trans h'.quiet, h'.notUnique, ?_, ?_⟩
    · rintro (hF | hF')
      · obtain ⟨e, he⟩ := h.stops hF
        cases he
      · exact h'.stops hF'
    · intro hok hready
      obtain ⟨-, rfl⟩ := h.goesOn (fun hF => hok (.inl hF)) hready.1
      exact h'.goesOn (fun hF' => hok (.inr hF')) hready.2
  · rintro e rfl
    refine ⟨h.quiet, fun e' he' => ?_, fun _ => ⟨_, rfl⟩, fun hok hready => ?_⟩
    · cases he'
      exact h.notUnique e rfl
    · obtain ⟨⟨a, ha⟩, -⟩ := h.goesOn (fun hF => hok (.inl hF)) hready.1
      cases ha

theorem Answers.pure (a : α) : Session.Sat (Pure.pure a : CallM α) b (Answers o cfg b False True) :=
  Session.Sat.pure ⟨.refl .., fun e he => (by cases he), False.elim, fun _ _ => ⟨⟨a, rfl⟩, rfl⟩⟩

theorem Answers.mono {R' : Prop} {r : Except TransferFailure α} {t : Books}
    (h : Answers o cfg b F R r t) (hF : F' ↔ F) (hR : R' → R) : Answers o cfg b F' R' r t :=
  ⟨h.quiet, h.notUnique, fun hF' => h.stops (hF.mp hF'),
    fun hF' hR' => h.goesOn (fun hF'' => hF' (hF.mpr hF'')) (hR hR')⟩

end answers

theorem storedFee_answers (id : String) :
    (Session.inTx (o.statement .storedFee
      (return (← get).fees.find? (·.transferGroupId = id)) : BooksTx (Option FeeRow))).Sat b
      (Answers o cfg b (o.fails .storedFee = true) True) := by
  refine Session.Sat.inTx (fun found t hrun => ?_) fun e hrun => ?_
  · obtain ⟨hstep, hrun⟩ := statement_ok.mp hrun
    obtain ⟨_, s, hs, hrun⟩ := bind_ok.mp hrun
    obtain ⟨rfl, rfl⟩ := get_ok.mp hs
    obtain ⟨rfl, rfl⟩ := pure_ok.mp hrun
    exact ⟨.refl .., fun e he => (by cases he), fun hf => by simp [hstep] at hf,
      fun _ _ => ⟨⟨_, rfl⟩, rfl⟩⟩
  · rcases bind_error.mp hrun with hrun | ⟨_, s, -, hrun⟩
    · obtain ⟨hstep, rfl⟩ := throwIf_error.mp hrun
      refine ⟨.refl .., fun e he => ?_, fun _ => ⟨_, rfl⟩, fun hok => absurd hstep hok⟩
      cases he
      rfl
    · cases hrun

/-- Presenting a transfer fails when one of its statements does, and not otherwise while both
wallets are open. -/
theorem presentTransfer_answers (row : TransferRow) (duplicate : Bool) :
    (presentTransfer o row duplicate).Sat b
      (Answers o cfg b (o.fails .balanceAfter = true ∨ o.fails .storedFee = true)
        (OpenWallet o b row.senderOrgId row.environment ∧
          OpenWallet o b row.recipientOrgId row.environment)) := by
  unfold presentTransfer
  refine Session.Sat.mono (Answers.bind (getOrgBalance_answers _ _ _) fun _ t =>
    Answers.bind (getOrgBalance_answers _ _ _) fun _ u =>
      Answers.bind (storedFee_answers _) fun _ v => Answers.pure _) fun r t h => h.mono ?_ ?_
  · tauto
  · intro hready
    exact ⟨hready.1, hready.2, trivial, trivial⟩

theorem getOrgBalance_quiet (step : Step) (orgId : String) (env : Environment) :
    StaysQuiet o cfg (getOrgBalance o step orgId env) :=
  fun _ => (getOrgBalance_answers _ _ _).mono fun _ _ h => h.quiet

theorem ensureFeeRevenueOrg_quiet :
    StaysQuiet o cfg (ensureFeeRevenueOrg Session.inTx o cfg) := by
  intro b
  unfold ensureFeeRevenueOrg
  dsimp only
  split_ifs with henv
  · exact Session.Sat.pure (.refl ..)
  · refine Session.Sat.bind (Session.Sat.inTx (fun found t hrun => ?_) fun e _ =>
      ⟨fun a ha => (by cases ha), fun _ _ => .refl ..⟩)
    · obtain ⟨rfl, rfl⟩ := findFeeOrg_ok hrun
      refine ⟨fun found' hfound => ?_, fun e he => .refl ..⟩
      cases hfound
      have hfound : (feeOrgOr Session.inTx o (t.orgs.find? (·.slug = feeOrgSlug)) :
          CallM String).Sat t fun _ u => Quiet o cfg t u := by
        unfold feeOrgOr
        cases hfind : t.orgs.find? (·.slug = feeOrgSlug) with
        | some org => exact Session.Sat.pure (.refl ..)
        | none =>
            refine Session.Sat.inTx (fun id u hrun' => ?_) fun _ _ => .refl ..
            exact (insertFeeOrg_ok hfind (statement_ok.mp hrun').2).2
      have hwallet : ∀ id, StaysQuiet o cfg (do
          let _ ← Session.inTx (o.statement .feeWallet (ensureWallet o id .test))
          return id : CallM String) := by
        intro id
        refine .bind (.inTx fun b w b' hrun => ?_) fun _ => .pure _
        obtain ⟨-, -, -, hquiet⟩ := ensureWallet_ok (statement_ok.mp hrun).2
        exact hquiet
      refine Session.Sat.bind (hfound.mono fun r u hquiet => ⟨fun id _ => ?_, fun _ _ => hquiet⟩)
      exact (hwallet id u).mono fun _ _ hquiet' => hquiet.trans hquiet'

theorem checkFeePayable_quiet : StaysQuiet o cfg (checkFeePayable o cfg p) := by
  unfold checkFeePayable
  split_ifs
  · exact .pure _
  · exact ensureFeeRevenueOrg_quiet.bind fun _ =>
      (getOrgBalance_quiet _ _ _).bind fun _ => .reading _

theorem presentTransfer_quiet (row : TransferRow) (duplicate : Bool) :
    StaysQuiet o cfg (presentTransfer o row duplicate) :=
  fun _ => (presentTransfer_answers _ _).mono fun _ _ h => h.quiet

theorem replayed_quiet (existing : TransferRow) : StaysQuiet o cfg (replayed o p existing) := by
  unfold replayed
  exact (Session.Keeps.failIf _ _).bind fun _ => presentTransfer_quiet _ _

theorem loadTransfer_quiet (idem : String) :
    StaysQuiet o cfg (loadTransferByIdempotency o p idem) := by
  unfold loadTransferByIdempotency
  refine .inTx fun b found b' hrun => ?_
  obtain ⟨-, hrun⟩ := statement_ok.mp hrun
  obtain ⟨_, s, hs, hrun⟩ := bind_ok.mp hrun
  obtain ⟨-, rfl⟩ := readUuid_ok.mp hs
  obtain ⟨_, s, hs, hrun⟩ := bind_ok.mp hrun
  obtain ⟨rfl, rfl⟩ := get_ok.mp hs
  obtain ⟨rfl, rfl⟩ := pure_ok.mp hrun
  exact .refl ..

theorem replayedOr_quiet {fresh : CallM Presented} (h : StaysQuiet o cfg fresh) :
    StaysQuiet o cfg (replayedOr o p fresh) := by
  unfold replayedOr
  cases p.idem with
  | none => exact h
  | some idem =>
      refine (loadTransfer_quiet idem).bind fun found => ?_
      cases found with
      | some existing => exact replayed_quiet existing
      | none => exact h

theorem recover_quiet (e : TransferFailure) : StaysQuiet o cfg (recover o p e) := by
  unfold recover
  split_ifs
  · exact replayedOr_quiet (Session.Keeps.throw _)
  · exact Session.Keeps.throw _

/-! ### The call -/

/-- How a call on a checked request ends: it moved no money, or its transaction committed and only
quiet statements stand before and after it. -/
inductive Outcome (o : Outside) (cfg : FeeSettings) (p : Prepared) (b : Books)
    (r : Except TransferFailure Presented) (t : Books) : Prop where
  | quiet (h : Quiet o cfg b t)
  | committed (b₁ b₂ : Books) (row : TransferRow) (before : Quiet o cfg b b₁)
      (run : (transferTx o cfg p).run b₁ = .ok (row, b₂)) (after : Quiet o cfg b₂ t)
      (stops : ¬ Answered o → ∃ e, r = .error e)
      (answers : Answered o → OpenWallet o b₂ row.senderOrgId row.environment →
        OpenWallet o b₂ row.recipientOrgId row.environment → ∃ x, r = .ok x)

theorem Outcome.after {r : Except TransferFailure Presented} {t : Books} (hb : Quiet o cfg b b₁)
    (h : Outcome o cfg p b₁ r t) : Outcome o cfg p b r t := by
  cases h with
  | quiet h => exact .quiet (hb.trans h)
  | committed b₂ b₃ row before run after stops answers =>
      exact .committed b₂ b₃ row (hb.trans before) run after stops answers

theorem runTransfer_outcome : (runTransfer o cfg p).Sat b (Outcome o cfg p b) := by
  unfold runTransfer
  refine Session.Sat.tryCatch (Session.Sat.bind (Session.Sat.inTx (fun row b₂ hrun => ?_)
    fun e hrun => ?_))
  · refine ⟨fun row' hrow => ?_, fun e he => (by cases he)⟩
    cases hrow
    refine Session.Sat.bind (Session.Sat.failIf (fun hack => ?_) fun hack => ?_)
    · refine ⟨fun _ _ => ?_, fun e he => (by cases he)⟩
      have hpresent : (presentTransfer o row false).Sat b₂ (Answers o cfg b₂ _ _) :=
        presentTransfer_answers row false
      refine hpresent.mono fun r t h => ⟨?_, ?_⟩
      · rintro x rfl
        refine .committed b b₂ row (.refl ..) hrun h.quiet (fun hno => ?_) fun _ _ _ => ⟨x, rfl⟩
        apply h.stops
        by_contra hcontra
        push Not at hcontra
        exact hno ⟨by simpa using hack, by simpa using hcontra.1, by simpa using hcontra.2⟩
      · rintro e rfl
        unfold recover
        rw [if_neg (by simp [h.notUnique e rfl])]
        refine Session.Sat.throw (.committed b b₂ row (.refl ..) hrun h.quiet
          (fun _ => ⟨e, rfl⟩) fun hanswered hsender hrecipient => ?_)
        have hgo := h.goesOn (by simp [hanswered.balanceAfter, hanswered.storedFee])
          ⟨hsender, hrecipient⟩
        obtain ⟨⟨x, hx⟩, -⟩ := hgo
        cases hx
    · refine ⟨fun _ hu => (by cases hu), ?_⟩
      intro e he
      cases he
      refine ⟨fun _ hu => (by cases hu), ?_⟩
      intro e he
      cases he
      refine Session.Sat.throw (.committed b b₂ row (.refl ..) hrun (.refl ..)
        (fun _ => ⟨_, rfl⟩) fun hanswered => ?_)
      rw [hanswered.acknowledge] at hack
      cases hack
  · refine ⟨fun _ hu => (by cases hu), fun e' he' => ?_⟩
    cases he'
    refine ⟨fun _ hu => (by cases hu), fun e' he' => ?_⟩
    cases he'
    exact (recover_quiet _ b).mono fun _ _ h => .quiet h

theorem transferOnLedger_outcome : (transferOnLedger o cfg p).Sat b (Outcome o cfg p b) := by
  have hquiet : ∀ {α : Type} {x : CallM α} {f : α → CallM Presented} {b : Books},
      StaysQuiet o cfg x → (∀ a b₁, (f a).Sat b₁ (Outcome o cfg p b₁)) →
      (x >>= f).Sat b (Outcome o cfg p b) := by
    intro α x f b hx hf
    refine Session.Sat.bind ((hx b).mono fun r t h => ⟨fun a _ => ?_, fun e _ => .quiet h⟩)
    exact (hf a t).mono fun _ _ h' => h'.after h
  unfold transferOnLedger
  refine hquiet checkFeePayable_quiet fun _ b₁ => hquiet (Session.Keeps.failIf _ _) fun _ b₂ => ?_
  unfold replayedOr
  cases p.idem with
  | none => exact runTransfer_outcome
  | some idem =>
      refine hquiet (loadTransfer_quiet idem) fun found b₃ => ?_
      cases found with
      | some existing => exact (replayed_quiet existing b₃).mono fun _ _ h => .quiet h
      | none => exact runTransfer_outcome

/-- What a checked request has. -/
theorem prepare_ok {i : TransferInput} (h : prepare o cfg i b = .ok p) :
    0 < p.quote.transferAmount ∧ 0 ≤ p.quote.feeAmount := by
  have hbind : ∀ {α β : Type} {x : Except TransferFailure α} {f : α → Except TransferFailure β}
      {c : β}, (x >>= f) = .ok c → ∃ a, x = .ok a ∧ f a = .ok c := by
    intro α β x f c h
    cases x with
    | error e => cases h
    | ok a => exact ⟨a, rfl, h⟩
  unfold prepare at h
  obtain ⟨minor, -, h⟩ := hbind h
  obtain ⟨_, hpos, h⟩ := hbind h
  obtain ⟨_, -, h⟩ := hbind h
  obtain ⟨_, -, h⟩ := hbind h
  obtain ⟨recipient, -, h⟩ := hbind h
  obtain ⟨_, -, h⟩ := hbind h
  cases h
  constructor
  · unfold refuseIf at hpos
    split_ifs at hpos with hle
    exact not_le.mp hle
  · change 0 ≤ (if _ then getConfiguredFeeUsdcMinor cfg else 0)
    split_ifs
    · unfold getConfiguredFeeUsdcMinor
      split
      · exact le_max_right _ _
      · norm_num
    · exact le_rfl

theorem createInternalTransfer_outcome (onchain : Prepared → CallM Presented) (i : TransferInput)
    (hmode : getTransferSettlementMode cfg i.settlementMode = .internalLedger) :
    (createInternalTransfer o cfg onchain i).Sat b fun r t =>
      Quiet o cfg b t ∨ ∃ p, prepare o cfg i b = .ok p ∧ Outcome o cfg p b r t := by
  unfold createInternalTransfer
  rw [hmode]
  refine Session.Sat.bind (Session.Sat.reading ⟨fun p hp => ?_, fun e _ => .inl (.refl ..)⟩)
  exact transferOnLedger_outcome.mono fun _ _ h => .inr ⟨p, hp, h⟩

end sessions

section main

variable {o : Outside} {cfg : FeeSettings} {p : Prepared} {b b₁ b₂ t : Books}
  {i : TransferInput} {w : Parties} {r : Except TransferFailure Presented} {row : TransferRow}

/-- A call that moved no money conserved it. -/
theorem Quiet.conserves (h : Quiet o cfg b t) : Conserves o cfg i b r t := by
  refine ⟨fun hcommits => ?_, fun _ => ⟨fun k => by rw [h.ledger.row], h.ledger.movements, h.fees⟩⟩
  obtain ⟨⟨x, hx, hid⟩, hnew⟩ := hcommits
  rw [h.transfers] at hx
  exact absurd hid (hnew x hx)

theorem Quiet.not_commits (h : Quiet o cfg b t) : ¬ Commits o b t := by
  rintro ⟨⟨x, hx, hid⟩, hnew⟩
  rw [h.transfers] at hx
  exact absurd hid (hnew x hx)

/-- Quiet statements do not change whose the legs are. -/
theorem Quiet.ownLegs (h : Quiet o cfg b b₁) : OwnLegs o b₁ w ↔ OwnLegs o b w := by
  constructor
  · rintro ⟨hprincipal, hfee⟩
    refine ⟨(h.ledger.bothPosted _ _).not.mp hprincipal, fun hyes => ⟨?_, (hfee hyes).2⟩⟩
    exact ⟨h.fees ▸ (hfee hyes).1.record, (h.ledger.bothPosted _ _).not.mp (hfee hyes).1.legs⟩
  · rintro ⟨hprincipal, hfee⟩
    refine ⟨(h.ledger.bothPosted _ _).not.mpr hprincipal, fun hyes => ⟨?_, (hfee hyes).2⟩⟩
    exact ⟨h.fees ▸ (hfee hyes).1.record, (h.ledger.bothPosted _ _).not.mpr (hfee hyes).1.legs⟩

theorem Quiet.inRange (h : Quiet o cfg b b₁) (hrange : InRange b w) : InRange b₁ w := by
  intro k hk
  rw [h.ledger.row]
  exact hrange k hk

theorem Quiet.partiesOf (h : Quiet o cfg b b₁) (sender recipient : String) :
    partiesOf o cfg b₁ p sender recipient = partiesOf o cfg b p sender recipient := by
  unfold InternalTransfer.partiesOf
  rw [h.feeOrg]

/-- What is read the same before and after is changed by as much. -/
theorem SameRows.change_eq {l l' l₁ l₂ : Ledger} (h : SameRows l l₁) (h' : SameRows l₂ l')
    (k : WalletKey) : InternalTransfer.change l l' k = InternalTransfer.change l₁ l₂ k := by
  unfold InternalTransfer.change
  rw [h.row, h'.row]

theorem SameRows.received_eq {l l' l₁ l₂ : Ledger} (h : SameRows l l₁) (h' : SameRows l₂ l')
    (k : WalletKey) : InternalTransfer.received l l' k = InternalTransfer.received l₁ l₂ k := by
  unfold InternalTransfer.received
  rw [h.movements, h'.movements]

theorem Settled.widen {l l' l₁ l₂ : Ledger} (hs : Settled w l₁ l₂) (h : SameRows l l₁)
    (h' : SameRows l₂ l') : Settled w l l' := by
  refine ⟨fun S hS => ?_, ?_, ?_, fun k hks hkr => ?_, fun k => ?_⟩
  · have hsum := hs.sum S fun k hk => hS k (h'.rows k hk)
    simpa only [h.row, h'.row] using hsum
  · rw [h.change_eq h', h.received_eq h']
    exact hs.sender
  · rw [h.change_eq h', h.received_eq h']
    exact hs.recipient
  · rw [h.change_eq h', h.received_eq h']
    exact hs.others k hks hkr
  · rw [h.received_eq h']
    exact hs.revenue k

/-- A wallet that takes part in transfers can be presented. -/
theorem Active.open {s : String} (h : Active b.ledger (usdcWallet s row.environment)) {raw : String}
    (hread : o.uuid.read raw = some s) : OpenWallet o b s row.environment := by
  refine ⟨s, _, o.uuid.canonical raw s hread, wallets_eq_row h.row, ?_⟩
  rw [h.status]
  decide

/-- **Conservation of a transfer with a fee.** On balances carried exactly, a call of the
`INTERNAL_LEDGER` mode conserves money exactly when it makes no transfer or its legs are its own,
its sender is not the organisation its fee goes to, and no statement after its commit fails. -/
theorem conserves_iff (o : Outside) (cfg : FeeSettings) (onchain : Prepared → CallM Presented)
    (i : TransferInput) (b : Books)
    (hmode : getTransferSettlementMode cfg i.settlementMode = .internalLedger)
    (hrange : ∀ w, parties o cfg i b = some w → InRange b w) :
    Conserves o cfg i b ((createInternalTransfer o cfg onchain i).exec b).1
        ((createInternalTransfer o cfg onchain i).exec b).2 ↔
      (Commits o b ((createInternalTransfer o cfg onchain i).exec b).2 →
        ∀ w, parties o cfg i b = some w → Clean o b w) := by
  have houtcome := createInternalTransfer_outcome (b := b) (o := o) onchain i hmode
  unfold Session.Sat at houtcome
  set r := ((createInternalTransfer o cfg onchain i).exec b).1
  set t := ((createInternalTransfer o cfg onchain i).exec b).2
  rcases houtcome with hquiet | ⟨p, hp, hquiet | ⟨b₁, b₂, row, hbefore, hrun, hafter, hstops,
    hanswers⟩⟩
  · exact ⟨fun _ hcommits => absurd hcommits hquiet.not_commits, fun _ => hquiet.conserves⟩
  · exact ⟨fun _ hcommits => absurd hcommits hquiet.not_commits, fun _ => hquiet.conserves⟩
  have htransferred := transferTx_ok hrun
  obtain ⟨ha, hf⟩ := prepare_ok hp
  have hw : parties o cfg i b =
      some (InternalTransfer.partiesOf o cfg b p row.senderOrgId row.recipientOrgId) := by
    unfold parties
    rw [hp]
    dsimp only
    rw [htransferred.sender, htransferred.recipient]
  have hrange₁ := hbefore.inRange (hrange _ hw)
  have hbooks := htransferred.books ha hf
  rw [hbefore.partiesOf] at hbooks
  obtain ⟨hown, hbooked⟩ := hbooks hrange₁
  have hcommits : Commits o b t := by
    obtain ⟨x, hx, hid⟩ := htransferred.made
    refine ⟨⟨x, ?_, hid⟩, ?_⟩
    · rw [hafter.transfers]
      exact hx
    · rw [← hbefore.transfers]
      exact htransferred.new
  have hpays : ∀ {w : Parties}, SenderPays w b.ledger t.ledger ↔
      SenderPays w b₁.ledger b₂.ledger := by
    intro w
    unfold SenderPays
    rw [hbefore.ledger.change_eq hafter.ledger, hbefore.ledger.received_eq hafter.ledger]
  constructor
  · intro hconserves _ w hw'
    cases hw.symm.trans hw'
    obtain ⟨w', hw'', hsettled⟩ := hconserves.committed hcommits
    cases hw.symm.trans hw''
    refine ⟨?_, hbefore.ownLegs.mp (hown (hpays.mp hsettled.sender))⟩
    by_contra hno
    have hunchanged := hconserves.failed (hstops hno)
    have hchange : change b.ledger t.ledger (usdcWallet row.senderOrgId p.environment) = 0 := by
      unfold change
      rw [hunchanged.balances, sub_self]
    have hreceived : received b.ledger t.ledger (usdcWallet row.senderOrgId p.environment) = 0 := by
      unfold received
      rw [hunchanged.movements, sub_self]
    have hsender := hsettled.sender
    change change b.ledger t.ledger (usdcWallet row.senderOrgId p.environment) =
      -(p.quote.transferAmount + p.quote.feeAmount) +
        received b.ledger t.ledger (usdcWallet row.senderOrgId p.environment) at hsender
    omega
  · intro hclean
    have hc := hclean hcommits _ hw
    have hbook := hbooked (hbefore.ownLegs.mpr hc.own)
    refine ⟨fun _ => ⟨_, hw, hbook.settled.widen hbefore.ledger hafter.ledger⟩, ?_⟩
    rintro ⟨e, he⟩
    have henv := htransferred.environment
    have hsender : OpenWallet o b₂ row.senderOrgId row.environment :=
      Active.open (by rw [henv]; exact hbook.sender) htransferred.sender
    have hrecipient : OpenWallet o b₂ row.recipientOrgId row.environment :=
      Active.open (by rw [henv]; exact hbook.recipient) htransferred.recipient
    obtain ⟨x, hx⟩ := hanswers hc.answered hsender hrecipient
    rw [hx] at he
    cases he

end main

/-! ### Two calls -/

/-- An organisation with a hundred dollars. -/
def ada : String := "11111111-1111-4111-8111-111111111111"

/-- The organisation it pays. -/
def bola : String := "22222222-2222-4222-8222-222222222222"

/-- No statement fails. -/
def smooth : Outside where
  uuid := ⟨some, fun _ _ h => by cases h; rfl⟩
  fingerprint _ := "fingerprint"
  transferGroupId := "transfer"
  senderTransactionId := "out"
  recipientTransactionId := "in"
  feeId := "fee"
  feeOrgId := "33333333-3333-4333-8333-333333333333"
  fails _ := false

/-- Both organisations, and one wallet. -/
def twoOrgs : Books where
  orgs := [⟨ada, "ada"⟩, ⟨bola, "bola"⟩]
  members := []
  transfers := []
  transactions := []
  fees := []
  ledger :=
    { wallets := fun k => if k = usdcWallet ada .test then some ⟨.active, ⟨10 ^ 9, 0, 0⟩⟩ else none
      movements := []
      nextMovementId := 0 }

/-- Ten dollars. -/
def tenDollars : TransferInput :=
  ⟨ada, "test", .number (some 10), some bola, none, none, some "k1", none, none⟩

/-- A fee of one cent, for an organisation. -/
def feeFor (orgId : Option String) : FeeSettings := ⟨none, some "on", none, orgId⟩

/-- The call, with the fee for an organisation. -/
def payTen (orgId : Option String) : Except TransferFailure Presented × Books :=
  (createInternalTransfer smooth (feeFor orgId) (fun _ => throw .fault) tenDollars).exec twoOrgs

/-- With the platform's own organisation for the fee, money is conserved. -/
theorem payTen_conserves :
    Conserves smooth (feeFor none) tenDollars twoOrgs (payTen none).1 (payTen none).2 := by
  have hquote : (parties smooth (feeFor none) tenDollars twoOrgs).map
      (·.request.quote.customerDebitAmount) = some 100100000 := by decide +kernel
  have hdistinct : (parties smooth (feeFor none) tenDollars twoOrgs).map
      (fun w => decide (w.revenue = some w.sender)) = some false := by decide +kernel
  refine (conserves_iff smooth (feeFor none) _ tenDollars twoOrgs (by decide +kernel) ?_).mpr ?_
  · intro w hw k _
    rw [hw] at hquote
    rw [show w.request.quote.customerDebitAmount = 100100000 from Option.some.inj hquote]
    by_cases hk : k = usdcWallet ada .test
    · rw [hk]
      exact ⟨⟨⟨by decide +kernel, by decide +kernel, by decide +kernel⟩, by decide +kernel⟩,
        by decide +kernel⟩
    · have hrow : twoOrgs.ledger.row k = .fresh := by
        simp [Ledger.row, twoOrgs, hk]
      rw [hrow]
      exact ⟨⟨⟨by decide, by decide, by decide⟩, by decide⟩, by decide⟩
  · intro _ w hw
    rw [hw] at hdistinct
    refine ⟨⟨rfl, rfl, rfl⟩, fun hboth => ?_, fun _ => ⟨⟨fun r hr => ?_, fun hboth => ?_⟩, ?_⟩⟩
    · exact absurd hboth.1 (by simp [findMovementByIdempotency, twoOrgs])
    · cases hr
    · exact absurd hboth.1 (by simp [findMovementByIdempotency, twoOrgs])
    · simpa using hdistinct

/-- With the sender's own organisation for the fee, a cent is made: the sender pays ten dollars and
ends up a cent richer than it should. -/
theorem payTen_makes_money :
    getTransferSettlementMode (feeFor (some ada)) tenDollars.settlementMode = .internalLedger ∧
      change twoOrgs.ledger (payTen (some ada)).2.ledger (usdcWallet ada .test) +
        change twoOrgs.ledger (payTen (some ada)).2.ledger (usdcWallet bola .test) = 10 ^ 5 ∧
      ¬ Conserves smooth (feeFor (some ada)) tenDollars twoOrgs (payTen (some ada)).1
        (payTen (some ada)).2 := by
  refine ⟨by decide +kernel, by decide +kernel, fun h => ?_⟩
  have hcommits : Commits smooth twoOrgs (payTen (some ada)).2 := by
    refine ⟨?_, fun r hr => by cases hr⟩
    have hany : (payTen (some ada)).2.transfers.any (·.id = smooth.transferGroupId) = true := by
      decide +kernel
    simpa using hany
  obtain ⟨w, hw, hsettled⟩ := h.committed hcommits
  have hparties : (parties smooth (feeFor (some ada)) tenDollars twoOrgs).map
      (fun w => (w.sender, w.request.quote)) =
        some (usdcWallet ada .test, ⟨10 ^ 8, 10 ^ 5, 10 ^ 5⟩) := by decide +kernel
  rw [hw] at hparties
  obtain ⟨hsender, hquote⟩ := Prod.ext_iff.mp (Option.some.inj hparties)
  have hpays := hsettled.sender
  dsimp only at hsender hquote
  rw [hsender, hquote] at hpays
  exact absurd hpays (by decide +kernel)

end DayfiBackend.Infra.InternalTransfer
