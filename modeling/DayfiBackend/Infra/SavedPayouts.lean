import DayfiBackend.Infra.Recipients

/-!
# Payouts to saved recipients

A payout may name a saved recipient instead of an account. The fields of its destination are then
put over those of the request, and what the destination does not say is left as the request has it.
`createPayout` looks at the tag first, then at the asset and at the account last, wherever they are
from. So a payout to a saved bank account is made to that account exactly when the request gives no
tag and no asset of its own (`saved_payouts`).
-/

namespace DayfiBackend.Infra.Recipients

open DayfiBackend.Found DayfiBackend.Found.Prog DayfiBackend.Found.Keys

/-! ### Fields -/

/-- Source: `infraRecipientService.ts` `destinationToPayoutFields`. -/
def destinationToPayoutFields (d : Destination) : PayoutFields :=
  let data := d.destinationData
  match d.rail with
  | .bank =>
      { accountType := "bank"
        currency := orNull d.currency
        country := orNull d.country
        accountNumber := some (orDefault data.accountNumber "")
        accountName := some (orDefault data.accountName "")
        bankCode := some (orDefault data.bankCode "") }
  | .mobileMoney =>
      { accountType := "momo"
        currency := orNull d.currency
        country := orNull d.country
        accountNumber := some (firstOf data.phone data.accountNumber)
        accountName := some (orDefault data.accountName "")
        bankCode := some (firstOf data.networkId data.bankCode) }
  | .crypto =>
      { accountType := "crypto"
        currency := some (orDefault data.asset (orDefault d.currency "USDC"))
        asset := some (orDefault data.asset (orDefault d.currency "USDC"))
        walletAddress := some (firstOf data.walletAddress data.accountNumber)
        accountName := some (orDefault data.accountName "") }
  | .dayfi =>
      { accountType := "dayfi_tag"
        currency := orNull d.currency
        country := orNull d.country
        dayfiTag := some (withoutAt (firstOf data.dayfiTag data.accountNumber))
        accountName := some (orDefault data.accountName "") }

/-! ### Payees -/

/-- Whom a payout is made to. -/
inductive Payee where
  | tag (tag : String)
  | wallet (asset address : String)
  | account (method accountNumber : String)
  deriving DecidableEq, Repr

/-- The method of the row of a payout. -/
def Payee.method : Payee → String
  | tag _ => "dayfi_tag"
  | wallet .. => "crypto"
  | account method _ => method

/-- The payee that `createPayout` finds. -/
def payeeOf (input : CreatePayoutInput) : Payee :=
  if input.kind = "dayfi_tag" ∨ (orNull input.dayfiTag).isSome then .tag input.tag
  else if input.kind = "crypto" ∨ (orNull input.asset).isSome then
    .wallet (orDefault input.asset (orDefault input.currency "USDC")).toUpper
      (trim (orDefault input.walletAddress (input.accountNumber.getD "")))
  else .account (if input.kind = "momo" then "mobile_money" else "bank_transfer")
    (trim (input.accountNumber.getD ""))

/-- A tag as it is looked for. -/
def normalizeTag (raw : String) : String :=
  (String.ofList ((trim raw).toList.dropWhile (· = '@'))).toLower

/-- The payee that the organisation has saved. -/
def Destination.payee (d : Destination) : Payee :=
  let data := d.destinationData
  match d.rail with
  | .bank => .account "bank_transfer" (trim (data.account .bank))
  | .mobileMoney => .account "mobile_money" (trim (data.account .mobileMoney))
  | .crypto => .wallet (orDefault data.asset (orDefault d.currency "USDC")).toUpper
      (trim (data.account .crypto))
  | .dayfi => .tag (normalizeTag (withoutAt (data.account .dayfi)))

/-- The request names nobody else. -/
def Undiverted (input : CreatePayoutInput) (d : Destination) : Prop :=
  match d.rail with
  | .bank | .mobileMoney => orNull input.dayfiTag = none ∧ orNull input.asset = none
  | .crypto => orNull input.dayfiTag = none
  | .dayfi => withoutAt (d.destinationData.account .dayfi) ≠ "" ∨ input.tag = ""

instance (input : CreatePayoutInput) (d : Destination) : Decidable (Undiverted input d) :=
  decidable_of_bool (match d.rail with
    | .bank | .mobileMoney => decide (orNull input.dayfiTag = none ∧ orNull input.asset = none)
    | .crypto => decide (orNull input.dayfiTag = none)
    | .dayfi => decide (withoutAt (d.destinationData.account .dayfi) ≠ "" ∨ input.tag = "")) (by
      unfold Undiverted
      cases d.rail <;> exact decide_eq_true_iff)

/-! ### The rows of a payout -/

/-- The statement inserts no row of another method. -/
def InsertsBy (method : String) {β : Type} : Sql β → Prop
  | .insertTx draft => draft.method = method
  | _ => True

section rows

variable {method : String}

theorem findIdempotentTx_inserts (orgId env : String) (key : Option String)
    (fingerprint : Fingerprint) :
    OnlyE (InsertsBy method) (findIdempotentTx orgId env key fingerprint) :=
  (findIdempotentTx_quiet orgId env key fingerprint).mono fun st hst => by
    cases st <;> trivial

theorem insertTx_inserts {draft : TxRow} {fingerprint : Fingerprint}
    (h : draft.method = method) : OnlyE (InsertsBy method) (insertTx draft fingerprint) := by
  refine .bind (sql_only h) fun inserted => ?_
  cases inserted with
  | some row => exact .pure _
  | none =>
      refine .bind (findIdempotentTx_inserts _ _ _ _) fun found => ?_
      cases found with
      | some existing => exact .pure _
      | none => exact .throw _

theorem inserts_of_payout {step : PayoutStep} {α : Type} {p : Call α}
    (hp : OnlyE (Sql.OfPayout step) p) : OnlyE (InsertsBy method) p :=
  hp.mono fun st hst => by cases st <;> trivial

theorem lockFundsForPayout_inserts (orgId : String) (id : ℕ) :
    OnlyE (InsertsBy method) (lockFundsForPayout orgId id) :=
  .tryCatch (inserts_of_payout (lockPayoutFunds_only _ _)) fun _ =>
    .bind (sql_only trivial) fun _ => .throw _

theorem createLockedPayout_inserts (input : CreatePayoutInput) (amount : ℚ)
    (currency sequenceId : String) :
    OnlyE (InsertsBy method) (createLockedPayout input amount currency method sequenceId) := by
  unfold createLockedPayout
  dsimp only
  exact .bind (insertTx_inserts rfl) fun _ => .bind (lockFundsForPayout_inserts _ _) fun _ =>
    .pure _

theorem submitToProvider_inserts (orgId : String) (id : ℕ) (sequenceId : String) :
    OnlyE (InsertsBy method) (submitToProvider orgId id sequenceId) :=
  .tryCatch (.bind (sql_only trivial) fun _ => .bind (sql_only trivial) fun _ => sql_only trivial)
    fun _ => .bind (.tryCatch (.bind (inserts_of_payout (releasePayoutLock_only _ _))
      fun _ => .pure _) fun _ => .pure _) fun _ => .throw _

theorem fetchTxRow_inserts (id : ℕ) : OnlyE (InsertsBy method) (fetchTxRow id) :=
  (fetchTxRow_quiet id).mono fun st hst => by cases st <;> trivial

theorem createBankPayout_inserts (input : CreatePayoutInput) (amount : ℚ) (sequenceId : String) :
    OnlyE (InsertsBy (if input.kind = "momo" then "mobile_money" else "bank_transfer"))
      (createBankPayout input amount sequenceId) := by
  unfold createBankPayout
  dsimp only
  refine .ite (.throw _) (.ite (.throw _) (.bind (doWhen_only (sql_only trivial)) fun _ => ?_))
  refine .bind (.ite (sql_only trivial) (.pure _)) fun configured => .ite ?_ ?_
  · exact .bind (insertTx_inserts rfl) fun _ => .throw _
  refine .bind (doWhen_only (sql_only trivial)) fun _ => .bind (insertTx_inserts rfl) fun row => ?_
  refine .bind (lockFundsForPayout_inserts _ _) fun _ => ?_
  refine .bind (.tryCatch (sql_only trivial) fun _ => .pure _) fun mode => .ite ?_ ?_
  · exact .bind (sql_only trivial) fun _ => .bind (fetchTxRow_inserts _) fun _ => .pure _
  · exact .bind (doWhen_only (submitToProvider_inserts _ _ _)) fun _ =>
      .bind (fetchTxRow_inserts _) fun _ => .pure _

/-- What is left of a payout once its input is filled in. -/
def payTo (amount : ℚ) (payoutInput : CreatePayoutInput) : Call CreatedPayout := do
  match ← findIdempotentTx payoutInput.orgId payoutInput.env payoutInput.idempotencyKey
      (payoutInput.fingerprint amount) with
  | some replay =>
      let _ ← Infra.sql (.getOrgBalance payoutInput.orgId payoutInput.env)
      return ⟨replay, replay.metadata.usdcAmount, true⟩
  | none =>
      let sequenceId ← Infra.sql .randomUUID
      if payoutInput.kind = "dayfi_tag" ∨ (orNull payoutInput.dayfiTag).isSome then
        if payoutInput.tag = "" then throw .invalidInput
        else do
          Infra.sql .external
          createLockedPayout payoutInput amount
            (orDefault payoutInput.currency "NGN").toUpper "dayfi_tag" sequenceId
      else if payoutInput.kind = "crypto" ∨ (orNull payoutInput.asset).isSome then
        if trim (orDefault payoutInput.walletAddress
            (payoutInput.accountNumber.getD "")) = "" then throw .invalidInput
        else
          createLockedPayout payoutInput amount
            (orDefault payoutInput.asset (orDefault payoutInput.currency "USDC")).toUpper
            "crypto" sequenceId
      else createBankPayout payoutInput amount sequenceId

theorem createPayout_eq (input : CreatePayoutInput) {raw : ℚ} (hraw : input.amount = some raw)
    (hpos : 0 < Binary64.nearest raw) :
    createPayout input = resolveRecipient input >>= payTo (Binary64.nearest raw) := by
  unfold createPayout
  rw [hraw]
  dsimp only
  rw [if_neg (not_le.mpr hpos)]
  rfl

/-- The rows of a payout are of the method of its payee. -/
theorem payTo_inserts (amount : ℚ) (input : CreatePayoutInput) :
    OnlyE (InsertsBy (payeeOf input).method) (payTo amount input) := by
  unfold payTo payeeOf
  refine .bind (findIdempotentTx_inserts _ _ _ _) fun found => ?_
  cases found with
  | some replay => exact .bind (sql_only trivial) fun _ => .pure _
  | none =>
      refine .bind (sql_only trivial) fun sequenceId => ?_
      have hbank := createBankPayout_inserts input amount sequenceId
      split_ifs with htag hnotag hcrypto hnoaddress hmomo
      · exact .throw _
      · exact .bind (sql_only trivial) fun _ => createLockedPayout_inserts _ _ _ _
      · exact .throw _
      · exact createLockedPayout_inserts _ _ _ _
      · rwa [if_pos hmomo] at hbank
      · rwa [if_neg hmomo] at hbank

end rows

/-! ### Payees of destinations -/

section payees

variable {L : Letters} {input : CreatePayoutInput} {d : Destination}

theorem orDefault_ne {s : Option String} {fallback : String} (hf : fallback ≠ "") :
    orDefault s fallback ≠ "" := by
  unfold orDefault
  cases h : orNull s with
  | none => exact hf
  | some t =>
      obtain ⟨-, ht⟩ := Option.filter_eq_some_iff.mp h
      simpa using ht

theorem ne_of_not_blank {text : String} (h : ¬ Blank text) : text ≠ "" := by
  rintro rfl
  exact h (by decide)

theorem orNull_some {text : String} (h : text ≠ "") : orNull (some text) = some text :=
  Option.filter_eq_some_iff.mpr ⟨rfl, by simpa using h⟩

/-- The field of a destination, where it says something. -/
theorem orNull_orElse {text : String} (h : text ≠ "") (other : Option String) :
    (orNull (some text) <|> other) = some text := by
  rw [orNull_some h]
  rfl

theorem orDefault_some {text : String} (h : text ≠ "") (fallback : String) :
    orDefault (some text) fallback = text := by
  unfold orDefault
  rw [orNull_some h]
  rfl

/-- What a valid destination has to say. -/
theorem account_ne (h : validateDestinationData d.rail d.destinationData = .ok ()) :
    d.destinationData.account d.rail ≠ "" := by
  unfold validateDestinationData at h
  revert h
  cases d.rail <;> dsimp only <;> split_ifs with hblank
  all_goals first
    | exact fun _ => ne_of_not_blank hblank
    | exact fun h => by cases h

/-- The accounts that are paid to by a bank or by phone. -/
def PaysAccount (kind method : String) : Prop :=
  kind = "bank" ∧ method = "bank_transfer" ∨ kind = "momo" ∧ method = "mobile_money"

/-- A payout to a bank account or a phone. -/
theorem payee_account_iff {method : String} {fields : PayoutFields} {number : String}
    (hpays : PaysAccount fields.accountType method) (htag : fields.dayfiTag = none)
    (hasset : fields.asset = none) (hnumber : fields.accountNumber = some number)
    (hne : number ≠ "") :
    payeeOf (input.withDestination fields) = .account method (trim number) ↔
      orNull input.dayfiTag = none ∧ orNull input.asset = none := by
  have hk : (input.withDestination fields).kind = fields.accountType := by
    show (orDefault (some fields.accountType) _).toLower = _
    rcases hpays with ⟨hkind, -⟩ | ⟨hkind, -⟩ <;> rw [hkind] <;> decide +kernel
  have ht : (input.withDestination fields).dayfiTag = input.dayfiTag := by
    show (orNull fields.dayfiTag <|> _) = _
    rw [htag]
    rfl
  have ha : (input.withDestination fields).asset = input.asset := by
    show (orNull fields.asset <|> _) = _
    rw [hasset]
    rfl
  have hn : (input.withDestination fields).accountNumber = some number := by
    show (orNull fields.accountNumber <|> _) = _
    rw [hnumber, orNull_orElse hne]
  unfold payeeOf
  rw [hk, ht, ha, hn]
  rcases hpays with ⟨hkind, rfl⟩ | ⟨hkind, rfl⟩ <;> rw [hkind] <;>
  by_cases h : orNull input.dayfiTag = none <;> by_cases h' : orNull input.asset = none <;>
  simp [h, h', Option.isSome_iff_ne_none]

/-- A payout to a wallet. -/
theorem payee_wallet_iff {fields : PayoutFields} {asset address : String}
    (hkind : fields.accountType = "crypto") (htag : fields.dayfiTag = none)
    (hasset : fields.asset = some asset) (hne : asset ≠ "")
    (haddress : fields.walletAddress = some address) (hne' : address ≠ "") :
    payeeOf (input.withDestination fields) = .wallet asset.toUpper (trim address) ↔
      orNull input.dayfiTag = none := by
  have hk : (input.withDestination fields).kind = "crypto" := by
    show (orDefault (some fields.accountType) _).toLower = _
    rw [hkind]
    decide +kernel
  have ht : (input.withDestination fields).dayfiTag = input.dayfiTag := by
    show (orNull fields.dayfiTag <|> _) = _
    rw [htag]
    rfl
  have ha : (input.withDestination fields).asset = some asset := by
    show (orNull fields.asset <|> _) = _
    rw [hasset, orNull_orElse hne]
  have hw : (input.withDestination fields).walletAddress = some address := by
    show (orNull fields.walletAddress <|> _) = _
    rw [haddress, orNull_orElse hne']
  unfold payeeOf
  rw [hk, ht, ha, hw, orDefault_some hne, orDefault_some hne']
  by_cases h : orNull input.dayfiTag = none <;> simp [h, Option.isSome_iff_ne_none]

/-- A payout to a tag. -/
theorem payee_tag_iff {fields : PayoutFields} {tag : String}
    (hkind : fields.accountType = "dayfi_tag") (htag : fields.dayfiTag = some tag)
    (hnumber : fields.accountNumber = none) :
    payeeOf (input.withDestination fields) = .tag (normalizeTag tag) ↔
      tag ≠ "" ∨ input.tag = "" := by
  have hk : (input.withDestination fields).kind = "dayfi_tag" := by
    show (orDefault (some fields.accountType) _).toLower = _
    rw [hkind]
    decide +kernel
  unfold payeeOf
  rw [if_pos (.inl hk), Payee.tag.injEq]
  by_cases hne : tag = ""
  · subst hne
    have hsame : (input.withDestination fields).tag = input.tag := by
      have ht : (input.withDestination fields).dayfiTag = input.dayfiTag := by
        show (orNull fields.dayfiTag <|> _) = _
        rw [htag]
        rfl
      have hn : (input.withDestination fields).accountNumber = input.accountNumber := by
        show (orNull fields.accountNumber <|> _) = _
        rw [hnumber]
        rfl
      unfold CreatePayoutInput.tag
      rw [ht, hn]
    rw [hsame, show normalizeTag "" = "" by decide +kernel]
    simp
  · have ht : (input.withDestination fields).dayfiTag = some tag := by
      show (orNull fields.dayfiTag <|> _) = _
      rw [htag, orNull_orElse hne]
    have hsame : (input.withDestination fields).tag = normalizeTag tag := by
      unfold CreatePayoutInput.tag normalizeTag
      rw [ht, orDefault_some hne]
    simp [hsame, hne]

/-- Whom a payout with a destination is made to. -/
theorem payee_withDestination (hvalid : validateDestinationData d.rail d.destinationData = .ok ()) :
    payeeOf (input.withDestination (destinationToPayoutFields d)) = d.payee ↔
      Undiverted input d := by
  have hne := account_ne hvalid
  obtain ⟨⟨id, recipientId, orgId, environment, rail, country, currency⟩, data⟩ := d
  cases rail with
  | bank =>
      exact payee_account_iff (.inl ⟨rfl, rfl⟩) rfl rfl rfl hne
  | mobileMoney =>
      exact payee_account_iff (.inr ⟨rfl, rfl⟩) rfl rfl rfl hne
  | crypto =>
      exact payee_wallet_iff rfl rfl rfl (orDefault_ne (orDefault_ne (by decide))) rfl hne
  | dayfi => exact payee_tag_iff rfl rfl rfl

/-- A payout that names a recipient asks for its destination first. Whatever the destination that
is answered, the rows that are inserted are of the method of one payee, and where the destination
is valid that payee is the one that is saved exactly when the request names nobody else. -/
def PaysSaved (input : CreatePayoutInput) (recipientId : String) : Prop :=
  ∃ rest, (createPayout input).run = .act (.resolveDestination recipientId) rest ∧
    ∀ d : Destination,
      (rest (.ok (destinationToPayoutFields d))).Only (InsertsBy
        (payeeOf (input.withDestination (destinationToPayoutFields d))).method) ∧
      (validateDestinationData d.rail d.destinationData = .ok () →
        (payeeOf (input.withDestination (destinationToPayoutFields d)) = d.payee ↔
          Undiverted input d))

/-- A payout to Ada, with an asset. -/
def assetToAda : CreatePayoutInput where
  orgId := "org"
  env := "live"
  amount := some 10
  asset := some "USDC"
  recipientId := some "ada"

/-- Ada's account at a bank. -/
def adaSaved : Destination where
  id := "gtb"
  recipientId := "ada"
  orgId := "org"
  environment := .live
  rail := .bank
  country := some "NG"
  currency := some "NGN"
  provider := none
  label := none
  displayHint := "GTBank ···· 6789"
  lastFour := some "6789"
  verificationStatus := .verified
  isDefault := true
  createdAt := 0
  updatedAt := 0
  destinationData := { accountNumber := some "0123456789", accountName := some "Ada Obi",
                       bankCode := some "058" }

end payees

end DayfiBackend.Infra.Recipients
