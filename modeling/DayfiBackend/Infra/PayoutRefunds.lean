import DayfiBackend.Infra.PayoutBooks
import DayfiBackend.Infra.PayoutRequests

/-!
# A payout is not both refunded and paid, as long as failures are real

`createPayout` releases the lock when anything after the lock fails, also when the provider had
accepted the payment and only the answer or the update that follows it failed
(`refunded_and_paid`). The failure webhook releases it too. While a failing request was not
accepted, the update after an accepted one does not fail, a failure report is about a payment
the provider gave up, and no insert finds its key taken, no payout is refunded while the provider
holds a payment for it (`never_refunded_and_paid`).
-/

namespace DayfiBackend.Infra

open DayfiBackend.Found DayfiBackend.Found.Prog DayfiBackend.Found.Keys

/-! ### Calls and conditions -/

/-- What happens to live payouts. -/
inductive ProviderCall where
  | create (input : CreatePayoutInput)
  | webhook (payload : YellowCardWebhookPayload)
  /-- The provider gives up a payment it had accepted. -/
  | fails (sequenceId : String)
  deriving DecidableEq, Repr

namespace ProviderCall

def program : ProviderCall → Prog Sql Unit
  | create input => discard (createPayout input)
  | webhook payload => discard (applyInfraYellowCardWebhook payload)
  | fails sequenceId => discard (sql (.providerFails sequenceId))

def isCreate : ProviderCall → Bool
  | create _ => true
  | _ => false

/-- The call is a webhook that reports a failure. -/
def reportsFailure : ProviderCall → Bool
  | webhook payload => resolveWalletStatusFromYellowCardWebhook payload = some .failed
  | _ => false

end ProviderCall

/-- The provider received a request for the payout. -/
def Requested (s : Store) (id : ℕ) : Prop := ∃ q ∈ s.requests, q.payoutId = id

/-- The provider holds an accepted payment for the payout. -/
def Accepted (s : Store) (id : ℕ) : Prop :=
  ∃ q ∈ s.requests, q.payoutId = id ∧ q.status = .accepted

/-- The provider received a request for the payout, and holds no payment for it. -/
def Gone (s : Store) (id : ℕ) : Prop := Requested s id ∧ ¬ Accepted s id

instance (s : Store) (id : ℕ) : Decidable (Requested s id) := by
  unfold Requested
  infer_instance

instance (s : Store) (id : ℕ) : Decidable (Accepted s id) := by
  unfold Accepted
  infer_instance

instance (s : Store) (id : ℕ) : Decidable (Gone s id) := by
  unfold Gone
  infer_instance

/-- No payout is refunded while the provider holds a payment for it. -/
def NotRefundedAndPaid (s : Store) : Prop :=
  ∀ id, Accepted s id → s.ledger.posted .release id = none

/-- Failures are real: a request that fails was not accepted, the update of a payout by the call
that created it does not fail while the provider holds a payment for it, a failure report arrives
for payments the provider gave up, and no insert finds its key taken. -/
def FailuresReal (calls : List ProviderCall) {β : Type} (pid : ℕ) (st : Sql β) (o : Outside)
    (s : Store) : Prop :=
  match st with
  | .insertTx draft => s.txs.all (fun r => !draft.sameKey r) = true
  | .createPaymentRequest .. => o.provider ≠ .acceptedThenError
  | .patchTx id .. =>
      o.fault = true → calls[pid]?.any ProviderCall.isCreate = true → ¬ Accepted s id
  | .loadTxByExternalId sequenceId =>
      calls[pid]?.any ProviderCall.reportsFailure = true →
        ∀ r ∈ s.txs, r.externalId = some sequenceId → Gone s r.id
  | _ => True

instance (calls : List ProviderCall) {β : Type} (pid : ℕ) (st : Sql β) (o : Outside)
    (s : Store) : Decidable (FailuresReal calls pid st o s) :=
  decidable_of_bool (match st with
    | .insertTx draft => s.txs.all fun r => !draft.sameKey r
    | .createPaymentRequest .. => decide (o.provider ≠ .acceptedThenError)
    | .patchTx id .. => decide (o.fault = true →
        calls[pid]?.any ProviderCall.isCreate = true → ¬ Accepted s id)
    | .loadTxByExternalId sequenceId => decide (
        calls[pid]?.any ProviderCall.reportsFailure = true →
          ∀ r ∈ s.txs, r.externalId = some sequenceId → Gone s r.id)
    | _ => true) (by
      cases st <;>
        first | exact decide_eq_true_iff | exact iff_of_true rfl trivial | exact Iff.rfl)

/-! ### The invariant -/

/-- The invariant: requests are owned, no payout is refunded and paid, and only payouts of the
table are refunded. -/
structure RefundInv (s : Store) : Prop extends RequestInv s where
  safe : NotRefundedAndPaid s
  released : ∀ id, s.ledger.posted .release id ≠ none → ∃ r ∈ s.txs, r.id = id

/-- What a process may count on: the others send nothing for its rows, and release none for which
nothing was sent; a payment that is gone stays gone. -/
structure Waits (pid : ℕ) (s t : Store) : Prop extends Spares pid s t where
  unreleased : ∀ r ∈ s.txs, r.creator = pid → ¬ Requested s r.id →
    ¬ Requested t r.id ∧
      (s.ledger.posted .release r.id = none → t.ledger.posted .release r.id = none)
  requested : ∀ id, Requested s id → Requested t id
  gone : ∀ id, Gone s id → Gone t id

theorem Waits.refl (pid : ℕ) (s : Store) : Waits pid s s :=
  ⟨Spares.refl pid s, fun _ _ _ h => ⟨h, id⟩, fun _ => id, fun _ => id⟩

theorem Waits.trans {pid : ℕ} {s t u : Store} (h : Waits pid s t) (h' : Waits pid t u) :
    Waits pid s u := by
  refine ⟨h.toSpares.trans h'.toSpares, fun r hr hpid hnot => ?_,
    fun id hid => h'.requested id (h.requested id hid), fun id hid => h'.gone id (h.gone id hid)⟩
  obtain ⟨r', hr', hid, hcreator⟩ := h.rows r hr
  obtain ⟨hnot', hrel⟩ := h.unreleased r hr hpid hnot
  obtain ⟨hnot'', hrel'⟩ := h'.unreleased r' hr' (hcreator.trans hpid) (by rwa [hid])
  rw [hid] at hnot'' hrel'
  exact ⟨hnot'', fun hnone => hrel' (hrel hnone)⟩

/-- The discipline of calls whose failures are real. -/
def refundDiscipline (calls : List ProviderCall) : Discipline Sql Outside Store where
  inv := RefundInv
  rely := Waits
  cond := FailuresReal calls
  good _ _ _ _ _ _ := True
  rely_refl := Waits.refl
  rely_trans _ _ _ _ := Waits.trans

/-! ### Statements -/

section statements

variable {pid : ℕ} {s : Store}

/-- The statements that insert nothing, send nothing and release nothing. -/
def Sql.Calm {β : Type} : Sql β → Prop
  | .insertTx .. | .createPaymentRequest .. | .providerFails .. => False
  | .payout step .. => step ≠ .release
  | _ => True

theorem Sql.Calm.harmless {β : Type} {st : Sql β} (h : st.Calm) : st.Harmless := by
  cases st <;> trivial

/-- A calm statement leaves the requests and the releases. -/
theorem Sql.Calm.run {β : Type} {st : Sql β} (h : st.Calm) (i : ℕ) (o : Outside) (s : Store) :
    (st.run i o s).2.requests = s.requests ∧
      ∀ id, (st.run i o s).2.ledger.posted .release id = s.ledger.posted .release id := by
  by_cases hq : st.quiet = true
  · have hsame := Sql.run_same hq i o s
    exact ⟨hsame.requests, fun id => hsame.find _⟩
  cases st with
  | payout step row amt =>
      change (s.post _ _).2.requests = _ ∧ ∀ id, (s.post _ _).2.ledger.posted _ id = _
      rcases s.post_cases step.op (step.params row amt) with
        ⟨e, he⟩ | ⟨m, -, he⟩ | ⟨amount, -, he⟩ <;> rw [he]
      · exact ⟨rfl, fun _ => rfl⟩
      · exact ⟨rfl, fun _ => rfl⟩
      · refine ⟨rfl, fun id => ?_⟩
        change (step.op.rule.posted _ _ _).posted .release id = _
        rw [posted_step, if_neg fun hc => h hc.1]
  | collection step row amt =>
      change (s.post _ _).2.requests = _ ∧ ∀ id, (s.post _ _).2.ledger.posted _ id = _
      rcases s.post_cases step.op (step.params row amt) with
        ⟨e, he⟩ | ⟨m, -, he⟩ | ⟨amount, -, he⟩ <;> rw [he]
      · exact ⟨rfl, fun _ => rfl⟩
      · exact ⟨rfl, fun _ => rfl⟩
      · refine ⟨rfl, fun id => posted_of_key_ne ?_⟩
        rw [CollectionStep.params_key]
        exact (PayoutStep.release.key_ne_collection step id row.id).symm
  | patchTx id status patch => exact ⟨rfl, fun _ => rfl⟩
  | insertTx draft => exact h.elim
  | createPaymentRequest id seq => exact h.elim
  | providerFails seq => exact h.elim
  | _ => exact absurd rfl hq

/-- A step that leaves the requests and the releases. -/
theorem RefundInv.keep {t : Store} (h : RefundInv s) (hinv : RequestInv t) {j : ℕ}
    (hspares : Spares j s t) (hreq : t.requests = s.requests)
    (hrel : ∀ id, t.ledger.posted .release id = s.ledger.posted .release id) :
    RefundInv t ∧ Waits j s t := by
  have hacc : ∀ id, Accepted t id ↔ Accepted s id := fun id => by rw [Accepted, Accepted, hreq]
  have hsent : ∀ id, Requested t id ↔ Requested s id := fun id => by
    rw [Requested, Requested, hreq]
  refine ⟨⟨hinv, fun id hid => ?_, fun id hid => ?_⟩, hspares, fun r _ _ hnot => ?_,
    fun id => (hsent id).mpr, fun id hgone => ?_⟩
  · rw [hrel]
    exact h.safe id ((hacc id).mp hid)
  · rw [hrel] at hid
    obtain ⟨r, hr, hrid⟩ := h.released id hid
    obtain ⟨r', hr', hid', -⟩ := hspares.rows r hr
    exact ⟨r', hr', hid'.trans hrid⟩
  · refine ⟨fun hs => hnot ((hsent _).mp hs), fun hnone => ?_⟩
    rw [hrel, hnone]
  · exact ⟨(hsent id).mpr hgone.1, fun ha => hgone.2 ((hacc id).mp ha)⟩

theorem RefundInv.calm (h : RefundInv s) {β : Type} (st : Sql β) (hst : st.Calm) (i : ℕ)
    (o : Outside) (j : ℕ) : RefundInv (st.run i o s).2 ∧ Waits j s (st.run i o s).2 := by
  obtain ⟨hreq, hrel⟩ := hst.run i o s
  have hkeep := h.toRequestInv.harmless hst.harmless i o j
  exact h.keep hkeep.1 hkeep.2 hreq hrel

/-- A row of the process for which nothing was sent or released. -/
structure Fresh (pid id : ℕ) (s : Store) : Prop where
  owns : Owns pid id s
  notRequested : ¬ Requested s id
  notReleased : s.ledger.posted .release id = none

/-- A payout whose release is safe, and stays so. -/
def Refundable (pid id : ℕ) (s : Store) : Prop := Fresh pid id s ∨ Gone s id

theorem Fresh.mono {id : ℕ} {t : Store} (h : Fresh pid id s) (hw : Waits pid s t) :
    Fresh pid id t := by
  obtain ⟨hunsent, r, hr, hid, hcreator⟩ := h.owns
  have hnot : ¬ Requested s r.id := by rw [hid]; exact h.notRequested
  obtain ⟨hnot', hrel⟩ := hw.unreleased r hr hcreator hnot
  rw [hid] at hnot' hrel
  exact ⟨stable_owns id s t h.owns hw.toSpares, hnot', hrel h.notReleased⟩

theorem Refundable.mono {id : ℕ} {t : Store} (h : Refundable pid id s) (hw : Waits pid s t) :
    Refundable pid id t := h.imp (fun hf => hf.mono hw) (hw.gone id)

theorem Refundable.not_accepted {id : ℕ} (h : Refundable pid id s) : ¬ Accepted s id := by
  rcases h with hfresh | hgone
  · exact fun ⟨q, hq, hid, _⟩ => hfresh.notRequested ⟨q, hq, hid⟩
  · exact hgone.2

theorem RefundInv.insert (h : RefundInv s) {draft : TxRow} {i : ℕ} {o : Outside}
    (hfree : KeyFree i (.insertTx draft) o s) (pid j : ℕ) :
    RefundInv { s with
      txs := { draft with id := s.nextId, creator := pid } :: s.txs
      nextId := s.nextId + 1 } ∧
    Waits j s { s with
      txs := { draft with id := s.nextId, creator := pid } :: s.txs
      nextId := s.nextId + 1 } := by
  obtain ⟨hinv, hspares⟩ := h.toRequestInv.insert hfree pid j
  exact h.keep hinv hspares rfl fun _ => rfl

/-- Nothing was sent or released for a row not inserted yet. -/
theorem RefundInv.fresh_nextId (h : RefundInv s) :
    ¬ Requested s s.nextId ∧ s.ledger.posted .release s.nextId = none := by
  have hnew : ∀ r ∈ s.txs, r.id ≠ s.nextId := fun r hr hid =>
    lt_irrefl s.nextId (hid ▸ h.below r hr)
  constructor
  · rintro ⟨q, hq, hid⟩
    obtain ⟨r, hr, hrid, -⟩ := h.owned q hq
    exact hnew r hr (hrid.trans hid)
  · by_contra hposted
    obtain ⟨r, hr, hid⟩ := h.released _ hposted
    exact hnew r hr hid

/-- A process sends the request of its fresh row. -/
theorem RefundInv.send (h : RefundInv s) {id : ℕ} (hfresh : Fresh pid id s)
    (sequenceId : String) (status : RequestStatus) :
    RefundInv (s.request id sequenceId status pid) ∧
      ∀ j, j ≠ pid → Waits j s (s.request id sequenceId status pid) := by
  obtain ⟨hinv, hspares⟩ := h.toRequestInv.send hfresh.owns sequenceId status
  obtain ⟨-, r, hr, hid, hcreator⟩ := hfresh.owns
  refine ⟨⟨hinv, ?_, h.released⟩, fun j hj => ⟨hspares j hj, ?_, ?_, ?_⟩⟩
  · rintro id' ⟨q, hq, hqid, hstatus⟩
    rcases List.mem_cons.mp hq with rfl | hq
    · rw [← hqid]
      exact hfresh.notReleased
    · exact h.safe id' ⟨q, hq, hqid, hstatus⟩
  · refine fun r' hr' hj' hnot => ⟨?_, fun hnone => hnone⟩
    rintro ⟨q, hq, hqid⟩
    rcases List.mem_cons.mp hq with rfl | hq
    · have hrr : r' = r := h.eq_of_id hr' hr (hqid.symm.trans hid.symm)
      rw [hrr, hcreator] at hj'
      exact hj hj'.symm
    · exact hnot ⟨q, hq, hqid⟩
  · exact fun id' ⟨q, hq, hqid⟩ => ⟨q, List.mem_cons_of_mem _ hq, hqid⟩
  · rintro id' ⟨⟨q, hq, hqid⟩, hnot⟩
    refine ⟨⟨q, List.mem_cons_of_mem _ hq, hqid⟩, ?_⟩
    rintro ⟨q', hq', hqid', hstatus⟩
    rcases List.mem_cons.mp hq' with rfl | hq'
    · exact hfresh.notRequested ⟨q, hq, hqid.trans hqid'.symm⟩
    · exact hnot ⟨q', hq', hqid', hstatus⟩

/-- A release of a refundable payout. -/
theorem RefundInv.release (h : RefundInv s) {row : TxRow} (amt amount : ℚ)
    (href : Refundable pid row.id s) {t : Store} (ht : t = { s with
      ledger := PayoutStep.release.op.rule.posted (PayoutStep.release.params row amt) amount
        s.ledger }) : RefundInv t ∧ ∀ j, j ≠ pid → Waits j s t := by
  subst ht
  have hposted : ∀ id, row.id ≠ id →
      (PayoutStep.release.op.rule.posted (PayoutStep.release.params row amt) amount
        s.ledger).posted .release id = s.ledger.posted .release id := fun id hid => by
    rw [posted_step, if_neg fun hc => hid hc.2]
  refine ⟨⟨⟨⟨h.ids, h.keys, h.below⟩, h.owned, h.senders⟩, fun id hacc => ?_, fun id hrel => ?_⟩,
    fun j hj => ⟨⟨id, fun r hr => ⟨r, hr, rfl, rfl⟩⟩, fun r hr hj' hnot =>
      ⟨hnot, fun hnone => ?_⟩, fun _ => id, fun _ => id⟩⟩
  · have hid : row.id ≠ id := fun hid => href.not_accepted (hid ▸ hacc)
    exact (hposted id hid).trans (h.safe id hacc)
  · by_cases hid : row.id = id
    · rcases href with hfresh | ⟨⟨q, hq, hqid⟩, -⟩
      · obtain ⟨-, r, hr, hrid, -⟩ := hfresh.owns
        exact ⟨r, hr, hrid.trans hid⟩
      · obtain ⟨r, hr, hrid, -⟩ := h.owned q hq
        exact ⟨r, hr, hrid.trans (hqid.trans hid)⟩
    · exact h.released id fun hnone => hrel ((hposted id hid).trans hnone)
  · have hid : row.id ≠ r.id := by
      intro hid
      rcases href with hfresh | hgone
      · obtain ⟨-, r', hr', hrid, hcreator⟩ := hfresh.owns
        have hrr : r' = r := h.eq_of_id hr' hr (hrid.trans hid)
        rw [hrr] at hcreator
        exact hj (hj'.symm.trans hcreator)
      · exact hnot (hid ▸ hgone.1)
    exact (hposted r.id hid).trans hnone

/-- The provider gives up payments. -/
theorem RefundInv.fails (h : RefundInv s) (sequenceId : String) (i : ℕ) (o : Outside) (j : ℕ) :
    RefundInv ((Sql.providerFails sequenceId).run i o s).2 ∧
      Waits j s ((Sql.providerFails sequenceId).run i o s).2 := by
  set f : Request → Request := fun r =>
    if r.sequenceId = sequenceId && r.status = .accepted then { r with status := .failed } else r
    with hf
  have hfid : ∀ q, (f q).payoutId = q.payoutId ∧ (f q).sender = q.sender := fun q => by
    simp only [hf]
    split_ifs <;> exact ⟨rfl, rfl⟩
  have hfacc : ∀ q, (f q).status = .accepted → q.status = .accepted := fun q hq => by
    simp only [hf] at hq
    split_ifs at hq
    exact hq
  change RefundInv { s with requests := s.requests.map f } ∧
    Waits j s { s with requests := s.requests.map f }
  have hacc : ∀ id, Accepted { s with requests := s.requests.map f } id → Accepted s id := by
    rintro id ⟨q, hq, hid, hstatus⟩
    obtain ⟨q₀, hq₀, rfl⟩ := List.mem_map.mp hq
    exact ⟨q₀, hq₀, (hfid q₀).1 ▸ hid, hfacc q₀ hstatus⟩
  have hreq : ∀ id, Requested { s with requests := s.requests.map f } id ↔ Requested s id := by
    intro id
    constructor
    · rintro ⟨q, hq, hid⟩
      obtain ⟨q₀, hq₀, rfl⟩ := List.mem_map.mp hq
      exact ⟨q₀, hq₀, (hfid q₀).1 ▸ hid⟩
    · rintro ⟨q, hq, hid⟩
      exact ⟨f q, List.mem_map_of_mem hq, (hfid q).1.trans hid⟩
  refine ⟨⟨⟨⟨h.ids, h.keys, h.below⟩, ?_, ?_⟩, fun id hid => h.safe id (hacc id hid), h.released⟩,
    ⟨fun hs q hq => ?_, fun r hr => ⟨r, hr, rfl, rfl⟩⟩,
    fun r _ _ hnot => ⟨fun hr => hnot ((hreq _).mp hr), fun hnone => hnone⟩,
    fun id => (hreq id).mpr, fun id hgone =>
      ⟨(hreq id).mpr hgone.1, fun ha => hgone.2 (hacc id ha)⟩⟩
  · intro q hq
    obtain ⟨q₀, hq₀, rfl⟩ := List.mem_map.mp hq
    rw [(hfid q₀).1, (hfid q₀).2]
    exact h.owned q₀ hq₀
  · exact List.pairwise_map.mpr (h.senders.imp fun {a b} hab => by
      rwa [(hfid a).2, (hfid b).2])
  · obtain ⟨q₀, hq₀, rfl⟩ := List.mem_map.mp hq
    rw [(hfid q₀).2]
    exact hs q₀ hq₀

end statements

/-! ### The programs -/

section programs

variable {calls : List ProviderCall} {pid : ℕ} {β : Type} {P : Store → Prop}

/-- The call keeps the discipline from `P`; what it returns and throws meets `Q` and `E`. -/
abbrev Refunds (calls : List ProviderCall) (pid : ℕ) (P : Store → Prop) (p : Call β)
    (Q : β → Store → Prop) (E : Err → Store → Prop) : Prop :=
  Triple services (refundDiscipline calls) pid P p Q E

/-- An assertion the steps of the others keep. -/
abbrev Kept (calls : List ProviderCall) (pid : ℕ) (P : Store → Prop) : Prop :=
  Stable (refundDiscipline calls) pid P

theorem kept_true : Kept calls pid fun _ => True := fun _ _ _ _ => trivial

theorem kept_fresh (id : ℕ) : Kept calls pid (Fresh pid id) := fun _ _ h hw => h.mono hw

theorem kept_refundable (id : ℕ) : Kept calls pid (Refundable pid id) := fun _ _ h hw => h.mono hw

theorem kept_requested (id : ℕ) : Kept calls pid fun s => Requested s id :=
  fun _ _ h hw => hw.requested id h

theorem kept_unsent : Kept calls pid (Unsent pid) := fun _ _ h hw => hw.toSpares.unsent h

/-- Calls made of calm statements. -/
theorem calm_call {p : Call β} (hp : OnlyE Sql.Calm p) (hkept : Kept calls pid P) :
    Refunds calls pid P p (fun _ => P) fun _ => P := by
  refine triple_only hp hkept (fun {γ} st hst t ht hinv o _ _ => ?_) fun _ _ _ => trivial
  have hkeep := fun j => RefundInv.calm hinv st hst pid o j
  exact ⟨⟨trivial, (hkeep 0).1, fun j _ => (hkeep j).2⟩, hkept t _ ht (hkeep pid).2⟩

/-- The same, when what is thrown is not looked at. -/
theorem calm_any {p : Call β} (hp : OnlyE Sql.Calm p) (hkept : Kept calls pid P) :
    Refunds calls pid P p (fun _ => P) fun _ _ => True :=
  (calm_call hp hkept).mono (fun _ hs => hs) (fun _ _ hq => hq) fun _ _ _ => trivial

theorem calm_of_payout {step : PayoutStep} {p : Call β} (hp : OnlyE (Sql.OfPayout step) p)
    (hstep : step ≠ .release) : OnlyE Sql.Calm p :=
  hp.mono fun st hst => by
    cases st with
    | payout step' row amt => exact fun hrel => hstep (hst.symm.trans hrel)
    | _ => trivial

theorem calm_of_collection {p : Call β} (hp : OnlyE Sql.OfCollection p) : OnlyE Sql.Calm p :=
  hp.mono fun st hst => by cases st <;> trivial

/-- An insert makes a fresh row. -/
theorem insert_refunds (draft : TxRow) :
    Refunds calls pid (Unsent pid) (sql (.insertTx draft))
      (fun found s => ∃ row, found = some row ∧ Fresh pid row.id s) fun _ _ => True := by
  refine triple_sql rfl kept_unsent (fun t ht hinv o hc _ => ?_) fun _ _ _ _ _ _ =>
    ⟨trivial, trivial⟩
  have hfree : KeyFree pid (.insertTx draft) o t := hc
  rw [insertTx_run hfree]
  have hkeep := fun j => RefundInv.insert hinv hfree pid j
  obtain ⟨hnot, hrel⟩ := RefundInv.fresh_nextId hinv
  exact ⟨⟨trivial, (hkeep 0).1, fun j _ => (hkeep j).2⟩, _, rfl,
    ⟨ht, _, List.mem_cons_self, rfl, rfl⟩, hnot, hrel⟩

/-- The request of a fresh row: accepted, or the payout stays refundable. -/
theorem send_refunds (id : ℕ) (sequenceId : String) :
    Refunds calls pid (Fresh pid id) (sql (.createPaymentRequest id sequenceId))
      (fun _ s => Requested s id) fun _ s => Refundable pid id s := by
  refine triple_sql rfl (kept_fresh id) (fun t ht hinv o hc _ => ?_) fun t ht _ _ _ _ =>
    ⟨trivial, .inl ht⟩
  obtain ⟨status, hstatus⟩ := send_run pid id sequenceId o t
  have hsend := RefundInv.send hinv ht sequenceId status
  refine ⟨⟨trivial, by rw [hstatus]; exact hsend.1, fun j hj => by
    rw [hstatus]; exact hsend.2 j hj⟩, ?_⟩
  have hreal : o.provider ≠ .acceptedThenError := hc
  simp only [Sql.run]
  cases hp : o.provider with
  | accepted => exact ⟨_, List.mem_cons_self, rfl⟩
  | acceptedThenError => exact absurd hp hreal
  | rejected =>
      refine .inr ⟨⟨_, List.mem_cons_self, rfl⟩, ?_⟩
      rintro ⟨q, hq, hid, hacc⟩
      rcases List.mem_cons.mp hq with rfl | hq
      · cases hacc
      · exact ht.notRequested ⟨q, hq, hid⟩

/-- The update after an accepted request fails only when the payment is gone. -/
theorem processing_refunds (hpid : calls[pid]?.any ProviderCall.isCreate = true) (id : ℕ)
    (status : Option String) (patch : Meta → Meta) :
    Refunds calls pid (fun s => Requested s id) (sql (.patchTx id status patch))
      (fun _ _ => True) fun _ s => Refundable pid id s := by
  refine triple_sql rfl (kept_requested id) (fun t _ hinv o _ _ => ?_)
    fun t ht _ o hc hf => ⟨trivial, .inr ⟨ht, hc hf hpid⟩⟩
  have hkeep := fun j =>
    RefundInv.calm hinv (.patchTx id status patch) trivial pid o j
  exact ⟨⟨trivial, (hkeep 0).1, fun j _ => (hkeep j).2⟩, trivial⟩

theorem release_refunds (row : TxRow) (amt : ℚ) :
    Refunds calls pid (Refundable pid row.id) (sql (.payout .release row amt))
      (fun _ _ => True) fun _ _ => True := by
  refine triple_sql rfl (kept_refundable row.id) (fun t ht hinv o _ _ => ?_)
    fun _ _ _ _ _ _ => ⟨trivial, trivial⟩
  refine ⟨?_, by unfold Answers; split <;> trivial⟩
  change StepOk _ _ _ _ _ (t.post PayoutStep.release.op (PayoutStep.release.params row amt))
  rcases t.post_cases PayoutStep.release.op (PayoutStep.release.params row amt) with
    ⟨e, he⟩ | ⟨m, -, he⟩ | ⟨amount, -, he⟩ <;> rw [he]
  · exact ⟨trivial, hinv, fun j _ => Waits.refl j t⟩
  · exact ⟨trivial, hinv, fun j _ => Waits.refl j t⟩
  · have hrel := RefundInv.release hinv amt amount ht rfl
    exact ⟨trivial, hrel.1, hrel.2⟩

/-- A row is loaded under its own identifier. -/
theorem load_refunds (hkept : Kept calls pid P) (direction : TxDirection) (id : ℕ)
    (orgId : Option String) :
    Refunds calls pid P (loadDirected direction id orgId) (fun row s => row.id = id ∧ P s)
      fun _ _ => True := by
  unfold loadDirected
  refine Triple.bind (R := fun found s => (∀ row, found = some row → row.id = id) ∧ P s) ?_
    fun found => ?_
  · refine triple_sql rfl hkept (fun t ht hinv o _ _ => ?_) fun _ _ _ _ _ _ => ⟨trivial, trivial⟩
    have hkeep := fun j => RefundInv.calm hinv (.loadTx id orgId) trivial pid o j
    refine ⟨⟨trivial, (hkeep 0).1, fun j _ => (hkeep j).2⟩, fun row hrow => ?_, ht⟩
    exact (Store.tx_mem (Option.filter_eq_some_iff.mp hrow).1).2
  · cases found with
    | none => exact Triple.throw fun _ _ => trivial
    | some row =>
        exact Triple.ite (fun _ => Triple.pure fun s hs => ⟨hs.1 row rfl, hs.2⟩) fun _ =>
          Triple.throw fun _ _ => trivial

theorem releasePayoutLock_refunds (orgId : Option String) (id : ℕ) :
    Refunds calls pid (Refundable pid id) (releasePayoutLock orgId id) (fun _ _ => True)
      fun _ _ => True := by
  unfold releasePayoutLock
  refine Triple.bind (load_refunds (kept_refundable id) _ _ _) fun row => ?_
  refine Triple.assume fun hid => ?_
  subst hid
  refine Triple.ite (fun _ => Triple.throw fun _ _ => trivial) fun _ => ?_
  cases metaUsdc row with
  | none => exact Triple.throw fun _ _ => trivial
  | some amt =>
      refine Triple.bind (release_refunds row amt) fun release => ?_
      refine Triple.bind (calm_any (sql_only trivial) kept_true) fun _ => ?_
      exact Triple.bind (calm_any (sql_only trivial) kept_true) fun _ =>
        Triple.pure fun _ _ => trivial

theorem submitToProvider_refunds (hpid : calls[pid]?.any ProviderCall.isCreate = true)
    (orgId : String) (id : ℕ) (sequenceId : String) :
    Refunds calls pid (Fresh pid id) (submitToProvider orgId id sequenceId) (fun _ _ => True)
      fun _ _ => True := by
  unfold submitToProvider
  have hchannels : OnlyE Sql.Calm (sql .external) := sql_only trivial
  refine Triple.tryCatch (F := fun _ s => Refundable pid id s) ?_ fun e => ?_
  · refine Triple.bind ((calm_call hchannels (kept_fresh id)).mono (fun _ hs => hs)
      (fun _ _ hq => hq) fun _ _ he => .inl he) fun _ => ?_
    refine Triple.bind (send_refunds id sequenceId) fun _ => ?_
    exact processing_refunds hpid id _ _
  · refine Triple.bind (R := fun _ _ => True) (Triple.tryCatch (F := fun _ _ => True)
      (Triple.bind (releasePayoutLock_refunds _ id) fun _ => Triple.pure fun _ _ => trivial)
      fun _ => Triple.pure fun _ _ => trivial) fun _ => ?_
    exact Triple.throw fun _ _ => trivial

theorem insertTx_refunds (draft : TxRow) (fingerprint : Fingerprint) :
    Refunds calls pid (Unsent pid) (insertTx draft fingerprint) (fun row => Fresh pid row.id)
      fun _ _ => True := by
  unfold insertTx
  refine Triple.bind (insert_refunds draft) fun found => ?_
  cases found with
  | none =>
      rintro s ⟨row, hrow, -⟩
      cases hrow
  | some row =>
      refine Triple.pure fun s hs => ?_
      obtain ⟨row', hrow', hfresh⟩ := hs
      cases hrow'
      exact hfresh

theorem lockFundsForPayout_calm (orgId : String) (id : ℕ) :
    OnlyE Sql.Calm (lockFundsForPayout orgId id) := by
  unfold lockFundsForPayout
  have hpatch : ∀ patch, OnlyE Sql.Calm (sql (.patchTx id (some "failed") patch)) :=
    fun _ => sql_only trivial
  refine .tryCatch (calm_of_payout (lockPayoutFunds_only orgId id) (by decide)) fun e => ?_
  exact .bind (hpatch _) fun _ => .throw e

theorem calm_of_quiet {p : Call β} (hp : OnlyE (fun st => st.quiet = true) p) :
    OnlyE Sql.Calm p :=
  hp.mono fun st hst => by cases st <;> trivial

theorem payoutRules_refunds (hpid : calls[pid]?.any ProviderCall.isCreate = true) :
    PayoutRules (refundDiscipline calls) pid (Unsent pid) (Fresh pid) where
  quiet := by
    rintro P (rfl | ⟨id, rfl⟩ | rfl) β p hp
    · exact calm_any (calm_of_quiet hp) kept_unsent
    · exact calm_any (calm_of_quiet hp) (kept_fresh id)
    · exact calm_any (calm_of_quiet hp) kept_true
  insert draft fingerprint _ _ := insertTx_refunds draft fingerprint
  lock orgId id := calm_any (lockFundsForPayout_calm orgId id) (kept_fresh id)
  mark id := calm_any (sql_only trivial) (kept_fresh id)
  submit := submitToProvider_refunds hpid

/-- A failure report releases only a payment that is gone. -/
theorem applyPayoutWebhook_refunds (row : TxRow) (mapped : Option ProviderStatus) :
    Refunds calls pid (fun s => mapped = some .failed → Gone s row.id)
      (applyPayoutWebhook row mapped) (fun _ _ => True) fun _ _ => True := by
  have hpatch : ∀ status, OnlyE Sql.Calm (sql (.patchTx row.id status id)) :=
    fun _ => sql_only trivial
  have hupdate : ∀ which f, OnlyE Sql.Calm (sql (.updateSettlements which f)) :=
    fun _ _ => sql_only trivial
  unfold applyPayoutWebhook
  split
  · refine (calm_any ?_ kept_true).mono (fun _ _ => trivial) (fun _ _ hq => hq)
      fun _ _ he => he
    refine .ite (.pure _) (.ite (.pure _) (.bind (.tryCatch (.bind (calm_of_payout
      (finalizePayoutDebit_only _ _) (by decide)) fun _ => .pure _) fun e =>
        .ite (.pure _) (.throw _)) fun released => .ite (.pure _) (.ite ?_ (.pure _))))
    exact .bind (hupdate _ _) fun _ => .bind (hpatch _) fun _ => .pure _
  · refine Triple.ite (fun _ => Triple.pure fun _ _ => trivial) fun _ => ?_
    refine Triple.ite (fun _ => ?_) fun _ => ?_
    · exact (calm_any (.bind (hpatch _) fun _ => .bind (hupdate _ _) fun _ => .pure _)
        kept_true).mono (fun _ _ => trivial) (fun _ _ hq => hq) fun _ _ he => he
    · have hrelease : Refunds calls pid (fun s => some ProviderStatus.failed = some .failed →
          Gone s row.id) (releasePayoutLock none row.id) (fun _ _ => True) fun _ _ => True :=
        (releasePayoutLock_refunds none row.id).mono (fun _ hs => .inr (hs rfl))
          (fun _ _ hq => hq) fun _ _ he => he
      exact Triple.bind (R := fun _ _ => True) (Triple.tryCatch (F := fun _ _ => True)
        (Triple.bind hrelease fun _ => Triple.pure fun _ _ => trivial)
        fun e => Triple.ite (fun _ => Triple.pure fun _ _ => trivial)
          fun _ => Triple.throw fun _ _ => trivial) fun _ => Triple.pure fun _ _ => trivial
  · exact Triple.pure fun _ _ => trivial

theorem applyCollectionWebhook_calm (row : TxRow) (mapped : Option ProviderStatus) :
    OnlyE Sql.Calm (applyCollectionWebhook row mapped) := by
  have hpatch : OnlyE Sql.Calm (sql (.patchTx row.id (some "failed") id)) := sql_only trivial
  unfold applyCollectionWebhook
  split
  · exact .bind (calm_of_collection (settleCollectionCredit_only _ _)) fun _ => .pure _
  · exact .ite (.pure _) (.bind hpatch fun _ => .pure _)
  · exact .pure _

/-- The payout a failure report is loaded for is gone. -/
theorem loadTxByExternalId_refunds {payload : YellowCardWebhookPayload}
    (hpid : calls[pid]? = some (.webhook payload)) (sequenceId : String) :
    Refunds calls pid (fun _ => True) (sql (.loadTxByExternalId sequenceId))
      (fun found s => ∀ row, found = some row →
        resolveWalletStatusFromYellowCardWebhook payload = some .failed → Gone s row.id)
      fun _ _ => True := by
  refine triple_sql rfl kept_true (fun t _ hinv o hc _ => ?_) fun _ _ _ _ _ _ =>
    ⟨trivial, trivial⟩
  have hkeep := fun j =>
    RefundInv.calm hinv (.loadTxByExternalId sequenceId) trivial pid o j
  refine ⟨⟨trivial, (hkeep 0).1, fun j _ => (hkeep j).2⟩, fun row hrow hfailed => ?_⟩
  have hreports : calls[pid]?.any ProviderCall.reportsFailure = true := by
    simp [hpid, ProviderCall.reportsFailure, hfailed]
  have hexternal : row.externalId = some sequenceId := by simpa using List.find?_some hrow
  exact hc hreports row (List.mem_of_find?_eq_some hrow) hexternal

theorem applyInfraYellowCardWebhook_refunds {payload : YellowCardWebhookPayload}
    (hpid : calls[pid]? = some (.webhook payload)) :
    Refunds calls pid (fun _ => True) (applyInfraYellowCardWebhook payload) (fun _ _ => True)
      fun _ _ => True := by
  unfold applyInfraYellowCardWebhook
  dsimp only
  refine Triple.ite (fun _ => Triple.pure fun _ _ => trivial) fun _ => ?_
  refine Triple.bind (loadTxByExternalId_refunds hpid _) fun found => ?_
  cases found with
  | none => exact Triple.pure fun _ _ => trivial
  | some row =>
      dsimp only
      split
      · exact (calm_any (applyCollectionWebhook_calm _ _) kept_true).mono (fun _ _ => trivial)
          (fun _ _ hq => hq) fun _ _ he => he
      · refine Triple.ite (fun _ => Triple.pure fun _ _ => trivial) fun _ => ?_
        exact (applyPayoutWebhook_refunds row _).mono (fun _ hs => hs row rfl)
          (fun _ _ hq => hq) fun _ _ he => he

theorem providerFails_refunds (sequenceId : String) :
    Refunds calls pid (fun _ => True) (sql (.providerFails sequenceId)) (fun _ _ => True)
      fun _ _ => True := by
  refine triple_sql rfl kept_true (fun t _ hinv o _ _ => ?_) fun _ _ _ _ _ _ =>
    ⟨trivial, trivial⟩
  have hfails := fun j => RefundInv.fails hinv sequenceId pid o j
  exact ⟨⟨trivial, (hfails 0).1, fun j _ => (hfails j).2⟩, trivial⟩

theorem ProviderCall.verifies {call : ProviderCall} (hpid : calls[pid]? = some call) :
    Verifies (refundDiscipline calls) pid (Unsent pid) call.program := by
  cases call with
  | create input =>
      exact discard_verifies ((payoutRules_refunds (by simp [hpid, isCreate])).createPayout input)
  | webhook payload =>
      exact discard_verifies ((applyInfraYellowCardWebhook_refunds hpid).mono
        (fun _ _ => trivial) (fun _ _ hq => hq) fun _ _ he => he)
  | fails sequenceId =>
      exact discard_verifies ((providerFails_refunds sequenceId).mono
        (fun _ _ => trivial) (fun _ _ hq => hq) fun _ _ he => he)

end programs

/-! ### Whole runs -/

/-- The pool of a list of calls. -/
def providerCalls (s : Store) (calls : List ProviderCall) : Pool Sql Unit Store :=
  ⟨s, calls.map ProviderCall.program⟩

/-- **No payout is refunded and paid.** In every run of any calls, in any interleaving, in which
failures are real, no payout is refunded while the provider holds a payment for it. -/
theorem never_refunded_and_paid {s : Store} (htable : TxTable s) (hnone : s.requests = [])
    (hreleased : ∀ id, s.ledger.posted .release id ≠ none → ∃ r ∈ s.txs, r.id = id)
    (calls : List ProviderCall) (sched : List (ℕ × Outside))
    (hreal : Pool.Along services (Pool.CondAt (FailuresReal calls)) (providerCalls s calls) sched) :
    NotRefundedAndPaid ((providerCalls s calls).run services sched).store := by
  have hinv : RefundInv s := by
    refine ⟨⟨htable, ?_, ?_⟩, ?_, hreleased⟩
    · rw [hnone]
      exact fun q hq => by cases hq
    · rw [hnone]
      exact .nil
    · rintro id ⟨q, hq, -⟩
      rw [hnone] at hq
      cases hq
  have hstart : Pool.Verified services (refundDiscipline calls) (fun _ _ _ => True)
      (providerCalls s calls) := by
    refine Pool.Verified.start hinv fun i p hp => ?_
    have hi : (calls.map ProviderCall.program)[i]? = some p := hp
    rw [List.getElem?_map, Option.map_eq_some_iff] at hi
    obtain ⟨call, hcall, rfl⟩ := hi
    refine ProviderCall.verifies hcall s fun q hq => ?_
    rw [hnone] at hq
    cases hq
  exact (Pool.run_sound hstart sched hreal).1.1.safe

/-- One payout, all its steps, the provider answering `provider`. -/
def calledOnce (provider : ProviderOutcome) : List (ℕ × Outside) :=
  steps 0 20 { provider := provider }

/-- The provider rejects the payment: refunded, and not paid. -/
theorem never_refunded_and_paid_rejected :
    NotRefundedAndPaid ((providerCalls fundedOrg [.create bankPayout]).run services
      (calledOnce .rejected)).store :=
  never_refunded_and_paid fundedOrg_table rfl (fun _ hne => absurd rfl hne) [.create bankPayout]
    (calledOnce .rejected) (by decide +kernel)

/-- The provider accepts the payment and the call times out: refunded and paid. -/
theorem refunded_and_paid :
    TxTable fundedOrg ∧ ¬ NotRefundedAndPaid ((providerCalls fundedOrg [.create bankPayout]).run
      services (calledOnce .acceptedThenError)).store := by
  refine ⟨fundedOrg_table, fun h => ?_⟩
  have hreleased := h 2
  revert hreleased
  decide +kernel

end DayfiBackend.Infra
