import DayfiBackend.Consumer.BalanceAgreement
import DayfiBackend.Flow.Watch

/-!
# What is returned of the money held

The flows of old hold their money from the start. Before each payment its amount is credited back,
under a key of the flow and the schedule, and a cancellation credits what is left, under a key of
its own, in NGN; what is left is worked out from `spentAmount`, which a run writes when it is done.
`ReturnsHolds` says that no more comes back than was held, in its currency, and all of it once the
flow is cancelled; `held_funds_are_returned` is the result for the runs in which every release is
credited and paid, and nobody works out what is left while it is outstanding.
-/

namespace DayfiBackend.Flow

open DayfiBackend.Found DayfiBackend.Found.Prog
open DayfiBackend.Consumer (decimal cents cents_decimal)

/-! ### The property -/

/-- What has been returned of the money held for a flow. -/
def Tables.returns (T : Tables) (id : String) : List Movement := T.movements.filter (·.flowId = id)

/-- How much that is, in cents. -/
def amountOf (returns : List Movement) : ℤ := (returns.map (·.amount)).sum

/-- The money held for a flow is returned exactly. -/
structure FlowRow.ReturnsHold (r : FlowRow) (returns : List Movement) : Prop where
  currency : ∀ m ∈ returns, m.currency = r.flowCurrency
  le : amountOf returns ≤ r.heldAmount
  all : r.status = .cancelled → amountOf returns = r.heldAmount

instance (r : FlowRow) (returns : List Movement) : Decidable (r.ReturnsHold returns) :=
  decidable_of_iff ((∀ m ∈ returns, m.currency = r.flowCurrency) ∧
      amountOf returns ≤ r.heldAmount ∧ (r.status = .cancelled → amountOf returns = r.heldAmount))
    ⟨fun h => ⟨h.1, h.2.1, h.2.2⟩, fun h => ⟨h.currency, h.le, h.all⟩⟩

/-- The money held for flows is returned exactly. -/
def Tables.ReturnsHolds (T : Tables) : Prop :=
  ∀ r ∈ T.flows, isPayOnDueFlow r = false → r.ReturnsHold (T.returns r.id)

/-- What is returned is counted as spent, as long as a flow is active. -/
def Tables.Settled (T : Tables) : Prop :=
  ∀ r ∈ T.flows, isPayOnDueFlow r = false → r.status = .active →
    amountOf (T.returns r.id) = r.spentAmount

instance (T : Tables) : Decidable T.ReturnsHolds := by
  unfold Tables.ReturnsHolds
  infer_instance

instance (T : Tables) : Decidable T.Settled := by
  unfold Tables.Settled
  infer_instance

/-! ### The condition -/

/-- The row of a flow that holds money is as a call has read it. -/
def Watched.HeldAsRead (i : ℕ) (id : String) (s : Watched) : Prop :=
  ∀ r ∈ s.2.rows i, r.id = id → isPayOnDueFlow r = false → r ∈ s.1.flows

instance (i : ℕ) (id : String) (s : Watched) : Decidable (s.HeldAsRead i id) := by
  unfold Watched.HeldAsRead
  infer_instance

/-- The credit of a call is of whole cents and in the currency held, and no credit of the flow is
outstanding: but for those of the run itself, when they are paid. -/
def CreditParams.Clean (p : CreditParams) (i : ℕ) (s : Watched) : Prop :=
  match p.key with
  | .executionRelease .. => decimal (cents p.amount) = p.amount ∧
      ∀ c ∈ s.2.credits, c.flowId = p.flowId → c.caller = i ∧ c.paid = true
  | .release _ => (∀ r ∈ s.2.rows i, r.id = p.flowId → r.flowCurrency = "NGN") ∧
      ∀ c ∈ s.2.credits, c.flowId ≠ p.flowId

instance (p : CreditParams) (i : ℕ) (s : Watched) : Decidable (p.Clean i s) := by
  unfold CreditParams.Clean
  split <;> infer_instance

/-- The condition on the steps of a run: no credit is one that was made before, and a flow that
holds money is as the call has read it when the call credits or writes it, with nothing credited
and unpaid. -/
def ReturnsCleanly {β : Type} (i : ℕ) (st : FlowSql β) (o : Except FlowError Outside)
    (s : Watched) : Prop :=
  match st, o with
  | .movementByKey key, .ok _ => s.1.movementByKey key = none
  | .credit p, .ok _ => s.HeldAsRead i p.flowId ∧ p.Clean i s
  | .saveRun id _ _ _, .ok _ => s.HeldAsRead i id ∧
      ∀ c ∈ s.2.credits, c.caller = i → c.flowId = id → c.paid = true
  | .setCancelled _ id _, .ok _ => s.HeldAsRead i id
  | _, _ => True

instance {β : Type} (i : ℕ) (st : FlowSql β) (o : Except FlowError Outside) (s : Watched) :
    Decidable (ReturnsCleanly i st o s) :=
  decidable_of_bool (match st, o with
    | .movementByKey key, .ok _ => decide (s.1.movementByKey key = none)
    | .credit p, .ok _ => decide (s.HeldAsRead i p.flowId ∧ p.Clean i s)
    | .saveRun id _ _ _, .ok _ => decide (s.HeldAsRead i id ∧
        ∀ c ∈ s.2.credits, c.caller = i → c.flowId = id → c.paid = true)
    | .setCancelled _ id _, .ok _ => decide (s.HeldAsRead i id)
    | _, _ => true) (by
      cases o <;> cases st <;>
        first | exact decide_eq_true_iff | exact iff_of_true rfl trivial)

/-! ### The invariant -/

/-- The credits of a flow that are not counted as spent yet, in cents. -/
def Record.outstanding (R : Record) (id : String) : List ℤ :=
  (R.credits.filter (·.flowId = id)).map (·.amount)

/-- A flow that holds money, with what was returned of it and what is outstanding of that. -/
structure FlowRow.Returning (r : FlowRow) (returns : List Movement) (outstanding : List ℤ) :
    Prop where
  currency : ∀ m ∈ returns, m.currency = r.flowCurrency
  le : amountOf returns ≤ r.heldAmount
  positive : ∀ a ∈ outstanding, 0 < a
  active : r.status = .active → amountOf returns = r.spentAmount + outstanding.sum
  cancelled : r.status = .cancelled → amountOf returns = r.heldAmount ∧ outstanding = []

/-- What holds at every step. -/
structure HoldInv (T : Tables) (R : Record) : Prop where
  returning : ∀ r ∈ T.flows, isPayOnDueFlow r = false →
    r.Returning (T.returns r.id) (R.outstanding r.id)
  kind : ∀ j, ∀ r ∈ R.rows j, ∀ r' ∈ T.flows, r'.id = r.id → isPayOnDueFlow r' = isPayOnDueFlow r

/-- The discipline of the money held. -/
def holdDiscipline : Discipline FlowSql (Except FlowError Outside) Watched :=
  flowDiscipline HoldInv ReturnsCleanly fun _ _ _ _ _ _ => True

/-- The credits of a call that are outstanding. -/
def Record.own (R : Record) (i : ℕ) : List OpenCredit := R.credits.filter (·.caller = i)

/-- How much they come to, in cents. -/
def creditOf (own : List OpenCredit) : ℤ := (own.map (·.amount)).sum

/-- What a call knows: the rows it has read, and its credits that are outstanding. -/
def Knows (i : ℕ) (rows : List FlowRow) (φ : List OpenCredit → Prop) (s : Watched) : Prop :=
  s.2.rows i = rows ∧ φ (s.2.own i)

/-- The outstanding credits of a run that has come so far with a flow. -/
structure RunsOn (flow : FlowRow) (p : Progress) (own : List OpenCredit) : Prop where
  on : ∀ c ∈ own, c.flowId = flow.id
  spent : isPayOnDueFlow flow = false → (∀ c ∈ own, c.paid = true) →
    decimal (creditOf own) = p.flowSpentDelta
  changed : p.changed = false → own = []

/-- A release is outstanding, and not paid. -/
structure Released (flow : FlowRow) (p : Progress) (amount : ℚ) (own : List OpenCredit) : Prop where
  on : ∀ c ∈ own, c.flowId = flow.id
  unpaid : ∃ c ∈ own, c.paid = false
  spent : decimal (creditOf own) = p.flowSpentDelta + amount

/-- What is left of the money held is returned, if there is something. -/
structure Refunded (row : FlowRow) (own : List OpenCredit) : Prop where
  on : ∀ c ∈ own, c.flowId = row.id
  all : isPayOnDueFlow row = false → row.heldAmount ≤ row.spentAmount + creditOf own

section held

variable {C : Calendar} {i : ℕ} {s t : Watched} {T T' : Tables} {R R' : Record}
  {rows : List FlowRow} {φ ψ : List OpenCredit → Prop} {α : Type} {r flow : FlowRow}
  {returns : List Movement} {outstanding : List ℤ}

/-! ### Amounts -/

theorem decimal_add (a b : ℤ) : decimal (a + b) = decimal a + decimal b := by
  unfold decimal
  push_cast
  ring

theorem decimal_sub (a b : ℤ) : decimal (a - b) = decimal a - decimal b := by
  unfold decimal
  push_cast
  ring

theorem decimal_le {a b : ℤ} : decimal a ≤ decimal b ↔ a ≤ b := by
  unfold decimal
  rw [div_le_div_iff_of_pos_right (by norm_num)]
  exact Int.cast_le

/-- Letters that are large stay so. -/
theorem toUpper_toUpper_char (c : Char) : c.toUpper.toUpper = c.toUpper := by
  by_cases h : 97 ≤ c.val ∧ c.val ≤ 122
  · have hval : c.toUpper.val = c.val + 4294967264 := by
      unfold Char.toUpper
      rw [dif_pos (by exact h)]
      rfl
    have hlarge : ¬ (97 ≤ c.toUpper.val ∧ c.toUpper.val ≤ 122) := by
      rw [hval]
      simp only [UInt32.le_iff_toNat_le, UInt32.toNat_add] at h ⊢
      simp at h ⊢
      omega
    conv_lhs => unfold Char.toUpper
    exact dif_neg hlarge
  · have hself : c.toUpper = c := by
      unfold Char.toUpper
      exact dif_neg h
    rw [hself, hself]

theorem toUpper_toUpper (s : String) : s.toUpper.toUpper = s.toUpper := by
  simp only [String.toUpper, String.map_map]
  congr 1
  funext c
  exact toUpper_toUpper_char c

theorem sum_filter_add {α : Type} (l : List α) (p : α → Bool) (f : α → ℤ) :
    ((l.filter p).map f).sum + ((l.filter fun x => !p x).map f).sum = (l.map f).sum := by
  rw [← List.sum_append, ← List.map_append]
  exact ((List.filter_append_perm p l).map f).sum_eq

/-! ### A flow that holds money -/

/-- An amount is credited. -/
theorem FlowRow.Returning.credit (h : r.Returning returns outstanding)
    (hactive : r.status = .active) {m : Movement}
    (hcurrency : m.currency = r.flowCurrency) (hpositive : 0 < m.amount)
    (hle : amountOf returns + m.amount ≤ r.heldAmount) :
    r.Returning (m :: returns) (m.amount :: outstanding) where
  currency := List.forall_mem_cons.mpr ⟨hcurrency, h.currency⟩
  le := by
    show m.amount + amountOf returns ≤ _
    omega
  positive := List.forall_mem_cons.mpr ⟨hpositive, h.positive⟩
  active _ := by
    have hspent := h.active hactive
    show m.amount + amountOf returns = r.spentAmount + (m.amount + outstanding.sum)
    omega
  cancelled hcancelled := by
    rw [hactive] at hcancelled
    cases hcancelled

/-- Some of what is outstanding is counted as spent. -/
theorem FlowRow.Returning.save (h : r.Returning returns outstanding) (hactive : r.status = .active)
    {rest : List ℤ} {spent : ℤ} (hsum : outstanding.sum = spent + rest.sum)
    (hrest : ∀ a ∈ rest, a ∈ outstanding) (schedules : List Schedule) (nextRunAt : Option ℕ) :
    FlowRow.Returning { r with
      schedules := schedules
      spentAmount := r.spentAmount + spent
      nextRunAt := nextRunAt } returns rest where
  currency := h.currency
  le := h.le
  positive a ha := h.positive a (hrest a ha)
  active _ := by
    have hspent := h.active hactive
    show amountOf returns = r.spentAmount + spent + rest.sum
    omega
  cancelled hcancelled := by
    have hcancelled' : r.status = .cancelled := hcancelled
    rw [hactive] at hcancelled'
    cases hcancelled'

/-- Nothing positive adds up to nothing. -/
theorem eq_nil_of_sum_le {l : List ℤ} (hpositive : ∀ a ∈ l, 0 < a) (hsum : l.sum ≤ 0) : l = [] := by
  cases l with
  | nil => rfl
  | cons a l =>
      obtain ⟨ha, hl⟩ := List.forall_mem_cons.mp hpositive
      have hnonneg := List.sum_nonneg fun x hx => (hl x hx).le
      rw [List.sum_cons] at hsum
      omega

/-- The flow is cancelled, and what was left of it is returned. -/
theorem FlowRow.Returning.cancel (h : r.Returning returns outstanding)
    (hactive : r.status = .active) {rest : List ℤ} {refunded : ℤ}
    (hsum : outstanding.sum = refunded + rest.sum)
    (hrest : ∀ a ∈ rest, a ∈ outstanding) (hall : r.heldAmount ≤ r.spentAmount + refunded)
    (now release : Option ℕ) :
    FlowRow.Returning { r with
      status := .cancelled
      cancelledAt := now
      releaseMovementId := release } returns rest where
  currency := h.currency
  le := h.le
  positive a ha := h.positive a (hrest a ha)
  active hactive' := by cases hactive'
  cancelled _ := by
    -- what others have outstanding does not fit into what is held
    have hspent := h.active hactive
    have hle := h.le
    have hnil : rest = [] := by
      refine eq_nil_of_sum_le (fun a ha => h.positive a (hrest a ha)) ?_
      omega
    refine ⟨le_antisymm hle ?_, hnil⟩
    rw [hnil, List.sum_nil] at hsum
    show r.heldAmount ≤ _
    omega

/-! ### Steps -/

/-- Rows are read, or a credit is paid. -/
theorem HoldInv.read (h : HoldInv T R) (hflows : T'.flows = T.flows)
    (hmovements : T'.movements = T.movements) (hsame : ∀ id, R'.outstanding id = R.outstanding id)
    (hrows : ∀ j, ∀ r ∈ R'.rows j, r ∈ R.rows j ∨ r ∈ T.flows) : HoldInv T' R' := by
  refine ⟨fun r hr hheld => ?_, fun j r hr r' hr' hid => ?_⟩
  · have hreturning := h.returning r (hflows ▸ hr) hheld
    unfold Tables.returns at hreturning ⊢
    rw [hmovements, hsame]
    exact hreturning
  · rcases hrows j r hr with hread | hrow
    · exact h.kind j r hread r' (hflows ▸ hr') hid
    · rw [List.inj_on_of_nodup_map T.ids (hflows ▸ hr') hrow hid]

/-- Rows are written. -/
theorem HoldInv.write (h : HoldInv T R) (R' : Record) {f : FlowRow → FlowRow}
    (hflows : T'.flows = T.flows.map f)
    (hrows : R'.rows = R.rows) (hid : ∀ r, (f r).id = r.id)
    (hkind : ∀ r, isPayOnDueFlow (f r) = isPayOnDueFlow r)
    (hrow : ∀ r ∈ T.flows, isPayOnDueFlow r = false →
      r.Returning (T.returns r.id) (R.outstanding r.id) →
        (f r).Returning (T'.returns r.id) (R'.outstanding r.id)) : HoldInv T' R' := by
  refine ⟨fun r' hr' hheld => ?_, fun j r hr r' hr' hsame => ?_⟩
  · rw [hflows] at hr'
    obtain ⟨r, hr, rfl⟩ := List.mem_map.mp hr'
    rw [hkind] at hheld
    rw [hid]
    exact hrow r hr hheld (h.returning r hr hheld)
  · rw [hrows] at hr
    rw [hflows] at hr'
    obtain ⟨r₀, hr₀, rfl⟩ := List.mem_map.mp hr'
    rw [hkind]
    exact h.kind j r hr r₀ hr₀ ((hid r₀).symm.trans hsame)

/-- The row of a flow that holds money is the one that a call has read. -/
theorem Watched.HeldAsRead.mem (hread : Watched.HeldAsRead i flow.id (T, R))
    (hrows : R.rows i = rows) (hflow : flow ∈ rows) (hheld : isPayOnDueFlow flow = false) :
    flow ∈ T.flows := hread flow (by rw [hrows]; exact hflow) rfl hheld

/-- An amount is credited for the row that a call has read. -/
theorem HoldInv.credit (h : HoldInv T R) (hflow : flow ∈ T.flows)
    (hheld : isPayOnDueFlow flow = false)
    (hactive : flow.status = .active) {p : CreditParams} (hid : p.flowId = flow.id)
    (hcurrency : p.currency.toUpper = flow.flowCurrency) (hpositive : 0 < cents p.amount)
    (hle : flow.spentAmount + (R.outstanding flow.id).sum + cents p.amount ≤ flow.heldAmount)
    (o : Outside) :
    HoldInv ((T.tick o.elapsed).credit p) ((FlowSql.credit p).record i o (.ok 0) R) := by
  refine ⟨fun r hr hr' => ?_, h.kind⟩
  have hreturning := h.returning r hr hr'
  by_cases hrid : r.id = flow.id
  · obtain rfl : r = flow := List.inj_on_of_nodup_map T.ids hr hflow hrid
    have hspent := hreturning.active hactive
    have hnew := hreturning.credit (m := (T.tick o.elapsed).movement p) hactive hcurrency hpositive
      (by show amountOf _ + cents p.amount ≤ _; omega)
    have hreturns : ((T.tick o.elapsed).credit p).returns r.id =
        (T.tick o.elapsed).movement p :: T.returns r.id :=
      List.filter_cons_of_pos (decide_eq_true hid)
    have houtstanding : ((FlowSql.credit p).record i o (.ok 0) R).outstanding r.id =
        cents p.amount :: R.outstanding r.id := by
      unfold Record.outstanding FlowSql.record
      rw [List.filter_cons_of_pos (by simpa using hid)]
      rfl
    rw [hreturns, houtstanding]
    exact hnew
  · have hne : p.flowId ≠ r.id := fun he => hrid (he.symm.trans hid)
    have hreturns : ((T.tick o.elapsed).credit p).returns r.id = T.returns r.id :=
      List.filter_cons_of_neg (by simp [Tables.movement, hne])
    have houtstanding : ((FlowSql.credit p).record i o (.ok 0) R).outstanding r.id =
        R.outstanding r.id := by
      unfold Record.outstanding FlowSql.record
      rw [List.filter_cons_of_neg (by simpa using hne)]
    rw [hreturns, houtstanding]
    exact hreturning

/-- The credits that a call writes for a flow, and those of the others. -/
theorem sum_outstanding (hon : ∀ c ∈ R.own i, c.flowId = flow.id)
    (hcredits : R'.credits = R.credits.filter fun c => !(c.caller = i && c.flowId = flow.id)) :
    (R.outstanding flow.id).sum = creditOf (R.own i) + (R'.outstanding flow.id).sum := by
  have hown : (R.credits.filter (·.flowId = flow.id)).filter (·.caller = i) = R.own i := by
    rw [List.filter_filter]
    refine List.filter_congr fun c hc => ?_
    by_cases hi : c.caller = i
    · have hid := hon c (List.mem_filter.mpr ⟨hc, by simpa using hi⟩)
      simp [hi, hid]
    · simp [hi]
  have hothers : (R.credits.filter (·.flowId = flow.id)).filter (fun c => !(c.caller = i)) =
      R'.credits.filter (·.flowId = flow.id) := by
    rw [hcredits, List.filter_filter, List.filter_filter]
    refine List.filter_congr fun c _ => ?_
    by_cases hid : c.flowId = flow.id
    · simp [hid]
    · simp [hid]
  have hsum := sum_filter_add (R.credits.filter (·.flowId = flow.id)) (·.caller = i) (·.amount)
  rw [hown, hothers] at hsum
  exact hsum.symm

/-- What is outstanding of the other flows. -/
theorem outstanding_others {id id' : String} (hne : id' ≠ id)
    (hcredits : R'.credits = R.credits.filter fun c => !(c.caller = i && c.flowId = id)) :
    R'.outstanding id' = R.outstanding id' := by
  unfold Record.outstanding
  rw [hcredits, filter_others]
  intro c hc
  have hid : c.flowId ≠ id := fun he => hne ((of_decide_eq_true hc).symm.trans he)
  simp [hid]

theorem mem_outstanding (i : ℕ) (id : String) {a : ℤ}
    (hcredits : R'.credits = R.credits.filter fun c => !(c.caller = i && c.flowId = id))
    {id' : String} (ha : a ∈ R'.outstanding id') : a ∈ R.outstanding id' := by
  obtain ⟨c, hc, rfl⟩ := List.mem_map.mp ha
  obtain ⟨hc, hid⟩ := List.mem_filter.mp hc
  rw [hcredits] at hc
  exact List.mem_map_of_mem (List.mem_filter.mpr ⟨(List.mem_filter.mp hc).1, hid⟩)

/-- A call has written its credits, and none is outstanding. -/
theorem own_written {id : String} (hon : ∀ c ∈ R.own i, c.flowId = id)
    (hcredits : R'.credits = R.credits.filter fun c => !(c.caller = i && c.flowId = id)) :
    R'.own i = [] := by
  refine List.eq_nil_iff_forall_not_mem.mpr fun c hc => ?_
  obtain ⟨hc, hi⟩ := List.mem_filter.mp hc
  rw [hcredits] at hc
  obtain ⟨hc, hkept⟩ := List.mem_filter.mp hc
  have hid := hon c (List.mem_filter.mpr ⟨hc, hi⟩)
  rw [of_decide_eq_true hi, hid] at hkept
  simp at hkept

/-! ### What a call knows -/

theorem Knows.mono (h : Knows i rows φ s) (himp : ∀ own, φ own → ψ own) : Knows i rows ψ s :=
  ⟨h.1, himp _ h.2⟩

theorem stays_knows (i : ℕ) (rows : List FlowRow) (φ : List OpenCredit → Prop) :
    Stays i (Knows i rows φ) := by
  intro s t hs h
  refine ⟨h.rows.trans hs.1, ?_⟩
  have hown : t.2.own i = s.2.own i := h.credits
  rw [hown]
  exact hs.2

/-- A triple of the discipline. -/
abbrev Holds (i : ℕ) (P : Watched → Prop) (call : FlowCall α) (Q : α → Watched → Prop)
    (E : FlowError → Watched → Prop) : Prop :=
  Triple watchedFlows holdDiscipline i P call Q E

/-- A statement that neither reads flows nor credits, pays or settles. -/
def FlowSql.Idle {β : Type} : FlowSql β → Prop
  | .dueFlows _ | .flowForUser .. | .credit _ | .pay _ | .saveRun .. | .setCancelled .. => False
  | _ => True

theorem FlowSql.Idle.record {β : Type} {st : FlowSql β} (h : st.Idle) (o : Outside) (b : β)
    (R : Record) : st.record i o b R = R := by
  cases st with
  | dueFlows userId => exact h.elim
  | flowForUser userId id => exact h.elim
  | credit p => exact h.elim
  | pay p => exact h.elim
  | saveRun id schedules spent nextRunAt => exact h.elim
  | setCancelled userId id release => exact h.elim
  | _ => rfl

theorem HoldInv.idle (h : HoldInv T R) {β : Type} {st : FlowSql β} (hst : st.Idle) (o : Outside) :
    HoldInv (st.act o (T.tick o.elapsed)).2 R := by
  have hread : HoldInv (T.tick o.elapsed) R := h.read rfl rfl (fun _ => rfl) fun _ _ hr => .inl hr
  cases st with
  | dueFlows userId => exact hst.elim
  | flowForUser userId id => exact hst.elim
  | credit p => exact hst.elim
  | pay p => exact hst.elim
  | saveRun id schedules spent nextRunAt => exact hst.elim
  | setCancelled userId id release => exact hst.elim
  | saveSchedules userId id schedules nextRunAt =>
      unfold FlowSql.act
      dsimp only
      split
      · refine hread.write _ rfl rfl (fun r => ?_) (fun r => ?_) fun r hr hheld hreturning => ?_
        · dsimp only
          split_ifs <;> rfl
        · dsimp only
          split_ifs <;> rfl
        · dsimp only
          split_ifs
          · exact ⟨hreturning.currency, hreturning.le, hreturning.positive, hreturning.active,
              hreturning.cancelled⟩
          · exact hreturning
      · exact hread
  | _ => exact hread

/-- Calls whose statements are all idle. -/
theorem hold_idle {call : FlowCall α} (h : OnlyE FlowSql.Idle call) :
    Holds i (Knows i rows φ) call (fun _ => Knows i rows φ) fun _ => Knows i rows φ := by
  refine Triple.of_only h fun {β} st hst s hs t hr hinv o hc b u he => ?_
  have ht : Knows i rows φ t := stays_knows i rows φ s t hs hr
  refine ⟨trivial, ?_, fun j hj => watched_counts he hj, ?_⟩
  · rcases watched_cases he with ⟨e, -, -, -, rfl⟩ | ⟨o, -, -, rfl⟩
    · exact hinv
    · show HoldInv _ (st.record i o _ t.2)
      rw [hst.record]
      exact HoldInv.idle hinv hst o
  · rcases watched_cases he with ⟨e, -, -, -, rfl⟩ | ⟨o, -, -, rfl⟩
    · exact ht
    · unfold Knows
      rw [hst.record]
      exact ht

/-! ### Credits -/

/-- A key that was used before is not used again. -/
theorem hold_movementByKey (key : MovementKey) :
    Holds i (Knows i rows φ) (sql (.movementByKey key))
      (fun found s => found = none ∧ Knows i rows φ s) fun _ => Knows i rows φ :=
  triple_flow (fun _ => rfl) (stays_knows i rows φ) (fun _ _ hs _ _ => ⟨trivial, hs⟩)
    fun _ _ o hs hinv hc =>
      ⟨trivial, hinv.idle (show (FlowSql.movementByKey key).Idle from trivial) o, hc, hs⟩

theorem hold_creditWalletBalance {q : CreditParams}
    (h : Holds i (Knows i rows φ) (sql (.credit q)) (fun _ => Knows i rows ψ)
      fun _ => Knows i rows φ) :
    Holds i (Knows i rows φ) (creditWalletBalance q) (fun _ => Knows i rows ψ)
      fun _ => Knows i rows φ := by
  refine Triple.bind (hold_movementByKey q.key) fun found => ?_
  rintro s ⟨rfl, hs⟩
  have hnew : Holds i (Knows i rows φ)
      (do
        let movementId ← sql (.credit q)
        pure (⟨movementId, false⟩ : CreditResult))
      (fun _ => Knows i rows ψ) fun _ => Knows i rows φ :=
    Triple.bind h fun _ => Triple.pure fun _ h => h
  exact hnew s hs

/-- The credit of a call, outstanding. -/
theorem own_credit {q : CreditParams} (o : Outside) (n : ℕ) :
    ((FlowSql.credit q).record i o (.ok n) R).own i =
      ⟨i, q.flowId, cents q.amount, false⟩ :: R.own i :=
  List.filter_cons_of_pos (by simp)

/-- A credit that is made for the row that the call has read. -/
theorem hold_credit {q : CreditParams} (hflow : flow ∈ rows) (hheld : isPayOnDueFlow flow = false)
    (hactive : flow.status = .active) (hid : q.flowId = flow.id)
    (hclean : ∀ T R, Knows i rows φ (T, R) → q.Clean i (T, R) →
      q.currency.toUpper = flow.flowCurrency ∧
        flow.spentAmount + (R.outstanding flow.id).sum + cents q.amount ≤ flow.heldAmount ∧
          ψ (⟨i, q.flowId, cents q.amount, false⟩ :: R.own i)) :
    Holds i (Knows i rows φ) (sql (.credit q)) (fun _ => Knows i rows ψ)
      fun _ => Knows i rows φ := by
  refine triple_flow (fun _ => rfl) (stays_knows i rows φ) (fun _ _ hs _ _ => ⟨trivial, hs⟩)
    fun T R o hs hinv hc => ⟨trivial, ?_⟩
  have hread : HoldInv (T.tick o.elapsed) R :=
    hinv.read rfl rfl (fun _ => rfl) fun _ _ hr => .inl hr
  have hmem : flow ∈ T.flows := by
    have hc' : Watched.HeldAsRead i flow.id (T, R) := hid ▸ hc.1
    exact hc'.mem hs.1 hflow hheld
  obtain ⟨hcurrency, hle, hψ⟩ := hclean T R hs hc.2
  unfold FlowSql.act
  dsimp only
  split_ifs with hdone hzero
  · exact ⟨hread, hs⟩
  · exact ⟨hread, hs⟩
  · refine ⟨hinv.credit hmem hheld hactive hid hcurrency (not_le.mp hzero) hle o, hs.1, ?_⟩
    rw [own_credit]
    exact hψ

/-- The money held for a payment is released. -/
theorem hold_release {ctx : PayContext} (hflow : ctx.flow ∈ rows)
    (hheld : isPayOnDueFlow ctx.flow = false) (hactive : ctx.flow.status = .active) {p : Progress}
    {s : Schedule} (hle : s.amount ≤
      decimal ctx.flow.heldAmount - decimal ctx.flow.spentAmount - p.flowSpentDelta) :
    Holds i (Knows i rows (RunsOn ctx.flow p)) (release ctx s)
      (fun _ => Knows i rows (Released ctx.flow p s.amount))
        fun _ => Knows i rows (RunsOn ctx.flow p) := by
  refine Triple.bind (hold_idle (only_sql trivial)) fun _ => ?_
  refine Triple.bind (hold_idle (only_sql trivial)) fun usdAmount => ?_
  refine Triple.bind (hold_creditWalletBalance (hold_credit hflow hheld hactive rfl ?_)) fun _ =>
    Triple.pure fun _ h => h
  rintro T R ⟨-, hruns⟩ ⟨hwhole, hopen⟩
  -- all that is outstanding of the flow is the call's own, and paid
  have hpaid : ∀ c ∈ R.own i, c.paid = true := fun c hc =>
    (hopen c (List.mem_filter.mp hc).1 (hruns.on c hc)).2
  have hown : R.credits.filter (·.flowId = ctx.flow.id) = R.own i := by
    refine List.filter_congr fun c hc => ?_
    by_cases hi : c.caller = i
    · have hon := hruns.on c (List.mem_filter.mpr ⟨hc, by simpa using hi⟩)
      simp [hi, hon]
    · have hoff : c.flowId ≠ ctx.flow.id := fun he => hi (hopen c hc he).1
      simp [hi, hoff]
  have hsum : (R.outstanding ctx.flow.id).sum = creditOf (R.own i) := by
    unfold Record.outstanding creditOf
    rw [hown]
  have hspent := hruns.spent hheld hpaid
  have hnew : decimal (creditOf (⟨i, ctx.flow.id, cents s.amount, false⟩ :: R.own i)) =
      p.flowSpentDelta + s.amount := by
    unfold creditOf
    rw [List.map_cons, List.sum_cons, decimal_add, hwhole]
    show s.amount + decimal (creditOf (R.own i)) = _
    rw [hspent]
    ring
  refine ⟨toUpper_toUpper _, ?_, ?_⟩
  · rw [hsum, ← decimal_le, decimal_add, decimal_add, hspent]
    show _ + _ + decimal (cents s.amount) ≤ _
    rw [show decimal (cents s.amount) = s.amount from hwhole]
    linarith
  · exact ⟨List.forall_mem_cons.mpr ⟨rfl, hruns.on⟩, ⟨_, List.mem_cons_self, rfl⟩, hnew⟩

/-! ### Payments -/

theorem OpenCredit.pay_same (id : String) (c : OpenCredit) :
    (c.pay i id).caller = c.caller ∧ (c.pay i id).flowId = c.flowId ∧
      (c.pay i id).amount = c.amount := by
  unfold OpenCredit.pay
  split_ifs <;> exact ⟨rfl, rfl, rfl⟩

theorem outstanding_pay {id : String} (hcredits : R'.credits = R.credits.map (OpenCredit.pay i id))
    (id' : String) : R'.outstanding id' = R.outstanding id' := by
  have hsame : (fun c : OpenCredit => decide (c.flowId = id')) ∘ OpenCredit.pay i id =
      fun c => decide (c.flowId = id') := by
    funext c
    simp [(c.pay_same (i := i) id).2.1]
  unfold Record.outstanding
  rw [hcredits, List.filter_map, List.map_map, hsame]
  exact List.map_congr_left fun c _ => (c.pay_same id).2.2

theorem own_pay (id : String) (hcredits : R'.credits = R.credits.map (OpenCredit.pay i id)) :
    R'.own i = (R.own i).map (OpenCredit.pay i id) := by
  have hsame : (fun c : OpenCredit => decide (c.caller = i)) ∘ OpenCredit.pay i id =
      fun c => decide (c.caller = i) := by
    funext c
    simp [(c.pay_same (i := i) id).1]
  unfold Record.own
  rw [hcredits, List.filter_map, hsame]

/-- A payment is made, or fails. -/
theorem hold_pay (q : SchedulePayment)
    (h : ∀ own, φ own → ψ (own.map (OpenCredit.pay i q.flowId))) :
    Holds i (Knows i rows φ) (sql (.pay q)) (fun _ => Knows i rows ψ)
      fun _ => Knows i rows φ := by
  refine triple_flow (fun _ => rfl) (stays_knows i rows φ) (fun _ _ hs _ _ => ⟨trivial, hs⟩)
    fun T R o hs hinv _ => ⟨trivial, ?_⟩
  have hmoved : ∀ R' : Record, (∀ id, R'.outstanding id = R.outstanding id) → R'.rows = R.rows →
      HoldInv (FlowSql.act (.pay q) o (T.tick o.elapsed)).2 R' := by
    intro R' hsame hrows
    have hread : ∀ j, ∀ r ∈ R'.rows j, r ∈ R.rows j ∨ r ∈ T.flows := by
      intro j r hr
      rw [hrows] at hr
      exact .inl hr
    unfold FlowSql.act
    dsimp only
    split_ifs
    · exact hinv.read rfl rfl hsame hread
    · exact hinv.read rfl rfl hsame hread
  cases ha : o.answer with
  | ok x =>
      have hb : (FlowSql.act (.pay q) o (T.tick o.elapsed)).1 = .ok x := by
        show o.answer.mapError FlowError.payment = _
        rw [ha]
        rfl
      rw [hb]
      refine ⟨hmoved _ (outstanding_pay rfl) rfl, hs.1, ?_⟩
      rw [own_pay q.flowId rfl]
      exact h _ hs.2
  | error message =>
      have hb : (FlowSql.act (.pay q) o (T.tick o.elapsed)).1 = .error (.payment message) := by
        show o.answer.mapError FlowError.payment = _
        rw [ha]
        rfl
      rw [hb]
      exact ⟨hmoved _ (fun _ => rfl) rfl, hs⟩

theorem creditOf_pay (id : String) (own : List OpenCredit) :
    creditOf (own.map (OpenCredit.pay i id)) = creditOf own := by
  unfold creditOf
  rw [List.map_map]
  exact congrArg List.sum (List.map_congr_left fun c _ => (c.pay_same id).2.2)

/-- A release is paid, and counted. -/
theorem Released.pay {p : Progress} {s : Schedule} {own : List OpenCredit}
    (h : Released flow p s.amount own) :
    RunsOn flow (p.succeed flow.id s) (own.map (OpenCredit.pay i flow.id)) where
  on := by
    intro c hc
    obtain ⟨c₀, hc₀, rfl⟩ := List.mem_map.mp hc
    exact (c₀.pay_same flow.id).2.1.trans (h.on c₀ hc₀)
  spent _ _ := by
    rw [creditOf_pay]
    exact h.spent
  changed hchanged := by cases hchanged

/-- A payment from a flow that holds nothing is counted. -/
theorem RunsOn.pay {p : Progress} {own : List OpenCredit} (h : RunsOn flow p own)
    (hheld : isPayOnDueFlow flow = true) (s : Schedule) :
    RunsOn flow (p.succeed flow.id s) (own.map (OpenCredit.pay i flow.id)) where
  on := by
    intro c hc
    obtain ⟨c₀, hc₀, rfl⟩ := List.mem_map.mp hc
    exact (c₀.pay_same flow.id).2.1.trans (h.on c₀ hc₀)
  spent hheld' _ := by
    rw [hheld] at hheld'
    cases hheld'
  changed hchanged := by cases hchanged

/-- A schedule has failed before anything was released. -/
theorem RunsOn.fail {p p' : Progress} {own : List OpenCredit} (h : RunsOn flow p own)
    (hspent : p'.flowSpentDelta = p.flowSpentDelta) (hchanged : p'.changed = true) :
    RunsOn flow p' own where
  on := h.on
  spent hheld hpaid := (h.spent hheld hpaid).trans hspent.symm
  changed hsame := by
    rw [hchanged] at hsame
    cases hsame

/-- A schedule has failed after the release. -/
theorem Released.fail {p p' : Progress} {amount : ℚ} {own : List OpenCredit}
    (h : Released flow p amount own) (hchanged : p'.changed = true) : RunsOn flow p' own where
  on := h.on
  spent _ hpaid := by
    obtain ⟨c, hc, hunpaid⟩ := h.unpaid
    rw [hpaid c hc] at hunpaid
    cases hunpaid
  changed hsame := by
    rw [hchanged] at hsame
    cases hsame

/-! ### A run of a flow -/

section schedule

variable {index dueAt : ℕ} {s : Schedule} {p : Progress}

/-- A schedule is paid, once the money is there. -/
theorem hold_paySchedule {ctx : PayContext}
    (h : ∀ own, φ own → ψ (own.map (OpenCredit.pay i ctx.flow.id))) :
    Holds i (Knows i rows φ) (paySchedule ctx index dueAt s) (fun _ => Knows i rows ψ)
      fun _ => Knows i rows φ := by
  have hpay : ∀ payment : Payment, Holds i (Knows i rows φ)
      (sql (.pay ⟨ctx.flow.id, index, dueAt, s.runs, payment⟩)) (fun _ => Knows i rows ψ)
        fun _ => Knows i rows φ := fun payment => hold_pay _ h
  unfold paySchedule
  dsimp only
  split
  · exact hpay _
  · split
    · exact Triple.throw fun _ h => h
    · refine Triple.ite (fun _ => Triple.throw fun _ h => h) fun _ => ?_
      refine Triple.ite (fun _ => ?_) fun _ => hpay _
      exact Triple.bind (hold_idle (only_sql trivial)) fun _ => hpay _
  · split
    · exact Triple.throw fun _ h => h
    · exact hpay _

/-- What is left to be done when a schedule is run: nothing is released, or its release is not
paid. -/
def Unpaid (flow : FlowRow) (p : Progress) (amount : ℚ) (own : List OpenCredit) : Prop :=
  RunsOn flow p own ∨ Released flow p amount own

theorem Unpaid.fail {p' : Progress} {amount : ℚ} {own : List OpenCredit}
    (h : Unpaid flow p amount own) (hspent : p'.flowSpentDelta = p.flowSpentDelta)
    (hchanged : p'.changed = true) : RunsOn flow p' own := by
  rcases h with h | h
  · exact h.fail hspent hchanged
  · exact h.fail hchanged

theorem hold_executeSchedulePayment {ctx : PayContext} (hflow : ctx.flow ∈ rows)
    (hactive : ctx.flow.status = .active) (hle : isPayOnDueFlow ctx.flow = false → s.amount ≤
      decimal ctx.flow.heldAmount - decimal ctx.flow.spentAmount - p.flowSpentDelta) :
    Holds i (Knows i rows (RunsOn ctx.flow p)) (executeSchedulePayment ctx index dueAt s)
      (fun _ => Knows i rows (RunsOn ctx.flow (p.succeed ctx.flow.id s)))
        fun _ => Knows i rows (Unpaid ctx.flow p s.amount) := by
  refine Triple.ite (fun _ => Triple.throw fun _ h => h.mono fun _ => .inl) fun _ => ?_
  refine Triple.ite (fun hdue => ?_) fun hheld => ?_
  · exact (hold_paySchedule fun own h => h.pay hdue s).mono (fun _ h => h) (fun _ _ h => h)
      fun _ _ h => h.mono fun _ => .inl
  · have hheld' : isPayOnDueFlow ctx.flow = false := Bool.eq_false_iff.mpr hheld
    refine Triple.bind ((hold_release hflow hheld' hactive (hle hheld')).mono (fun _ h => h)
      (fun _ _ h => h) fun _ _ h => h.mono fun _ => .inl) fun _ => ?_
    exact (hold_paySchedule fun own h => h.pay).mono (fun _ h => h) (fun _ _ h => h)
      fun _ _ h => h.mono fun _ => .inr

/-- The clock is looked at, which does not fail. -/
theorem hold_clock {E : FlowError → Watched → Prop} :
    Holds i (Knows i rows φ) clock (fun _ => Knows i rows φ) E :=
  triple_flow (fun _ => rfl) (stays_knows i rows φ) (fun _ _ _ hmay _ => by cases hmay)
    fun _ _ o hs hinv _ => ⟨trivial, hinv.idle (show FlowSql.clock.Idle from trivial) o, hs⟩

/-- A schedule is not paid. -/
theorem hold_failed (error : String) {p' : Progress} (h : ∀ own, φ own → RunsOn flow p' own)
    {E : FlowError → Watched → Prop} :
    Holds i (Knows i rows φ) (do let now ← clock; pure (s.failed now error, p'))
      (fun r => Knows i rows (RunsOn flow r.2)) E :=
  Triple.bind hold_clock fun _ => Triple.pure fun _ hs => hs.mono h

/-- What is not refused is left of the money held. -/
theorem le_of_refusal {ctx : RunContext} (h : refusal ctx p s = none)
    (hheld : isPayOnDueFlow ctx.flow = false) : s.amount ≤
      decimal ctx.flow.heldAmount - decimal ctx.flow.spentAmount - p.flowSpentDelta := by
  simp only [refusal, hheld, Bool.false_eq_true, if_false] at h
  split_ifs at h with hzero hless
  rcases le_max_iff.mp (not_lt.mp hless) with hle | hle
  · exact absurd hle hzero
  · exact hle

/-- A schedule that is due is run. -/
theorem hold_runDue {ctx : RunContext} (hflow : ctx.flow ∈ rows)
    (hactive : ctx.flow.status = .active) {E : FlowError → Watched → Prop} :
    Holds i (Knows i rows (RunsOn ctx.flow p)) (runDue C ctx index dueAt s p)
      (fun r => Knows i rows (RunsOn ctx.flow r.2)) E := by
  unfold runDue
  split
  · exact hold_failed _ fun own h => h.fail rfl rfl
  · rename_i hrefusal
    split
    · exact hold_failed _ fun own h => h.fail rfl rfl
    · rename_i wallet hwallet
      refine Triple.tryCatch (F := fun _ => Knows i rows (Unpaid ctx.flow p s.amount))
        (Triple.bind (hold_executeSchedulePayment
          (show (PayContext.mk ctx.userId wallet.walletId ctx.flow).flow ∈ rows from hflow) hactive
          (le_of_refusal hrefusal))
          fun _ => ?_) fun e => ?_
      · exact Triple.bind hold_clock fun _ => Triple.pure fun _ h => h
      · exact hold_failed _ fun own h => h.fail rfl rfl

/-- A schedule is run, if it is due. -/
theorem hold_runSchedule {ctx : RunContext} (hflow : ctx.flow ∈ rows)
    (hactive : ctx.flow.status = .active) {E : FlowError → Watched → Prop} :
    Holds i (Knows i rows (RunsOn ctx.flow p)) (runSchedule C ctx index s p)
      (fun r => Knows i rows (RunsOn ctx.flow r.2)) E := by
  refine Triple.ite (fun _ => Triple.pure fun _ h => h) fun _ => ?_
  split
  · exact Triple.pure fun _ h => h
  · refine Triple.bind hold_clock fun now => ?_
    exact Triple.ite (fun _ => Triple.pure fun _ h => h) fun _ => hold_runDue hflow hactive

end schedule

/-- The schedules of a flow are run, from a place on: by induction on those that are left. -/
theorem hold_runSchedules {ctx : RunContext} (hflow : ctx.flow ∈ rows)
    (hactive : ctx.flow.status = .active) (index : ℕ) (schedules : List Schedule) (p : Progress) :
    Holds i (Knows i rows (RunsOn ctx.flow p)) (runSchedules C ctx index schedules p)
      (fun r => Knows i rows (RunsOn ctx.flow r.2)) fun _ _ => True := by
  induction schedules generalizing index p with
  | nil => exact Triple.pure fun _ h => h
  | cons s rest ih =>
      refine Triple.bind (hold_runSchedule hflow hactive) fun first => ?_
      exact Triple.bind (ih (index + 1) first.2) fun _ => Triple.pure fun _ h => h

/-- A flow that was run is written: what was released is counted as spent. -/
theorem hold_saveRun (hflow : flow ∈ rows) (hactive : flow.status = .active) (p : Progress)
    (schedules : List Schedule) (nextRunAt : Option ℕ) :
    Holds i (Knows i rows (RunsOn flow p))
      (sql (.saveRun flow.id schedules p.flowSpentDelta nextRunAt))
      (fun _ => Knows i rows (· = [])) fun _ _ => True := by
  refine triple_flow (fun _ => rfl) (stays_knows i rows _) (fun _ _ _ _ _ => ⟨trivial, trivial⟩)
    fun T R o hs hinv hc => ⟨trivial, ?_, hs.1, own_written hs.2.on rfl⟩
  have hpaid : ∀ c ∈ R.own i, c.paid = true := by
    intro c hc'
    obtain ⟨hmem, hi⟩ := List.mem_filter.mp hc'
    exact hc.2 c hmem (of_decide_eq_true hi) (hs.2.on c hc')
  refine hinv.write ((FlowSql.saveRun flow.id schedules p.flowSpentDelta nextRunAt).record i o
    (.ok ()) R) rfl rfl (fun r => ?_) (fun r => ?_) fun r hr hheld hreturning => ?_
  · dsimp only
    split_ifs <;> rfl
  · dsimp only
    split_ifs <;> rfl
  · by_cases hid : r.id = flow.id
    · have hheld' : isPayOnDueFlow flow = false :=
        (hinv.kind i flow (by rw [hs.1]; exact hflow) r hr hid).symm.trans hheld
      have hmem : flow ∈ T.flows := hc.1.mem hs.1 hflow hheld'
      obtain rfl : r = flow := List.inj_on_of_nodup_map T.ids hr hmem hid
      have hspent : cents (decimal r.spentAmount + p.flowSpentDelta) =
          r.spentAmount + creditOf (R.own i) := by
        rw [← hs.2.spent hheld hpaid, ← decimal_add, cents_decimal]
      rw [if_pos (decide_eq_true rfl)]
      dsimp only
      rw [hspent]
      exact hreturning.save hactive (sum_outstanding hs.2.on rfl)
        (fun a ha => mem_outstanding i r.id rfl ha) schedules nextRunAt
    · rw [if_neg (by simpa using hid), outstanding_others hid rfl]
      exact hreturning

/-- A flow that was run is written, if anything has changed. -/
theorem hold_saveFlow (hflow : flow ∈ rows) (hactive : flow.status = .active) (p : Progress)
    (schedules : List Schedule) :
    Holds i (Knows i rows (RunsOn flow p)) (saveFlow C flow schedules p)
      (fun _ => Knows i rows (· = [])) fun _ _ => True := by
  refine Triple.ite (fun hsame => Triple.pure fun _ h => h.mono fun own hruns => ?_) fun _ => ?_
  · exact hruns.changed (by simpa using hsame)
  · exact Triple.bind hold_clock fun now => hold_saveRun hflow hactive p schedules _

theorem runsOn_start (flow : FlowRow) : RunsOn flow {} [] where
  on c hc := by cases hc
  spent _ _ := by simp [creditOf, decimal]
  changed _ := rfl

/-- A flow is run. -/
theorem hold_runFlow (userId : String) (usdWallet : Wallet) (hflow : flow ∈ rows)
    (hactive : flow.status = .active) (r : RunOutcome) :
    Holds i (Knows i rows (· = [])) (runFlow C userId usdWallet flow r)
      (fun _ => Knows i rows (· = [])) fun _ _ => True := by
  have hwallet : OnlyE FlowSql.Idle (flowWallet userId usdWallet flow) :=
    OnlyE.ite (OnlyE.pure _) (only_sql trivial)
  refine Triple.bind ((hold_idle hwallet).mono (fun _ h => h) (fun _ _ h => h)
    fun _ _ _ => trivial) fun wallet => ?_
  refine Triple.bind ((hold_runSchedules
    (show (RunContext.mk userId flow wallet).flow ∈ rows from hflow) hactive 0
      flow.schedules {}).mono (fun _ h => h.mono ?_) (fun _ _ h => h) fun _ _ h => h) fun done => ?_
  · rintro _ rfl
    exact runsOn_start flow
  · exact Triple.bind (hold_saveFlow hflow hactive done.2 done.1) fun _ => Triple.pure fun _ h => h

theorem hold_runFlows (userId : String) (usdWallet : Wallet) (flows : List FlowRow)
    (r : RunOutcome) (hflows : ∀ flow ∈ flows, flow ∈ rows)
    (hactive : ∀ flow ∈ rows, flow.status = .active) :
    Holds i (Knows i rows (· = [])) (runFlows C userId usdWallet flows r)
      (fun _ => Knows i rows (· = [])) fun _ _ => True := by
  induction flows generalizing r with
  | nil => exact Triple.pure fun _ h => h
  | cons flow rest ih =>
      have hflow := hflows flow List.mem_cons_self
      exact Triple.bind (hold_runFlow userId usdWallet hflow (hactive flow hflow) r)
        fun r' => ih r' fun flow' h => hflows flow' (List.mem_cons_of_mem _ h)

/-! ### Cancellations -/

/-- What is left of the money held, if there is something. -/
theorem refund_eq {row : FlowRow} (hleft : 0 < row.refund) :
    isPayOnDueFlow row = false ∧ row.refund = decimal (row.heldAmount - row.spentAmount) := by
  unfold FlowRow.refund at hleft ⊢
  split_ifs at hleft ⊢ with hdue
  · exact absurd hleft (lt_irrefl 0)
  · refine ⟨Bool.eq_false_iff.mpr hdue, ?_⟩
    rw [decimal_sub]
    rcases lt_max_iff.mp hleft with hzero | hpositive
    · exact absurd hzero (lt_irrefl 0)
    · exact max_eq_right hpositive.le

/-- Nothing is left. -/
theorem refunded_of_not_lt {row : FlowRow} (hnone : ¬ 0 < row.refund) : Refunded row [] where
  on c hc := by cases hc
  all hheld := by
    unfold FlowRow.refund at hnone
    rw [if_neg (by simp [hheld]), not_lt, max_le_iff, ← decimal_sub] at hnone
    have hle : decimal (row.heldAmount - row.spentAmount) ≤ decimal 0 := by
      simpa [decimal] using hnone.2
    have hle' := decimal_le.mp hle
    show row.heldAmount ≤ row.spentAmount + 0
    omega

/-- What is left of the money held is returned. -/
theorem hold_refundHold (userId : String) {row : FlowRow} (hactive : row.status = .active)
    (hleft : 0 < row.refund) :
    Holds i (Knows i [row] (· = [])) (refundHold userId row.id row.refund)
      (fun _ => Knows i [row] (Refunded row)) fun _ _ => True := by
  obtain ⟨hheld, hrefund⟩ := refund_eq hleft
  have hcents : cents row.refund = row.heldAmount - row.spentAmount := by
    rw [hrefund, cents_decimal]
  have hcall : Holds i (Knows i [row] (· = [])) (refundHold userId row.id row.refund)
      (fun _ => Knows i [row] (Refunded row)) fun _ => Knows i [row] (· = []) := by
    refine Triple.bind (hold_idle (only_sql trivial)) fun wallet => ?_
    cases wallet with
    | none => exact Triple.throw fun _ h => h
    | some wallet =>
        refine Triple.bind (hold_idle (only_sql trivial)) fun releaseRef => ?_
        refine Triple.bind (hold_idle (only_sql trivial)) fun usdAmount => ?_
        refine Triple.bind (hold_creditWalletBalance
          (hold_credit List.mem_cons_self hheld hactive rfl ?_)) fun _ => Triple.pure fun _ h => h
        rintro T R ⟨hrows, hnone⟩ ⟨hcurrency, hopen⟩
        have hnothing : R.outstanding row.id = [] := by
          unfold Record.outstanding
          rw [List.filter_eq_nil_iff.mpr fun c hc => by simpa using hopen c hc]
          rfl
        refine ⟨?_, ?_, ⟨?_, fun _ => ?_⟩⟩
        · have hmem : row ∈ R.rows i := by
            rw [show R.rows i = [row] from hrows]
            exact List.mem_cons_self
          rw [hcurrency row hmem rfl]
          show "NGN".toUpper = "NGN"
          decide +kernel
        · rw [hnothing]
          show row.spentAmount + 0 + cents row.refund ≤ row.heldAmount
          omega
        · rw [hnone]
          exact List.forall_mem_singleton.mpr rfl
        · rw [hnone]
          show row.heldAmount ≤ row.spentAmount + (cents row.refund + 0)
          omega
  exact hcall.mono (fun _ h => h) (fun _ _ h => h) fun _ _ _ => trivial

/-- A flow is cancelled, once what was left of it is returned. -/
theorem hold_setCancelled {row : FlowRow} (hactive : row.status = .active) (release : Option ℕ) :
    Holds i (Knows i [row] (Refunded row)) (sql (.setCancelled row.userId row.id release))
      (fun _ _ => True) fun _ _ => True := by
  refine triple_flow (fun _ => rfl) (stays_knows i _ _) (fun _ _ _ _ _ => ⟨trivial, trivial⟩)
    fun T R o hs hinv hc => ⟨trivial, ?_, ?_⟩
  · have hread : HoldInv (T.tick o.elapsed) R :=
      hinv.read rfl rfl (fun _ => rfl) fun _ _ hr => .inl hr
    unfold FlowSql.act
    dsimp only
    split
    · rename_i updated hupdated
      refine hinv.write ((FlowSql.setCancelled row.userId row.id release).record i o
        (.ok updated) R) rfl rfl (fun r => ?_) (fun r => ?_) fun r hr hheld hreturning => ?_
      · dsimp only
        split_ifs <;> rfl
      · dsimp only
        split_ifs <;> rfl
      · by_cases hid : r.id = row.id
        · have hrow : row ∈ R.rows i := by
            rw [show R.rows i = [row] from hs.1]
            exact List.mem_cons_self
          have hheld' : isPayOnDueFlow row = false :=
            (hinv.kind i row hrow r hr hid).symm.trans hheld
          have hmem : row ∈ T.flows := hc row hrow rfl hheld'
          obtain rfl : r = row := List.inj_on_of_nodup_map T.ids hr hmem hid
          rw [if_pos (by simp)]
          exact hreturning.cancel hactive (sum_outstanding hs.2.on rfl)
            (fun a ha => mem_outstanding i r.id rfl ha) (hs.2.all hheld') _ _
        · rw [if_neg (by simp [hid]), outstanding_others hid rfl]
          exact hreturning
    · exact hread
  · split <;> trivial

/-! ### Requests -/

/-- A call that has nothing outstanding. -/
def Clear (i : ℕ) (s : Watched) : Prop := s.2.own i = []

theorem hold_clear {call : FlowCall α} (h : OnlyE FlowSql.Idle call) :
    Holds i (Clear i) call (fun _ => Clear i) fun _ _ => True := by
  intro s hs
  exact (hold_idle (φ := (· = [])) h).mono (fun _ h => h) (fun _ _ h => h.2) (fun _ _ _ => trivial)
    s ⟨rfl, hs⟩

theorem stays_clear (i : ℕ) : Stays i (Clear i) := fun _ _ hs h =>
  (show _ = _ from h.credits).trans hs

theorem mem_update_rows {f : ℕ → List FlowRow} {rows : List FlowRow} {j : ℕ}
    (h : r ∈ Function.update f i rows j) : r ∈ f j ∨ r ∈ rows := by
  by_cases hj : j = i
  · subst hj
    rw [Function.update_self] at h
    exact .inr h
  · rw [Function.update_of_ne hj] at h
    exact .inl h

/-- The flows that are due are read. -/
theorem hold_dueFlows (userId : String) :
    Holds i (Clear i) (sql (.dueFlows userId))
      (fun flows s => Knows i flows (· = []) s ∧ ∀ flow ∈ flows, flow.status = .active)
        fun _ _ => True := by
  refine triple_flow (fun _ => rfl) (stays_clear i) (fun _ _ _ _ _ => ⟨trivial, trivial⟩)
    fun T R o hs hinv _ => ⟨trivial, ?_, ⟨Function.update_self .., hs⟩,
      fun flow hflow => dueFlows_active hflow⟩
  refine hinv.read rfl rfl (fun _ => rfl) fun j r hr => (mem_update_rows hr).imp_right fun hr => ?_
  exact (List.mem_filter.mp ((List.mem_insertionSort _).mp hr)).1

/-- The row of a user's flow is read. -/
theorem hold_flowForUser (userId flowId : String) :
    Holds i (Clear i) (sql (.flowForUser userId flowId))
      (fun found s => Knows i found.toList (· = []) s ∧
        ∀ row ∈ found, row.id = flowId ∧ row.userId = userId) fun _ _ => True := by
  refine triple_flow (fun _ => rfl) (stays_clear i) (fun _ _ _ _ _ => ⟨trivial, trivial⟩)
    fun T R o hs hinv _ => ⟨trivial, ?_, ⟨Function.update_self .., hs⟩, fun row hrow => ?_⟩
  · refine hinv.read rfl rfl (fun _ => rfl) fun j r hr =>
      (mem_update_rows hr).imp_right fun hr => ?_
    exact List.mem_of_find?_eq_some (Option.mem_toList.mp hr)
  · have hfound := List.find?_some hrow
    simp only [Bool.and_eq_true, decide_eq_true_eq] at hfound
    exact ⟨hfound.2, hfound.1⟩

theorem hold_runDueSchedulesForUser (userId : String) :
    Holds i (Clear i) (runDueSchedulesForUser C userId) (fun _ => Clear i) fun _ _ => True := by
  refine Triple.bind (hold_clear (only_sql trivial)) fun ready => ?_
  refine Triple.ite (fun _ => Triple.pure fun _ h => h) fun _ => ?_
  refine Triple.bind (hold_clear (only_sql trivial)) fun wallet => ?_
  cases wallet with
  | none => exact Triple.pure fun _ h => h
  | some usdWallet =>
      refine Triple.bind (hold_dueFlows userId) fun flows => ?_
      rintro s ⟨hs, hactive⟩
      exact (hold_runFlows userId usdWallet flows {} (fun _ h => h) hactive).mono (fun _ h => h)
        (fun _ _ h => h.2) (fun _ _ h => h) s hs

theorem hold_runUsers (users : List String) (r : AllOutcome) :
    Holds i (Clear i) (runUsers C users r) (fun _ => Clear i) fun _ _ => True := by
  induction users generalizing r with
  | nil => exact Triple.pure fun _ h => h
  | cons userId rest ih =>
      exact Triple.bind (hold_runDueSchedulesForUser userId) fun outcome => ih _

theorem hold_updateFlowSchedule (userId flowId scheduleId : String) (patch : SchedulePatch) :
    Holds i (Clear i) (updateFlowSchedule C userId flowId scheduleId patch) (fun _ _ => True)
      fun _ _ => True := by
  refine Triple.bind (hold_clear (only_sql trivial)) fun ready => ?_
  refine Triple.ite (fun _ => Triple.throw fun _ _ => trivial) fun _ => ?_
  refine Triple.bind (hold_flowForUser userId flowId) fun found => ?_
  cases found with
  | none => exact Triple.throw fun _ _ => trivial
  | some row =>
      refine Triple.ite (fun _ => Triple.throw fun _ _ => trivial) fun _ => ?_
      have hedit : ∀ idx : ℕ, OnlyE FlowSql.Idle (do
          let now ← clock
          sql (.saveSchedules userId flowId (row.schedules.modify idx (mergeSchedulePatch · patch))
            (earliestNextRun C now (row.schedules.modify idx (mergeSchedulePatch · patch))))) :=
        fun idx => OnlyE.bind (only_sql trivial) fun _ => only_sql trivial
      split
      · exact Triple.throw fun _ _ => trivial
      · rename_i idx hidx
        exact (hold_idle (hedit idx)).mono (fun _ h => h.1) (fun _ _ _ => trivial)
          fun _ _ _ => trivial

theorem hold_cancelFlow (userId flowId : String) :
    Holds i (Clear i) (cancelFlow userId flowId) (fun _ _ => True) fun _ _ => True := by
  refine Triple.bind (hold_clear (only_sql trivial)) fun ready => ?_
  refine Triple.ite (fun _ => Triple.throw fun _ _ => trivial) fun _ => ?_
  refine Triple.bind (hold_flowForUser userId flowId) fun found => ?_
  cases found with
  | none => exact Triple.throw fun _ _ => trivial
  | some row =>
      intro s hs
      obtain ⟨rfl, rfl⟩ := hs.2 row rfl
      refine Triple.ite (fun _ => Triple.pure fun _ _ => trivial) (fun hlive => ?_) s hs.1
      have hactive : row.status = .active := by
        cases hstatus : row.status with
        | active => rfl
        | cancelled => exact absurd hstatus hlive
      have hreturn : Holds i (Knows i [row] (· = [])) (returnHold row.userId row.id row)
          (fun _ => Knows i [row] (Refunded row)) fun _ _ => True := by
        refine Triple.ite (fun hleft => hold_refundHold row.userId hactive hleft) fun hnone => ?_
        refine Triple.pure fun _ h => h.mono ?_
        rintro _ rfl
        exact refunded_of_not_lt hnone
      refine Triple.bind hreturn fun releaseMovementId => ?_
      have hbudgets : OnlyE FlowSql.Idle (sql (.cancelLinkedBudgets row.id)) := only_sql trivial
      refine Triple.bind ((hold_idle hbudgets).mono (fun _ h => h) (fun _ _ h => h)
        fun _ _ _ => trivial) fun _ => ?_
      exact Triple.bind (hold_setCancelled hactive releaseMovementId) fun _ =>
        Triple.pure fun _ _ => trivial

theorem hold_call (r : Request) :
    Holds i (Clear i) (r.call C) (fun _ _ => True) fun _ _ => True := by
  have hdone : ∀ {β : Type} {call : FlowCall β} {Q : β → Watched → Prop},
      Holds i (Clear i) call Q (fun _ _ => True) →
        Holds i (Clear i) (do let _ ← call) (fun _ _ => True) fun _ _ => True :=
    fun h => Triple.bind h fun _ => Triple.pure fun _ _ => trivial
  cases r with
  | runDueSchedulesForUser userId => exact hdone (hold_runDueSchedulesForUser userId)
  | runDueSchedulesForAllUsers =>
      refine hdone (Q := fun _ => Clear i) (Triple.bind (hold_clear (only_sql trivial))
        fun ready => ?_)
      refine Triple.ite (fun _ => Triple.pure fun _ h => h) fun _ => ?_
      refine Triple.bind (hold_clear (only_sql trivial)) fun rows => ?_
      exact hold_runUsers rows _
  | updateFlowSchedule userId flowId scheduleId patch =>
      exact hdone (hold_updateFlowSchedule userId flowId scheduleId patch)
  | cancelFlow userId flowId => exact hdone (hold_cancelFlow userId flowId)

end held

/-! ### Runs -/

/-- **The money held is returned exactly** in every run in which no credit repeats an earlier one,
every release is paid, and a flow that holds money is as a call has read it, with nothing released
and unpaid, when the call credits or writes it. -/
theorem held_funds_are_returned (C : Calendar) (T : Tables) (hreturns : T.ReturnsHolds)
    (hsettled : T.Settled) (requests : List Request)
    (sched : List (ℕ × Except FlowError Outside))
    (hc : Pool.Along watchedFlows (Pool.CondAt ReturnsCleanly) (watched C T requests) sched) :
    ((begun C T requests).run flows sched).store.ReturnsHolds := by
  have hinv : HoldInv T {} := by
    refine ⟨fun r hr hheld => ?_, fun j r hr => (by cases hr)⟩
    obtain ⟨hcurrency, hle, hall⟩ := hreturns r hr hheld
    have hspent := hsettled r hr hheld
    exact ⟨hcurrency, hle, fun a ha => (by cases ha),
      fun hactive => (hspent hactive).trans (add_zero _).symm, fun h => ⟨hall h, rfl⟩⟩
  have hstart : Pool.Verified watchedFlows holdDiscipline (fun _ _ _ => True)
      (watched C T requests) := by
    refine Pool.Verified.start hinv fun i p hp => ?_
    obtain ⟨r, -, rfl⟩ := Option.map_eq_some_iff.mp ((List.getElem?_map ..).symm.trans hp)
    exact Prog.wp_mono (fun _ _ _ => trivial) _ _ (hold_call r _ rfl)
  obtain ⟨hend, -⟩ := Pool.run_sound hstart sched hc
  have hrun : ((watched C T requests).run watchedFlows sched).bare =
      (begun C T requests).run flows sched := Pool.keeping_run _ sched
  rw [← hrun]
  intro r hr hheld
  have hreturning := hend.1.returning r hr hheld
  exact ⟨hreturning.currency, hreturning.le, fun h => (hreturning.cancelled h).1⟩

/-! ### A payment that fails -/

/-- A flow that holds its money, with two payments that are due. -/
def savedUp : FlowRow :=
  { home with
    currency := "NGN"
    metaPayOnDue := false
    holdMovementId := some "m1" }

/-- A run of the flow, and its cancellation. -/
def payThenCancel : List Request := [.runDueSchedulesForUser "u1", .cancelFlow "u1" "f1"]

/-- The rent is released, but not paid; the other payment goes through. -/
def rentFails : List (ℕ × Except FlowError Outside) :=
  let fails : Outside := {
    moves := false
    answer := .error "Recipient not found" }
  turns 0 9 ++ [(0, .ok fails)] ++ turns 0 11 ++ turns 1 9

/-- What was released for the rent comes back once more. -/
theorem failed_payment_is_returned_twice :
    (tablesOf savedUp).ReturnsHolds ∧ (tablesOf savedUp).Settled ∧
      ¬ ((begun utc (tablesOf savedUp) payThenCancel).run flows rentFails).store.ReturnsHolds := by
  decide +kernel

/-- Both payments go through, and the rest is returned. -/
theorem held_funds_are_returned_after_all :
    ((begun utc (tablesOf savedUp) payThenCancel).run flows
      (turns 0 21 ++ turns 1 9)).store.ReturnsHolds :=
  held_funds_are_returned utc (tablesOf savedUp) (by decide +kernel) (by decide +kernel) _ _
    (by decide +kernel)

end DayfiBackend.Flow
