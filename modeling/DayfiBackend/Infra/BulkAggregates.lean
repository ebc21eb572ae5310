import DayfiBackend.Found.Solo
import DayfiBackend.Infra.BulkCancellation

/-!
# The aggregates of a bulk batch

`refreshBatchAggregates` classifies every item by its payout (`classOf`), sums each class, and
derives the status of the batch from the counts. An item that has no payout yet and has not failed
is in no class and is not counted, so a batch whose confirmation stopped halfway is reported
`completed` when what it paid is settled (`interrupted_completed`). `aggregated_iff` says when the
batch is reported as it is.
-/

namespace DayfiBackend.Infra

open DayfiBackend.Found DayfiBackend.Found.Prog DayfiBackend.Found.Binary64

namespace Bulk

/-! ### Classes -/

/-- What an item counts as. -/
inductive ItemClass where
  | completed
  /-- The payout failed, and its funds were released. -/
  | released
  | processing
  /-- There is no payout, and the item failed. -/
  | rejected
  deriving DecidableEq, Repr

/-- An item of the class is settled or failed. -/
def Ended (c : Option ItemClass) : Prop :=
  c = some .completed ∨ c = some .released ∨ c = some .rejected

section classes

variable (s : Tables) (orgId batchId : String)

/-- The items of a batch, by line. -/
def Tables.listed : List ItemRow :=
  (s.items.filter (·.batchId = batchId)).insertionSort fun a b => a.lineNumber ≤ b.lineNumber

/-- The transaction of a payout. -/
def Tables.payoutTx (id : ℕ) : Option TxRow := (s.payouts.tx id).filter (·.orgId = orgId)

/-- The class a payout is in. -/
def payoutClass (status : String) : ItemClass :=
  if status.toLower ∈ ["settled", "completed", "success", "successful"] then .completed
  else if status.toLower ∈ ["failed", "cancelled", "expired", "rejected"] then .released
  else .processing

/-- The class of an item, if it is in one. -/
def classOf (item : ItemRow) : Option ItemClass :=
  match item.payoutTransactionId with
  | none => if item.status = .failed ∨ item.status = .invalid then some .rejected else none
  | some id => (s.payoutTx orgId id).map fun tx => payoutClass tx.status

/-- The USDC of an item: what its payout records, or else the item. -/
def usdcOf (item : ItemRow) : ℚ :=
  numOr0 (((item.payoutTransactionId.bind (s.payoutTx orgId)).bind (·.metadata.usdcAmount)) <|>
    item.usdcAmount)

/-- The items of a class. -/
def itemsIn (c : ItemClass) : List ItemRow :=
  (s.listed batchId).filter fun item => classOf s orgId item = some c

/-- The amounts of the items of a class. -/
def amountsIn (c : ItemClass) : List ℚ := (itemsIn s orgId batchId c).map (usdcOf s orgId)

/-- Numbers added one by one. -/
def addUp (vs : List ℚ) : ℚ := vs.foldl (fun sum v => nearest (sum + v)) 0

/-- What the loop over the items sums up. -/
def totalsOf : Aggregate where
  completedUsdc := addUp (amountsIn s orgId batchId .completed)
  releasedUsdc := addUp (amountsIn s orgId batchId .released)
  lockedUsdc := addUp (amountsIn s orgId batchId .processing)
  completedCount := (itemsIn s orgId batchId .completed).length
  failedCount := (itemsIn s orgId batchId .released).length +
    (itemsIn s orgId batchId .rejected).length
  processingCount := (itemsIn s orgId batchId .processing).length

/-- The batch is recorded as its items are. -/
structure Aggregated (t : Tables) (row : BatchRow) : Prop where
  recorded : t.batches batchId = some row
  completed : row.status = .completed ↔
    ∀ item ∈ s.listed batchId, classOf s orgId item = some .completed
  counts : row.totals.completedCount = (itemsIn s orgId batchId .completed).length ∧
    row.totals.failedCount = (itemsIn s orgId batchId .released).length +
      (itemsIn s orgId batchId .rejected).length ∧
    row.totals.processingCount = (itemsIn s orgId batchId .processing).length
  terminal : row.status ∈ [.completed, .partiallyCompleted, .failed] →
    ∀ item ∈ s.listed batchId, Ended (classOf s orgId item)
  completedUsdc : row.totals.completedUsdc =
    usdc ((amountsIn s orgId batchId .completed).map toNumeric).sum
  releasedUsdc : row.totals.releasedUsdc =
    usdc ((amountsIn s orgId batchId .released).map toNumeric).sum
  lockedUsdc : row.totals.lockedUsdc =
    usdc ((amountsIn s orgId batchId .processing).map toNumeric).sum

/-- The sum of the amounts of a class, read at seven places, is that of the amounts. -/
def SumsExactly (c : ItemClass) : Prop :=
  toNumeric (addUp (amountsIn s orgId batchId c)) =
    ((amountsIn s orgId batchId c).map toNumeric).sum

/-- When the batch is reported as it is: it has items; while an item is in no class, another is in
progress or none has ended; and its sums are exact. -/
structure Reportable : Prop where
  nonempty : s.listed batchId ≠ []
  waiting : (∃ item ∈ s.listed batchId, classOf s orgId item = none) →
    (∃ item ∈ s.listed batchId, classOf s orgId item = some .processing) ∨
      ∀ item ∈ s.listed batchId, classOf s orgId item = none
  exact : ∀ c ∈ [.completed, .released, .processing], SumsExactly s orgId batchId c

end classes

/-! ### The loop -/

/-- What one item adds. -/
def Aggregate.addItem (s : Tables) (orgId : String) (a : Aggregate) (item : ItemRow) : Aggregate :=
  match classOf s orgId item with
  | none => a
  | some .completed => { a with
      completedUsdc := nearest (a.completedUsdc + usdcOf s orgId item)
      completedCount := a.completedCount + 1 }
  | some .released => { a with
      releasedUsdc := nearest (a.releasedUsdc + usdcOf s orgId item)
      failedCount := a.failedCount + 1 }
  | some .processing => { a with
      lockedUsdc := nearest (a.lockedUsdc + usdcOf s orgId item)
      processingCount := a.processingCount + 1 }
  | some .rejected => { a with failedCount := a.failedCount + 1 }

/-- The loop, from what is summed up before it. -/
theorem foldl_addItem (s : Tables) (orgId : String) (items : List ItemRow) (a : Aggregate) :
    items.foldl (Aggregate.addItem s orgId) a =
      { completedUsdc := ((items.filter fun i => classOf s orgId i = some .completed).map
          (usdcOf s orgId)).foldl (fun sum v => nearest (sum + v)) a.completedUsdc
        releasedUsdc := ((items.filter fun i => classOf s orgId i = some .released).map
          (usdcOf s orgId)).foldl (fun sum v => nearest (sum + v)) a.releasedUsdc
        lockedUsdc := ((items.filter fun i => classOf s orgId i = some .processing).map
          (usdcOf s orgId)).foldl (fun sum v => nearest (sum + v)) a.lockedUsdc
        completedCount := a.completedCount +
          (items.filter fun i => classOf s orgId i = some .completed).length
        failedCount := a.failedCount +
          ((items.filter fun i => classOf s orgId i = some .released).length +
            (items.filter fun i => classOf s orgId i = some .rejected).length)
        processingCount := a.processingCount +
          (items.filter fun i => classOf s orgId i = some .processing).length } := by
  induction items generalizing a with
  | nil => rfl
  | cons item items ih =>
    rw [List.foldl_cons, ih]
    unfold Aggregate.addItem
    cases hclass : classOf s orgId item with
    | none => simp [hclass]
    | some c =>
      cases c with
      | completed =>
        simp [hclass]
        omega
      | released =>
        simp [hclass]
        omega
      | processing =>
        simp [hclass]
        omega
      | rejected =>
        simp [hclass]
        omega

theorem foldl_listed (s : Tables) (orgId batchId : String) :
    (s.listed batchId).foldl (Aggregate.addItem s orgId) {} = totalsOf s orgId batchId := by
  rw [foldl_addItem]
  simp [totalsOf, addUp, amountsIn, itemsIn]

/-- A payout adds what its class says. -/
theorem addPayout_snd {s : Tables} {orgId : String} {item : ItemRow} {id : ℕ} {tx : TxRow}
    (hid : item.payoutTransactionId = some id) (htx : s.payoutTx orgId id = some tx)
    (a : Aggregate) :
    (a.addPayout tx.status (numOr0 (tx.metadata.usdcAmount <|> item.usdcAmount))).2 =
      a.addItem s orgId item := by
  have husdc : usdcOf s orgId item = numOr0 (tx.metadata.usdcAmount <|> item.usdcAmount) := by
    simp [usdcOf, hid, htx]
  unfold Aggregate.addItem Aggregate.addPayout
  simp only [classOf, hid, htx, Option.map_some, payoutClass, husdc]
  split_ifs <;> rfl

/-- What the loop reads is unchanged. -/
structure Unread (s t : Tables) : Prop where
  payouts : t.payouts = s.payouts
  batches : t.batches = s.batches

variable {s : Tables} {orgId batchId : String} {pid : ℕ} {β : Type}

/-- The discipline of a refresh, from the tables `s`. -/
abbrev refreshing (pid : ℕ) : Discipline Query (Except BulkError Outside) Tables :=
  solo pid (fun _ => True) fun _ => True

/-- A statement on the batches, by what it does when it runs. -/
theorem refresh_sql {st : BatchSql (Ans β)} {P : Tables → Prop} {Q : β → Tables → Prop}
    (hst : ∀ e, st.fail e = .error e)
    (h : ∀ t, P t → ∀ b, (st.run t).1 = .ok b → Q b (st.run t).2) :
    Triple backend.machine (refreshing pid) pid P (sql st) Q fun _ _ => True := by
  refine solo_perform fun t ht _ o _ r u he => ⟨trivial, fun b hb => ?_, fun _ _ => trivial⟩
  subst hb
  rcases Backend.exec_cases he with ⟨e, -, hr, -⟩ | ⟨o', -, hr, rfl⟩
  · cases hr.trans (hst e)
  · exact h t ht b hr.symm

/-- The read of a payout. -/
theorem refresh_loadTx (id : ℕ) :
    Triple backend.machine (refreshing pid) pid (Unread s)
      (payouts (Infra.sql (.loadTx id (some orgId))))
      (fun tx t => tx = s.payoutTx orgId id ∧ Unread s t) fun _ _ => True := by
  refine triple_embed_perform (fun t u ht hu => ?_) fun t ht _ o _ r u he => ?_
  · obtain rfl : t = u := hu rfl
    exact ht
  · refine ⟨trivial, trivial, fun j hj hi => absurd hi hj, ?_⟩
    rcases Backend.exec_cases he with ⟨e, -, rfl, -⟩ | ⟨o', -, rfl, rfl⟩
    · trivial
    · cases hfault : o'.fault with
      | true => simp [backend, Query.run, hfault, Sql.failed]
      | false =>
        simp only [backend, Query.run, hfault, Bool.false_eq_true, if_false, Sql.run]
        exact ⟨by rw [ht.payouts]; rfl, ht.payouts, ht.batches⟩

/-- The loop returns what its items add up to. -/
theorem refresh_items (items : List ItemRow) (a : Aggregate) :
    Triple backend.machine (refreshing pid) pid (Unread s) (aggregateItems orgId items a)
      (fun r t => r = items.foldl (Aggregate.addItem s orgId) a ∧ Unread s t)
      fun _ _ => True := by
  induction items generalizing a with
  | nil => exact Triple.pure fun t ht => ⟨rfl, ht⟩
  | cons item items ih =>
    unfold aggregateItems
    cases hid : item.payoutTransactionId with
    | none =>
      have hadd : a.addUnpaid item.status = a.addItem s orgId item := by
        unfold Aggregate.addUnpaid Aggregate.addItem
        simp only [classOf, hid]
        split_ifs <;> rfl
      simp only [hadd]
      exact ih _
    | some id =>
      refine Triple.bind (refresh_loadTx id) fun found => Triple.assume fun hfound => ?_
      cases found with
      | none =>
        have hadd : a.addItem s orgId item = a := by
          unfold Aggregate.addItem
          simp [classOf, hid, ← hfound]
        rw [List.foldl_cons, hadd]
        exact ih a
      | some tx =>
        dsimp only
        rw [List.foldl_cons, ← addPayout_snd hid hfound.symm a]
        refine Triple.ite (fun _ => ?_) fun _ => ih _
        refine Triple.bind (R := fun _ => Unread s) (refresh_sql (fun _ => rfl) ?_) fun _ => ih _
        intro t ht _ _
        exact ⟨ht.payouts, ht.batches⟩

/-- What a refresh that returns has recorded. -/
def refreshed (s : Tables) (orgId batchId : String) (row : BatchRow) : BatchRow :=
  let totals := totalsOf s orgId batchId
  { row with
    status := totals.parentStatus
    totals := { totals with
      completedUsdc := column totals.completedUsdc
      releasedUsdc := column totals.releasedUsdc
      lockedUsdc := column totals.lockedUsdc } }

/-- Reading the batch at the end. -/
theorem refresh_getBatchWithItems {P : Tables → Prop} :
    Triple backend.machine (refreshing pid) pid P (getBatchWithItems orgId batchId)
      (fun _ => P) fun _ _ => True := by
  unfold getBatchWithItems loadBatch
  refine Triple.bind (R := fun _ => P) (Triple.bind (R := fun _ => P)
    (refresh_sql (fun _ => rfl) fun t ht _ _ => ht) fun found => ?_) fun batch => ?_
  · cases found with
    | none => exact Triple.throw fun _ _ => trivial
    | some row => exact Triple.pure fun _ ht => ht
  · exact Triple.bind (R := fun _ => P) (refresh_sql (fun _ => rfl) fun t ht _ _ => ht)
      fun _ => Triple.pure fun _ ht => ht

/-- A refresh of a batch that is not cancelled records its totals. -/
theorem refresh_records {row : BatchRow} (hrow : s.batches batchId = some row)
    (hstatus : row.status ≠ .cancelled) :
    Triple backend.machine (refreshing pid) pid (· = s) (refreshBatchAggregates orgId batchId)
      (fun _ t => t.batches batchId = some (refreshed s orgId batchId row))
      fun _ _ => True := by
  unfold refreshBatchAggregates
  refine Triple.bind (R := fun current t => current = row ∧ t = s) ?_ fun current =>
    Triple.assume ?_
  · unfold loadBatch
    refine Triple.bind (R := fun found t => (∀ r, found = some r → r = row) ∧ t = s)
      (refresh_sql (fun _ => rfl) ?_) fun found => Triple.assume fun hfound => ?_
    · rintro t rfl found hread
      refine ⟨fun r hr => ?_, rfl⟩
      obtain rfl := Except.ok.inj hread
      rw [hrow] at hr
      exact (Option.some.inj (Option.filter_eq_some_iff.mp hr).1).symm
    · cases found with
      | none => exact Triple.throw fun _ _ => trivial
      | some r => exact Triple.pure fun t ht => ⟨hfound r rfl, ht⟩
  · rintro rfl
    refine Triple.ite (fun h => absurd h hstatus) fun _ => ?_
    refine Triple.bind (R := fun items t => items = s.listed batchId ∧ Unread s t)
      (refresh_sql (fun _ => rfl) ?_) fun items => Triple.assume ?_
    · rintro t rfl items hread
      exact ⟨(Except.ok.inj hread).symm, rfl, rfl⟩
    · rintro rfl
      refine Triple.bind (refresh_items _ _) fun totals => Triple.assume ?_
      rintro rfl
      rw [foldl_listed]
      refine Triple.bind (R := fun _ t => t.batches batchId =
        some (refreshed s orgId batchId current)) (refresh_sql (fun _ => rfl) ?_)
        fun _ => refresh_getBatchWithItems
      intro t ht _ _
      simp [BatchSql.run, Tables.setBatch, ht.batches, hrow, refreshed]

/-! ### When the report is right -/

theorem mem_itemsIn {c : ItemClass} {item : ItemRow} :
    item ∈ itemsIn s orgId batchId c ↔
      item ∈ s.listed batchId ∧ classOf s orgId item = some c := by
  simp [itemsIn]

/-- A class that is counted has an item. -/
theorem length_itemsIn_pos {c : ItemClass} : 0 < (itemsIn s orgId batchId c).length ↔
    ∃ item ∈ s.listed batchId, classOf s orgId item = some c := by
  rw [List.length_pos_iff_exists_mem]
  simp only [mem_itemsIn]

theorem ended_iff {c : Option ItemClass} : Ended c ↔ c ≠ none ∧ c ≠ some .processing := by
  unfold Ended
  cases c with
  | none => simp
  | some c => cases c <;> simp

/-- When the derived status tells how the items stand, by the classes of the items. -/
theorem parentStatus_right (a : Aggregate) (cs : List (Option ItemClass))
    (hprocessing : 0 < a.processingCount ↔ some .processing ∈ cs)
    (hcompleted : 0 < a.completedCount ↔ some .completed ∈ cs)
    (hfailed : 0 < a.failedCount ↔ some .released ∈ cs ∨ some .rejected ∈ cs) :
    ((a.parentStatus = .completed ↔ ∀ c ∈ cs, c = some .completed) ∧
        (a.parentStatus ∈ [.completed, .partiallyCompleted, .failed] → ∀ c ∈ cs, Ended c)) ↔
      cs ≠ [] ∧ (none ∈ cs → some .processing ∈ cs ∨ ∀ c ∈ cs, c = none) := by
  by_cases hp : some ItemClass.processing ∈ cs
  · -- while a payout is in progress, so is the batch
    have hstatus : a.parentStatus = .processing := by
      simp [Aggregate.parentStatus, hprocessing.mpr hp]
    have hall : ¬ ∀ c ∈ cs, c = some ItemClass.completed := fun h => by
      simpa using h _ hp
    simp [hstatus, hp, hall, List.ne_nil_of_mem hp]
  have hp0 : ¬ 0 < a.processingCount := fun h => hp (hprocessing.mp h)
  have hended : (∀ c ∈ cs, Ended c) ↔ none ∉ cs := by
    constructor
    · intro h hnone
      exact (ended_iff.mp (h _ hnone)).1 rfl
    · intro hnone c hc
      exact ended_iff.mpr ⟨fun h => hnone (h ▸ hc), fun h => hp (h ▸ hc)⟩
  by_cases hf : some ItemClass.released ∈ cs ∨ some ItemClass.rejected ∈ cs
  · -- an item failed, and no payout is in progress: the batch is at its end
    have hterminal : a.parentStatus ∈ [.partiallyCompleted, .failed] := by
      by_cases hc : 0 < a.completedCount
      · simp [Aggregate.parentStatus, hp0, hc, (hfailed.mpr hf).ne', hfailed.mpr hf]
      · simp [Aggregate.parentStatus, hp0, hfailed.mpr hf, Nat.eq_zero_of_not_pos hc]
    have hne : a.parentStatus ≠ .completed := by
      rintro h
      simp [h] at hterminal
    have hall : ¬ ∀ c ∈ cs, c = some ItemClass.completed := by
      intro h
      rcases hf with hf | hf <;> simpa using h _ hf
    have hidle : ¬ ∀ c ∈ cs, c = none := by
      intro h
      rcases hf with hf | hf <;> simpa using h _ hf
    have hnil : cs ≠ [] := by
      rcases hf with hf | hf <;> exact List.ne_nil_of_mem hf
    have hmem : a.parentStatus ∈ [.completed, .partiallyCompleted, .failed] :=
      List.mem_cons_of_mem _ hterminal
    simp [hne, hall, hmem, hended, hp, hidle, hnil]
  have hf0 : a.failedCount = 0 := Nat.eq_zero_of_not_pos fun h => hf (hfailed.mp h)
  by_cases hc : some ItemClass.completed ∈ cs
  · -- everything that is counted is settled
    have hstatus : a.parentStatus = .completed := by
      simp [Aggregate.parentStatus, hp0, hf0, hcompleted.mpr hc]
    have hall : (∀ c ∈ cs, c = some ItemClass.completed) ↔ none ∉ cs := by
      rw [← hended]
      refine forall₂_congr fun c hc' => ⟨fun h => .inl h, fun h => ?_⟩
      rcases h with rfl | rfl | rfl
      · rfl
      · exact absurd (.inl hc') hf
      · exact absurd (.inr hc') hf
    have hidle : ¬ ∀ c ∈ cs, c = none := fun h => by
      simpa using h _ hc
    simp [hstatus, hall, hended, hp, hidle, List.ne_nil_of_mem hc]
  · -- nothing is counted
    have hc0 : ¬ 0 < a.completedCount := fun h => hc (hcompleted.mp h)
    have hstatus : a.parentStatus = .processing := by
      simp [Aggregate.parentStatus, hp0, hf0, hc0]
    have hidle : ∀ c ∈ cs, c = none := by
      intro c hc'
      cases c with
      | none => rfl
      | some c =>
        cases c with
        | completed => exact absurd hc' hc
        | released => exact absurd (.inl hc') hf
        | processing => exact absurd hc' hp
        | rejected => exact absurd (.inr hc') hf
    have hall : (∀ c ∈ cs, c = some ItemClass.completed) ↔ cs = [] := by
      refine ⟨fun h => List.eq_nil_iff_forall_not_mem.mpr fun c hc' => ?_, fun h => by simp [h]⟩
      exact hc (h c hc' ▸ hc')
    simpa [hstatus, hall] using fun _ _ => .inr hidle

/-- The status that is recorded tells how the items stand. -/
theorem totalsOf_right (s : Tables) (orgId batchId : String) :
    (((totalsOf s orgId batchId).parentStatus = .completed ↔
          ∀ item ∈ s.listed batchId, classOf s orgId item = some .completed) ∧
        ((totalsOf s orgId batchId).parentStatus ∈ [.completed, .partiallyCompleted, .failed] →
          ∀ item ∈ s.listed batchId, Ended (classOf s orgId item))) ↔
      s.listed batchId ≠ [] ∧
        ((∃ item ∈ s.listed batchId, classOf s orgId item = none) →
          (∃ item ∈ s.listed batchId, classOf s orgId item = some .processing) ∨
            ∀ item ∈ s.listed batchId, classOf s orgId item = none) := by
  have hmem : ∀ c, some c ∈ (s.listed batchId).map (classOf s orgId) ↔
      0 < (itemsIn s orgId batchId c).length := by
    intro c
    rw [length_itemsIn_pos, List.mem_map]
  have hright := parentStatus_right (totalsOf s orgId batchId)
    ((s.listed batchId).map (classOf s orgId)) (hmem _).symm (hmem _).symm (by
      rw [hmem, hmem]
      exact Nat.add_pos_iff_pos_or_pos)
  simpa using hright

/-- A refresh that returns reports the batch as it is exactly when the batch is `Reportable`. -/
theorem aggregated_iff {row : BatchRow} {os : List (Except BulkError Outside)}
    {r : BatchRow × List ItemRow} {t : Tables} (hrow : s.batches batchId = some row)
    (hstatus : row.status ≠ .cancelled)
    (hrun : (refreshBatchAggregates orgId batchId).run.advance backend.machine pid os s =
      (ret (.ok r), t)) :
    (∃ row', Aggregated s orgId batchId t row') ↔ Reportable s orgId batchId := by
  have hrecords : t.batches batchId = some (refreshed s orgId batchId row) :=
    advance_result (Q := fun _ t => t.batches batchId = some (refreshed s orgId batchId row))
      (refresh_records hrow hstatus s rfl) trivial (fun _ _ => trivial) hrun
  have hright := totalsOf_right s orgId batchId
  constructor
  · rintro ⟨row', h⟩
    obtain rfl : row' = refreshed s orgId batchId row :=
      Option.some.inj (h.recorded.symm.trans hrecords)
    obtain ⟨hnonempty, hwaiting⟩ := hright.mp ⟨h.completed, h.terminal⟩
    refine ⟨hnonempty, hwaiting, fun c hc => ?_⟩
    simp only [List.mem_cons, List.mem_nil_iff, or_false] at hc
    rcases hc with rfl | rfl | rfl
    · exact usdc_inj.mp h.completedUsdc
    · exact usdc_inj.mp h.releasedUsdc
    · exact usdc_inj.mp h.lockedUsdc
  · rintro ⟨hnonempty, hwaiting, hexact⟩
    obtain ⟨hcompleted, hterminal⟩ := hright.mpr ⟨hnonempty, hwaiting⟩
    have hsum : ∀ c ∈ [ItemClass.completed, .released, .processing],
        column (addUp (amountsIn s orgId batchId c)) =
          usdc ((amountsIn s orgId batchId c).map toNumeric).sum :=
      fun c hc => usdc_inj.mpr (hexact c hc)
    exact ⟨refreshed s orgId batchId row, hrecords, hcompleted, ⟨rfl, rfl, rfl⟩, hterminal,
      hsum _ (by simp), hsum _ (by simp), hsum _ (by simp)⟩

/-! ### Sums in range are exact -/

theorem nearest_foldl {vs : List ℚ} {x : ℚ} (hx : nearest x = x) :
    nearest (vs.foldl (fun sum v => nearest (sum + v)) x) =
      vs.foldl (fun sum v => nearest (sum + v)) x := by
  induction vs generalizing x with
  | nil => exact hx
  | cons v vs ih => exact ih (nearest_nearest _)

/-- Each addition errs by a part of the sum so far. -/
theorem abs_foldl_sub_le {as : List ℤ} (has : ∀ a ∈ as, 0 ≤ a) {x : ℚ} {c : ℤ} {k : ℕ}
    (hc : 0 ≤ c) (hx : |x * 10 ^ 7 - (c : ℚ)| ≤ 3 * (k : ℚ) * (c : ℚ) / 2 ^ 53)
    (hk : 3 * (k + as.length) ≤ 2 ^ 50) :
    |(as.map num).foldl (fun sum v => nearest (sum + v)) x * 10 ^ 7 - ((c + as.sum : ℤ) : ℚ)| ≤
      3 * ((k + as.length : ℕ) : ℚ) * ((c + as.sum : ℤ) : ℚ) / 2 ^ 53 := by
  induction as generalizing x c k with
  | nil => simpa using hx
  | cons a as ih =>
    have ha : 0 ≤ a := has a List.mem_cons_self
    have hc' : (0 : ℚ) ≤ c := by exact_mod_cast hc
    have ha' : (0 : ℚ) ≤ a := by exact_mod_cast ha
    have hk' : (3 * k : ℚ) ≤ 2 ^ 50 := by
      have : 3 * k ≤ 2 ^ 50 := by omega
      exact_mod_cast this
    have hy := abs_num_mul_sub_le a
    rw [abs_of_nonneg ha'] at hy
    have hfirst : 3 * (k : ℚ) * c / 2 ^ 53 ≤ c := by
      rw [div_le_iff₀ (by norm_num)]
      nlinarith
    have hka : 0 ≤ (k : ℚ) * a := mul_nonneg (Nat.cast_nonneg k) ha'
    have hstep : |nearest (x + num a) * 10 ^ 7 - ((c + a : ℤ) : ℚ)| ≤
        3 * ((k + 1 : ℕ) : ℚ) * ((c + a : ℤ) : ℚ) / 2 ^ 53 := by
      refine (abs_nearest_add_le hc ha hx hy).trans ?_
      push_cast
      rw [← add_div, ← add_div, div_le_div_iff_of_pos_right (by norm_num)]
      have hsecond : (a : ℚ) / 2 ^ 53 ≤ a := div_le_self ha' (by norm_num)
      linarith
    have hrest := ih (fun b hb => has b (List.mem_cons_of_mem a hb)) (add_nonneg hc ha) hstep
      (by simp only [List.length_cons] at hk; omega)
    simp only [List.map_cons, List.foldl_cons, List.sum_cons, List.length_cons]
    rw [show c + (a + as.sum) = c + a + as.sum by ring, show k + (as.length + 1) =
      k + 1 + as.length by omega]
    exact hrest

/-- Amounts of seven places sum exactly while their number times their sum is at most `2^49`
minor units. -/
theorem sumsExactly_of_le {c : ItemClass} {as : List ℤ}
    (h : amountsIn s orgId batchId c = as.map num) (has : ∀ a ∈ as, 0 ≤ a)
    (hle : as.length * as.sum ≤ 2 ^ 49) (hlen : 3 * as.length ≤ 2 ^ 50) :
    SumsExactly s orgId batchId c := by
  have hsum : ∀ a ∈ as, a ≤ as.sum := fun a ha => List.single_le_sum has a ha
  have hnonneg : 0 ≤ as.sum := List.sum_nonneg has
  have hone : as.sum ≤ 2 ^ 49 := by
    cases as with
    | nil => simp
    | cons a as =>
      have hpos : (1 : ℤ) ≤ ((a :: as).length : ℤ) := by simp
      nlinarith
  have hbounded : ∀ a ∈ as, |a| ≤ exactLimit := by
    intro a ha
    rw [abs_of_nonneg (has a ha)]
    unfold exactLimit
    have := hsum a ha
    omega
  have hcolumns : (as.map num).map toNumeric = as := by
    rw [List.map_map]
    conv_rhs => rw [← List.map_id as]
    exact List.map_congr_left fun a ha => toNumeric_num (hbounded a ha)
  have herr := abs_foldl_sub_le (x := 0) (c := 0) (k := 0) has le_rfl (by simp)
    (by simpa using hlen)
  unfold SumsExactly
  rw [h, hcolumns]
  refine toNumeric_eq (nearest_foldl nearest_zero) ?_ ?_
  · rw [abs_of_nonneg hnonneg]
    unfold exactLimit
    omega
  · rw [zero_add] at herr
    refine herr.trans ?_
    have hcast : ((as.length : ℕ) : ℚ) * ((as.sum : ℤ) : ℚ) ≤ 2 ^ 49 := by
      exact_mod_cast hle
    rw [zero_add, div_le_iff₀ (by norm_num), mul_assoc]
    linarith

/-! ### An interrupted confirmation -/

/-- What the outside answers at each step: every recipient has a crypto wallet. -/
def answers (n : ℕ) : List (Except BulkError Outside) :=
  List.replicate n (.ok {
    quote := some 1
    destination := { accountType := "crypto", asset := some "USDC", walletAddress := some "G" } })

/-- The ready batch after so many steps of its confirmation, which settles every payout. -/
def confirmedFor (n : ℕ) : Tables :=
  ((confirmBulkBatch "org" "b" true).run.advance backend.machine 0 (answers n) readyBatch).2

/-- A refresh after so many steps of the confirmation. -/
def refreshAfter (n : ℕ) : Prog Query (Except BulkError (BatchRow × List ItemRow)) × Tables :=
  (refreshBatchAggregates "org" "b").run.advance backend.machine 1 (answers 20) (confirmedFor n)

/-- The whole batch is confirmed, and reported as it is. -/
theorem confirmed_aggregated :
    ∃ row, Aggregated (confirmedFor 60) "org" "b" (refreshAfter 60).2 row := by
  obtain ⟨r, hr⟩ := Option.isSome_iff_exists.mp
    (show (refreshAfter 60).1.returned?.isSome = true by decide +kernel)
  obtain ⟨row, hrow⟩ := Option.isSome_iff_exists.mp
    (show (((confirmedFor 60).batches "b").filter (·.status ≠ .cancelled)).isSome = true by
      decide +kernel)
  obtain ⟨hrow, hstatus⟩ := Option.filter_eq_some_iff.mp hrow
  have hexact : ∀ c ∈ [ItemClass.completed, .released, .processing],
      toNumeric (addUp (amountsIn (confirmedFor 60) "org" "b" c)) =
        ((amountsIn (confirmedFor 60) "org" "b" c).map toNumeric).sum := by
    decide +kernel
  exact (aggregated_iff hrow (by simpa using hstatus)
    (Prod.ext (eq_ret_of_returned hr) rfl)).mpr
    ⟨by decide +kernel, by decide +kernel, hexact⟩

/-- The confirmation stops after the first item is paid and settled: the batch is reported as
completed, and the second item is not paid. -/
theorem interrupted_completed :
    (refreshAfter 20).1.returned?.isSome = true ∧
      (refreshAfter 20).2.statusOf "b" = some .completed ∧
        ¬ ∃ row, Aggregated (confirmedFor 20) "org" "b" (refreshAfter 20).2 row := by
  have hstatus : (refreshAfter 20).2.statusOf "b" = some .completed := by
    decide +kernel
  refine ⟨by decide +kernel, hstatus, ?_⟩
  rintro ⟨row, h⟩
  have hcompleted : row.status = .completed := by
    simpa [Tables.statusOf, h.recorded] using hstatus
  have hunpaid : ∃ item ∈ (confirmedFor 20).listed "b",
      classOf (confirmedFor 20) "org" item ≠ some .completed := by
    decide +kernel
  obtain ⟨item, hmem, hclass⟩ := hunpaid
  exact hclass (h.completed.mp hcompleted item hmem)

end Bulk

end DayfiBackend.Infra
