import DayfiBackend.Infra.Posting

/-!
# Postings that are exact

Balances pass through binary64. While the total of a wallet stays below `exactLimit`, a posting
moves each bucket by exactly the amount of its movement (`PostsOn.exact`, `Moves.exact`), and the
balance the movement records is the balance written. Only the operations that bring money into a
wallet can leave the range: a taking operation whose guard passed had the amount in its bucket
(`take_le`).
-/

namespace DayfiBackend.Infra

open DayfiBackend.Found.Binary64 DayfiBackend.Found.Keys

/-- Balances on which the ledger's arithmetic is exact. -/
structure Buckets.InRange (b : Buckets ℤ) : Prop where
  nonneg : b.Nonneg
  bounded : b.total < exactLimit

/-! ### Amounts -/

section amounts

variable {a b : ℤ} {amount : ℚ}

/-- The minor units an amount is posted as. -/
def minorUnits (v : ℚ) : ℤ := round (nearest (nearest v * 10 ^ 7))

theorem parseAmount_minorUnits {v : ℚ} (h : parseAmount (some v) = .ok amount) :
    0 ≤ minorUnits v ∧ amount = num (minorUnits v) := by
  simp only [parseAmount] at h
  split_ifs at h with hn
  cases h
  refine ⟨?_, rfl⟩
  unfold minorUnits
  rw [round_eq]
  have hv : 0 ≤ nearest (nearest v * 10 ^ 7) :=
    nearest_nonneg (mul_nonneg (not_le.mp hn).le (by norm_num))
  exact Int.floor_nonneg.mpr (add_nonneg hv (by norm_num))

/-- A parsed amount is a number of minor units, as a number. -/
theorem parseAmount_eq {raw : Option ℚ} (h : parseAmount raw = .ok amount) :
    ∃ a : ℤ, 0 ≤ a ∧ amount = num a := by
  cases raw with
  | none => cases h
  | some v => exact ⟨minorUnits v, parseAmount_minorUnits h⟩

/-- A parsed decimal of seven places in range is the number nearest to it. -/
theorem parseAmount_usdc (h : parseAmount (some (usdc a)) = .ok amount) (ha : a ≤ exactLimit) :
    0 ≤ a ∧ amount = num a := by
  simp only [parseAmount] at h
  split_ifs at h with hn
  have hpos : 0 ≤ a := by
    by_contra hle
    have hle' : (a : ℚ) ≤ 0 := by exact_mod_cast (not_le.mp hle).le
    exact hn (nearest_nonpos (div_nonpos_of_nonpos_of_nonneg hle' (by norm_num)))
  cases h
  exact ⟨hpos, round7_num (by rw [abs_of_nonneg hpos]; exact ha)⟩

/-- The guard of a taking operation: the bucket holds the amount, which is therefore in range. -/
theorem take_le (hb : 0 ≤ b) (hb' : b < exactLimit) (ha : 0 ≤ a)
    (hg : ¬ toNumber b < num a) : a ≤ b := by
  rw [toNumber_eq_num (by rw [abs_of_nonneg hb]; exact hb'.le)] at hg
  by_contra hlt
  rcases le_or_gt a exactLimit with hle | hgt
  · exact hg ((num_lt_num_iff (by rw [abs_of_nonneg hb]; exact hb'.le)
      (by rw [abs_of_nonneg ha]; exact hle)).mpr (not_le.mp hlt))
  · exact hg (num_lt_num_of_limit hb hb' hgt)

end amounts

/-! ### One bucket -/

/-- The sign with which the amount enters the bucket. -/
def BucketMove.sign : BucketMove → ℤ
  | .keep => 0
  | .add => 1
  | .addUnrounded => 1
  | .take => -1

/-- On an exact amount in range the bucket moves by exactly the amount, and the movement records
the balance the UPDATE writes. -/
theorem BucketMove.column_eq (m : BucketMove) {a b : ℤ} (ha : 0 < a) (hb : 0 ≤ b)
    (hadd : b + a ≤ exactLimit ∨ m.sign ≤ 0 ∧ b ≤ exactLimit) (htake : m = .take → a ≤ b) :
    m.column b (toNumber b) (num a) = b + m.sign * a ∧
      toNumeric (m.after (toNumber b) (num a)) = b + m.sign * a := by
  have hbL : |b| ≤ exactLimit := by
    rw [abs_of_nonneg hb]
    omega
  rw [toNumber_eq_num hbL]
  cases m with
  | keep => simp [column, after, sign, toNumeric_num hbL]
  | add =>
      have hsum : b + a ≤ exactLimit := hadd.resolve_right (by simp [sign])
      have hval : toNumeric (round7 (nearest (num b + num a))) = b + a := by
        rw [round7_add hb ha.le hsum,
          toNumeric_num (by rw [abs_of_nonneg (by omega)]; exact hsum)]
      simpa [column, after, sign] using hval
  | addUnrounded =>
      have hsum : b + a ≤ exactLimit := hadd.resolve_right (by simp [sign])
      simpa [column, after, sign] using toNumeric_add hb ha.le hsum
  | take =>
      have hab := htake rfl
      have hval : toNumeric (round7 (nearest (num b - num a))) = b - a := by
        rw [abs_of_nonneg hb] at hbL
        rw [round7_sub ha.le hab hbL, toNumeric_num (by rw [abs_of_nonneg (by omega)]; omega)]
      simpa [column, after, sign, sub_eq_add_neg] using hval

/-- A column that is read and recorded unchanged. -/
theorem toNumeric_toNumber {b : ℤ} (hb : 0 ≤ b) (hb' : b < exactLimit) :
    toNumeric (toNumber b) = b := by
  have hbL : |b| ≤ exactLimit := by
    rw [abs_of_nonneg hb]
    exact hb'.le
  rw [toNumber_eq_num hbL, toNumeric_num hbL]

/-! ### A posting on one wallet -/

/-- A guard that passed. -/
theorem PostRule.guard_eq_none {rule : PostRule} {bal : Buckets ℚ} {amount : ℚ}
    (h : rule.guard bal amount = none) :
    (rule.moves.available = .take → ¬ bal.available < amount) ∧
      (rule.moves.pending = .take → ¬ bal.pending < amount) ∧
      (rule.moves.locked = .take → ¬ bal.locked < amount) := by
  unfold guard at h
  split_ifs at h with h1 h2 h3
  exact ⟨fun hm hlt => h1 ⟨hm, hlt⟩, fun hm hlt => h2 ⟨hm, hlt⟩, fun hm hlt => h3 ⟨hm, hlt⟩⟩

/-- The balances after an operation, in integer arithmetic. -/
def PostRule.moved (rule : PostRule) (b : Buckets ℤ) (a : ℤ) : Buckets ℤ where
  available := b.available + rule.moves.available.sign * a
  pending := b.pending + rule.moves.pending.sign * a
  locked := b.locked + rule.moves.locked.sign * a

/-- The operations that raise the total of a wallet. -/
def LedgerOp.adds : LedgerOp → Bool
  | .creditOrgWallet | .creditOrgWalletPending => true
  | _ => false

/-- A posting that moved exactly `a` minor units. -/
structure ExactPost (op : LedgerOp) (p : LedgerWriteParams) (amount : ℚ) (l : Ledger) (a : ℤ) :
    Prop where
  pos : 0 < a
  amount_eq : amount = num a
  bounded : op.adds = true → (l.row p.wallet).balance.total + a < exactLimit
  columns : op.rule.columns (l.row p.wallet) amount = op.rule.moved (l.row p.wallet).balance a
  after : (op.rule.movement p amount l).after = op.rule.moved (l.row p.wallet).balance a
  amount : (op.rule.movement p amount l).amount = a

section post

variable {op : LedgerOp} {p : LedgerWriteParams} {amount : ℚ} {l : Ledger}

/-- A posting on balances in range moves each bucket by exactly the amount, and records what it
wrote. -/
theorem PostsOn.exact (h : PostsOn op.rule p amount l)
    (hrange : (l.row p.wallet).balance.InRange)
    (hadd : op.adds = true →
      ∃ a : ℤ, 0 ≤ a ∧ amount = num a ∧ (l.row p.wallet).balance.total + a < exactLimit) :
    ∃ a, ExactPost op p amount l a := by
  obtain ⟨a, ha, hnum, hadd⟩ : ∃ a : ℤ, 0 ≤ a ∧ amount = num a ∧
      (op.adds = true → (l.row p.wallet).balance.total + a < exactLimit) := by
    by_cases hop : op.adds = true
    · obtain ⟨a, ha, hnum, hlt⟩ := hadd hop
      exact ⟨a, ha, hnum, fun _ => hlt⟩
    · obtain ⟨a, ha, hnum⟩ := parseAmount_eq h.parsed
      exact ⟨a, ha, hnum, fun hop' => absurd hop' hop⟩
  obtain ⟨hav, hpe, hlo⟩ := hrange.nonneg
  have hbound := hrange.bounded
  have hadd' := hadd
  unfold Buckets.total at hbound hadd
  obtain ⟨g1, g2, g3⟩ := PostRule.guard_eq_none h.guarded
  rw [hnum] at g1 g2 g3
  have t1 := fun hm => take_le hav (by omega) ha (g1 hm)
  have t2 := fun hm => take_le hpe (by omega) ha (g2 hm)
  have t3 := fun hm => take_le hlo (by omega) ha (g3 hm)
  have hbuckets : ((l.row p.wallet).balance.available + a ≤ exactLimit ∨
        op.rule.moves.available.sign ≤ 0) ∧
      ((l.row p.wallet).balance.pending + a ≤ exactLimit ∨ op.rule.moves.pending.sign ≤ 0) ∧
      ((l.row p.wallet).balance.locked + a ≤ exactLimit ∨ op.rule.moves.locked.sign ≤ 0) ∧
      a ≤ exactLimit := by
    cases op with
    | creditOrgWallet =>
        have := hadd rfl
        exact ⟨.inl (by omega), .inr (by decide), .inr (by decide), by omega⟩
    | creditOrgWalletPending =>
        have := hadd rfl
        exact ⟨.inr (by decide), .inl (by omega), .inr (by decide), by omega⟩
    | releasePendingToAvailable =>
        have := t2 rfl
        exact ⟨.inl (by omega), .inr (by decide), .inr (by decide), by omega⟩
    | debitOrgWallet =>
        have := t1 rfl
        exact ⟨.inr (by decide), .inr (by decide), .inr (by decide), by omega⟩
    | lockOrgFunds =>
        have := t1 rfl
        exact ⟨.inr (by decide), .inr (by decide), .inl (by omega), by omega⟩
    | releaseOrgFunds =>
        have := t3 rfl
        exact ⟨.inl (by omega), .inr (by decide), .inr (by decide), by omega⟩
    | finalizeLockedDebit =>
        have := t3 rfl
        exact ⟨.inr (by decide), .inr (by decide), .inr (by decide), by omega⟩
  obtain ⟨r1, r2, r3, hle⟩ := hbuckets
  have hamount : (op.rule.movement p amount l).amount = a := by
    change toNumeric amount = a
    rw [hnum]
    exact toNumeric_num (by rw [abs_of_nonneg ha]; exact hle)
  have hpos : 0 < a := hamount ▸ h.amountPos
  obtain ⟨c1, s1⟩ := op.rule.moves.available.column_eq hpos hav
    (r1.imp_right fun hs => ⟨hs, by omega⟩) t1
  obtain ⟨c2, s2⟩ := op.rule.moves.pending.column_eq hpos hpe
    (r2.imp_right fun hs => ⟨hs, by omega⟩) t2
  obtain ⟨c3, s3⟩ := op.rule.moves.locked.column_eq hpos hlo
    (r3.imp_right fun hs => ⟨hs, by omega⟩) t3
  refine ⟨a, hpos, hnum, hadd', ?_, ?_, hamount⟩
  · rw [hnum]
    unfold PostRule.columns PostRule.moved WalletAccount.read
    rw [c1, c2, c3]
  · change (op.rule.after (l.row p.wallet).read amount).toNumeric = _
    rw [hnum]
    unfold PostRule.after PostRule.moved Buckets.toNumeric WalletAccount.read
    rw [s1, s2, s3]

/-- A posting that moved the locked bucket by exactly its amount, `a` minor units. -/
structure ExactLocked (op : LedgerOp) (p : LedgerWriteParams) (amount : ℚ) (l : Ledger) (a : ℤ) :
    Prop where
  pos : 0 < a
  posted : (op.rule.movement p amount l).amount = a
  column : (op.rule.columns (l.row p.wallet) amount).locked =
    (l.row p.wallet).balance.locked + op.rule.moves.locked.sign * a

/-- A locked bucket in range moves by exactly the amount; the other buckets need not be in
range. -/
theorem PostsOn.exactLocked (h : PostsOn op.rule p amount l) {a : ℤ} (ha : 0 ≤ a)
    (hnum : amount = num a)
    (hnonneg : 0 ≤ (l.row p.wallet).balance.locked)
    (hbound : (l.row p.wallet).balance.locked < exactLimit)
    (hadd : op.rule.moves.locked ≠ .take → (l.row p.wallet).balance.locked + a < exactLimit) :
    ExactLocked op p amount l a := by
  obtain ⟨-, -, hguard⟩ := PostRule.guard_eq_none h.guarded
  rw [hnum] at hguard
  have htake : op.rule.moves.locked = .take → a ≤ (l.row p.wallet).balance.locked := fun hm =>
    take_le hnonneg hbound ha (hguard hm)
  have hle : a ≤ exactLimit := by
    by_cases hm : op.rule.moves.locked = .take
    · have := htake hm
      omega
    · have := hadd hm
      omega
  have hamount : (op.rule.movement p amount l).amount = a := by
    change toNumeric amount = a
    rw [hnum]
    exact toNumeric_num (by rw [abs_of_nonneg ha]; exact hle)
  have hpos : 0 < a := hamount ▸ h.amountPos
  have hrange : (l.row p.wallet).balance.locked + a ≤ exactLimit ∨
      op.rule.moves.locked.sign ≤ 0 ∧ (l.row p.wallet).balance.locked ≤ exactLimit := by
    by_cases hm : op.rule.moves.locked = .take
    · exact .inr ⟨by rw [hm]; decide, hbound.le⟩
    · exact .inl (hadd hm).le
  obtain ⟨hcolumn, -⟩ := op.rule.moves.locked.column_eq hpos hnonneg hrange htake
  refine ⟨hpos, hamount, ?_⟩
  rw [hnum]
  exact hcolumn

end post

/-! ### A posting between two wallets -/

/-- A move of exactly `a` minor units. -/
structure ExactMove (mv : AvailableMove) (l : Ledger) (a : ℤ) : Prop where
  pos : 0 < a
  enough : a ≤ (l.row mv.src).balance.available
  src : (mv.srcRow l).balance =
    { (l.row mv.src).balance with available := (l.row mv.src).balance.available - a }
  dst : (mv.dstRow l).balance =
    { (l.row mv.dst).balance with available := (l.row mv.dst).balance.available + a }
  debitAfter : (mv.debit l).after = (mv.srcRow l).balance
  creditAfter : (mv.credit l).after = (mv.dstRow l).balance
  debitAmount : (mv.debit l).amount = a
  creditAmount : (mv.credit l).amount = a

/-- A move between balances in range is exact. -/
theorem AvailableMove.Moves.exact {mv : AvailableMove} {l : Ledger} {a : ℤ} (h : mv.Moves l)
    (hsrc : (l.row mv.src).balance.InRange) (hdst : (l.row mv.dst).balance.InRange)
    (hamount : mv.amount = num a) (ha : 0 ≤ a)
    (hbound : (l.row mv.dst).balance.total + a < exactLimit) : ExactMove mv l a := by
  obtain ⟨sav, spe, slo⟩ := hsrc.nonneg
  obtain ⟨dav, dpe, dlo⟩ := hdst.nonneg
  have sbound := hsrc.bounded
  unfold Buckets.total at sbound hbound
  have hg := h.guarded
  rw [hamount] at hg
  have hle : a ≤ (l.row mv.src).balance.available := take_le sav (by omega) ha hg
  have hamt : toNumeric mv.amount = a := by
    rw [hamount]
    exact toNumeric_num (by rw [abs_of_nonneg ha]; omega)
  have hpos : 0 < a := hamt ▸ h.amountPos
  obtain ⟨-, hs⟩ := BucketMove.take.column_eq hpos sav (.inr ⟨by decide, by omega⟩) (fun _ => hle)
  obtain ⟨-, hd⟩ := BucketMove.add.column_eq hpos dav (.inl (by omega)) (by simp)
  simp only [BucketMove.after, BucketMove.sign, ← hamount, neg_one_mul, ← sub_eq_add_neg,
    one_mul] at hs hd
  have hsrcBal : (mv.srcRow l).balance =
      { (l.row mv.src).balance with available := (l.row mv.src).balance.available - a } := by
    unfold srcRow srcAfter WalletAccount.read
    rw [hs]
  have hdstBal : (mv.dstRow l).balance =
      { (l.row mv.dst).balance with available := (l.row mv.dst).balance.available + a } := by
    unfold dstRow dstAfter WalletAccount.read
    rw [hd]
  refine ⟨hpos, hle, hsrcBal, hdstBal, ?_, ?_, hamt, hamt⟩
  · rw [hsrcBal]
    unfold debit Ledger.newMovement srcAfter Buckets.toNumeric WalletAccount.read
    simp only [hs, toNumeric_toNumber spe (by omega), toNumeric_toNumber slo (by omega)]
  · rw [hdstBal]
    unfold credit Ledger.newMovement dstAfter Buckets.toNumeric WalletAccount.read
    simp only [hd, toNumeric_toNumber dpe (by omega), toNumeric_toNumber dlo (by omega)]

end DayfiBackend.Infra
