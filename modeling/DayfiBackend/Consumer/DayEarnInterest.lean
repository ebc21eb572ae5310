import DayfiBackend.Consumer.DayEarnBalance
import DayfiBackend.Found.History

/-!
# The interest of a pot and the days it is credited

`syncPotInterest` credits all full days since a pot's cursor on what the pot holds now, and stores
the cursor when some day earned something. So the balance of a day is the right one when a deposit
or a withdrawal finds no full day behind it. It does not when the days before earned nothing, whose
cursor is not stored (`pennies_earn_afterwards`), or when a day ends between the sync and the
change. `interest_credited` is the result for runs in which every change is less than a day after
the cursor: at each sync the interest credited is that of the balances at the ends of the days,
whatever other syncs there were.
-/

namespace DayfiBackend.Consumer.DayEarn.Interest

open DayfiBackend.Found DayfiBackend.Found.Binary64 DayfiBackend.Found.Rows

/-! ### What a pot held -/

/-- A deposit or a withdrawal, by what it changed. -/
structure Change where
  time : ℕ
  amount : ℚ
  deriving DecidableEq, Repr

/-- What a pot was opened with, and the changes since. -/
structure PotHistory where
  opening : ℚ := 0
  changes : List Change := []
  deriving DecidableEq, Repr

/-- The history of each pot, by its id. -/
abbrev Histories := ℕ → PotHistory

/-- What was put into a pot and not taken out before a time. -/
def PotHistory.before (h : PotHistory) (time : ℕ) : ℚ :=
  h.opening + ((h.changes.filter (·.time < time)).map (·.amount)).sum

/-- The interest of some days, each on the balance that was in the pot at its end. -/
def earned (apyPercent : ℚ) (start : ℕ) (h : PotHistory) : ℕ → ℚ
  | 0 => 0
  | k + 1 =>
      earned apyPercent start h k +
        computeDailyInterest (h.before (start + (k + 1) * dayMs) + earned apyPercent start h k)
          apyPercent

/-- A pot, by its id. -/
def potAt? (T : Tables) (potId : ℕ) : Option Pot := T.pots.find? (·.id = potId)

/-- The history after a statement that is not a sync. -/
def PotHistory.noted (h : PotHistory) (old new : Option Pot) (time : ℕ) : PotHistory :=
  match old, new with
  | none, some p => { opening := p.balance }
  | some p, some q =>
      if q.balance = p.balance then h
      else { h with changes := ⟨time, q.balance - p.balance⟩ :: h.changes }
  | _, none => h

/-- The histories after a statement that is not a sync. -/
def Histories.noted (H : Histories) (T U : Tables) : Histories := fun potId =>
  (H potId).noted (potAt? T potId) (potAt? U potId) U.time

/-- The histories, kept beside a run. -/
def record {β : Type} (_ : ℕ) (st : Beside Query DayEarnSql β) (_ : Except DayEarnError Outside)
    (s : Store) (_ : β) (t : Store) (H : Histories) : Histories :=
  match st with
  | .inner _ => H
  | .own st =>
      match st with
      | .syncTx .. => H
      | _ => H.noted s.2 t.2

/-- The histories at the start of a run. -/
def opened (T : Tables) : Histories := fun potId =>
  { opening := ((potAt? T potId).map (·.balance)).getD 0 }

/-- The service, and what its pots held. -/
def watched : Machine (Beside Query DayEarnSql) (Except DayEarnError Outside) (Store × Histories) :=
  server.machine.keeping record

/-! ### What is credited -/

def MovementKey.isInterest : MovementKey → Bool
  | .interest .. => true
  | _ => false

/-- The interest credited to a pot. -/
def interestCredited (T : Tables) (potId : ℕ) : ℤ :=
  ((T.movements.filter fun m => m.potId = potId && MovementKey.isInterest m.key).map
    (·.amount)).sum

/-- A sync that comes through: its pot as it answers it, what the pot held before, the time, and
the interest credited by then. -/
structure SyncResult where
  row : Pot
  history : PotHistory
  time : ℕ
  credited : ℤ
  deriving DecidableEq, Repr

/-- What the next step of a process does, when it is a sync that comes through. -/
def syncAt? {α : Type} (P : Pool (Beside Query DayEarnSql) α (Store × Histories))
    (e : ℕ × Except DayEarnError Outside) : Option SyncResult :=
  match P.procs[e.1]? with
  | some (.act (.own st) _) =>
      match st with
      | .syncTx userId potId =>
          match server.machine.exec e.1 (.own (.syncTx userId potId)) e.2 P.store.1 with
          | some (.ok (some row), t) =>
              some ⟨row, P.store.2 potId, t.2.time, interestCredited t.2 potId⟩
          | _ => none
      | _ => none
  | _ => none

/-- The interest of the full days since the accrual started. -/
def SyncResult.expected (r : SyncResult) : ℚ :=
  earned r.row.apyPercent r.row.accrualStartsAt r.history
    ((r.time - r.row.accrualStartsAt) / dayMs)

/-- A statement of the service changes a pot less than a day after the cursor of its interest, and
opens one at a rate that is not negative. -/
def DayEarnSql.Timely {β : Type} (st : DayEarnSql β) (T : Tables) : Prop :=
  match st with
  | .depositTx a => ∀ p ∈ T.pots, p.id = a.potId → T.time < p.cursor + dayMs
  | .withdrawTx w => ∀ p ∈ T.pots, p.id = w.row.id → T.time < p.cursor + dayMs
  | .createTx n => 0 ≤ n.apyPercent
  | _ => True

/-- The condition on the steps of a run. -/
def Timely {β : Type} (_ : ℕ) (st : Beside Query DayEarnSql β) (o : Except DayEarnError Outside)
    (s : Store × Histories) : Prop :=
  match o, st with
  | .ok o, .own st => DayEarnSql.Timely st (s.1.2.tick o.elapsed)
  | _, _ => True

instance {β : Type} (st : DayEarnSql β) (T : Tables) : Decidable (DayEarnSql.Timely st T) :=
  decidable_of_bool (match st with
    | .depositTx a => decide (∀ p ∈ T.pots, p.id = a.potId → T.time < p.cursor + dayMs)
    | .withdrawTx w => decide (∀ p ∈ T.pots, p.id = w.row.id → T.time < p.cursor + dayMs)
    | .createTx n => decide (0 ≤ n.apyPercent)
    | _ => true) (by
      cases st <;> first | exact decide_eq_true_iff | exact iff_of_true rfl trivial)

instance {β : Type} (i : ℕ) (st : Beside Query DayEarnSql β) (o : Except DayEarnError Outside)
    (s : Store × Histories) : Decidable (Timely i st o s) :=
  decidable_of_bool (match o, st with
    | .ok o, .own st => decide (DayEarnSql.Timely st (s.1.2.tick o.elapsed))
    | _, _ => true) (by
      cases o <;> cases st <;>
        first | exact decide_eq_true_iff | exact iff_of_true rfl trivial)

/-- Tables whose pots have earned nothing yet. -/
structure Opened (T : Tables) : Prop where
  ids : (T.pots.map (·.id)).Nodup
  below : ∀ p ∈ T.pots, p.id < T.pots.length
  unsynced : ∀ p ∈ T.pots, p.lastInterestAt = none
  rate : ∀ p ∈ T.pots, 0 ≤ p.apyPercent
  nothing : ∀ m ∈ T.movements, MovementKey.isInterest m.key = false

/-! ### The interest of some days -/

section days

variable {apyPercent balance : ℚ} {start k n cursor : ℕ} {h : PotHistory} {c : Change}

theorem computeDailyInterest_nonneg (hrate : 0 ≤ apyPercent) :
    0 ≤ computeDailyInterest balance apyPercent := by
  unfold computeDailyInterest
  split_ifs with hle
  · exact le_rfl
  · have hpos := not_le.mp hle
    have hround : 0 ≤ round (balance * (apyPercent / 100) / 365 * 10 ^ 4) := by
      rw [round_eq]
      exact Int.floor_nonneg.mpr (by positivity)
    have hcast : (0 : ℚ) ≤ (round (balance * (apyPercent / 100) / 365 * 10 ^ 4) : ℤ) := by
      exact_mod_cast hround
    exact div_nonneg hcast (by norm_num)

/-- A change after a time is not seen before it. -/
theorem PotHistory.before_cons_of_le {time : ℕ} (hc : time ≤ c.time) :
    PotHistory.before { h with changes := c :: h.changes } time = h.before time := by
  unfold PotHistory.before
  dsimp only
  rw [List.filter_cons, if_neg (by simpa using hc)]

/-- All changes are seen after them. -/
theorem PotHistory.before_of_lt {time : ℕ} (hc : ∀ c ∈ h.changes, c.time < time) :
    h.before time = h.opening + (h.changes.map (·.amount)).sum := by
  unfold PotHistory.before
  rw [List.filter_eq_self.mpr fun c hmem => by simpa using hc c hmem]

/-- What was earned before a change does not depend on it. -/
theorem earned_cons (hc : k = 0 ∨ start + k * dayMs ≤ c.time) :
    earned apyPercent start { h with changes := c :: h.changes } k =
      earned apyPercent start h k := by
  induction k with
  | zero => rfl
  | succ k ih =>
      have hle : start + (k + 1) * dayMs ≤ c.time := hc.resolve_left (Nat.succ_ne_zero k)
      have hbefore : start + k * dayMs ≤ start + (k + 1) * dayMs :=
        Nat.add_le_add_left (Nat.mul_le_mul_right dayMs (Nat.le_add_right k 1)) start
      unfold earned
      rw [ih (.inr (hbefore.trans hle)), PotHistory.before_cons_of_le hle]

/-- The days credited at once are days on the balances at their ends, when nothing was changed
after the first of them ended. -/
theorem sum_accrue (hrate : 0 ≤ apyPercent)
    (hchanges : ∀ c ∈ h.changes, c.time < start + (k + 1) * dayMs)
    (hbalance : balance = h.opening + (h.changes.map (·.amount)).sum +
      earned apyPercent start h k) :
    ((accrue apyPercent n cursor balance).map (·.2)).sum =
      earned apyPercent start h (k + n) - earned apyPercent start h k := by
  induction n generalizing k cursor balance with
  | zero => simp [accrue]
  | succ n ih =>
      have hnext : ∀ c ∈ h.changes, c.time < start + (k + 1 + 1) * dayMs := by
        intro c hc
        exact (hchanges c hc).trans_le
          (Nat.add_le_add_left (Nat.mul_le_mul_right dayMs (Nat.le_add_right (k + 1) 1)) start)
      have hday : earned apyPercent start h (k + 1) =
          earned apyPercent start h k + computeDailyInterest balance apyPercent := by
        rw [earned, PotHistory.before_of_lt hchanges, ← hbalance]
      have hadd : k + (n + 1) = k + 1 + n := by omega
      unfold accrue
      dsimp only
      split_ifs with hpos
      · have hrest : balance + computeDailyInterest balance apyPercent = h.opening +
            (h.changes.map (·.amount)).sum + earned apyPercent start h (k + 1) := by
          rw [hday]
          linarith
        rw [List.map_cons, List.sum_cons, ih hnext hrest, hadd, hday]
        ring
      · have hzero : computeDailyInterest balance apyPercent = 0 :=
          le_antisymm (not_lt.mp hpos) (computeDailyInterest_nonneg hrate)
        rw [hzero, add_zero] at hday
        rw [← hday] at hbalance
        rw [ih hnext hbalance, hadd, hday]

end days

/-! ### What is kept -/

/-- A pot has been credited the interest of its first `k` days. -/
structure Accrued (T : Tables) (h : PotHistory) (p : Pot) (k : ℕ) : Prop where
  cursor : p.cursor = p.accrualStartsAt + k * dayMs
  past : k = 0 ∨ p.cursor ≤ T.time
  credited : fourPlaces (interestCredited T p.id) = earned p.apyPercent p.accrualStartsAt h k
  balance : p.balance = h.opening + (h.changes.map (·.amount)).sum +
    earned p.apyPercent p.accrualStartsAt h k
  changes : ∀ c ∈ h.changes, c.time < p.accrualStartsAt + (k + 1) * dayMs
  rate : 0 ≤ p.apyPercent

/-- Every pot is credited the interest of some days. -/
structure InOrder (T : Tables) (H : Histories) : Prop where
  ids : (T.pots.map (·.id)).Nodup
  below : ∀ p ∈ T.pots, p.id < T.pots.length
  owned : ∀ m ∈ T.movements, MovementKey.isInterest m.key = true → m.potId < T.pots.length
  pots : ∀ p ∈ T.pots, ∃ k, Accrued T (H p.id) p k

section kept

variable {T U : Tables} {H : Histories} {h : PotHistory} {p q : Pot} {k : ℕ} {time : ℕ}

theorem potAt?_mem {potId : ℕ} (hp : potAt? T potId = some p) : p ∈ T.pots ∧ p.id = potId :=
  ⟨List.mem_of_find?_eq_some hp, by simpa using List.find?_some hp⟩

theorem potAt?_eq_some (hids : (T.pots.map (·.id)).Nodup) (hp : p ∈ T.pots) :
    potAt? T p.id = some p := by
  cases hfound : potAt? T p.id with
  | none =>
      have hne := List.find?_eq_none.mp hfound p hp
      simp at hne
  | some q =>
      obtain ⟨hq, hid⟩ := potAt?_mem hfound
      rw [List.inj_on_of_nodup_map hids hq hp hid]

@[simp] theorem PotHistory.noted_self (old : Option Pot) : h.noted old old time = h := by
  cases old with
  | none => rfl
  | some p => simp [PotHistory.noted]

theorem Histories.noted_self (hpots : U.pots = T.pots) : H.noted T U = H := by
  funext potId
  unfold Histories.noted potAt?
  rw [hpots, PotHistory.noted_self]

/-- Another movement is no interest. -/
theorem credited_cons {m : PotMovement} (hm : MovementKey.isInterest m.key = false)
    (hU : U.movements = m :: T.movements) (potId : ℕ) :
    interestCredited U potId = interestCredited T potId := by
  unfold interestCredited
  rw [hU, List.filter_cons, if_neg (by simp [hm])]

theorem Accrued.later (hp : Accrued T h p k)
    (hcredited : interestCredited U p.id = interestCredited T p.id) (htime : T.time ≤ U.time) :
    Accrued U h p k :=
  { hp with
    past := hp.past.imp_right fun hle => hle.trans htime
    credited := hcredited ▸ hp.credited }

theorem InOrder.tick (hT : InOrder T H) (elapsed : ℕ) : InOrder (T.tick elapsed) H :=
  ⟨hT.ids, hT.below, hT.owned, fun p hp => by
    obtain ⟨k, hk⟩ := hT.pots p hp
    exact ⟨k, hk.later rfl (Nat.le_add_right _ _)⟩⟩

/-- A pot is the same but for what it holds. -/
structure SameTerms (p q : Pot) : Prop where
  id : q.id = p.id
  start : q.accrualStartsAt = p.accrualStartsAt
  rate : q.apyPercent = p.apyPercent
  last : q.lastInterestAt = p.lastInterestAt

/-- What a pot held is changed, less than a day after its cursor. -/
theorem Accrued.change (hp : Accrued T h p k) (hq : SameTerms p q)
    (hcredited : interestCredited U p.id = interestCredited T p.id) (htime : U.time = T.time)
    (htimely : q.balance ≠ p.balance → T.time < p.cursor + dayMs) :
    Accrued U (h.noted (some p) (some q) U.time) q k := by
  obtain ⟨hid, hstart, hrate, hlast⟩ := hq
  have hcursor : q.cursor = p.cursor := by
    unfold Pot.cursor
    rw [hlast, hstart]
  have hmoney := hp.balance
  unfold PotHistory.noted
  dsimp only
  split_ifs with hsame
  · refine ⟨?_, ?_, ?_, ?_, ?_, hrate ▸ hp.rate⟩
    · rw [hcursor, hstart, hp.cursor]
    · rw [hcursor, htime]
      exact hp.past
    · rw [hid, hcredited, hrate, hstart, hp.credited]
    · rw [hsame, hrate, hstart, hmoney]
    · rw [hstart]
      exact hp.changes
  · -- the change is after the days that were credited, and before the end of the next
    have hafter : k = 0 ∨ p.accrualStartsAt + k * dayMs ≤ U.time := by
      rw [htime, ← hp.cursor]
      exact hp.past
    refine ⟨?_, ?_, ?_, ?_, ?_, hrate ▸ hp.rate⟩
    · rw [hcursor, hstart, hp.cursor]
    · rw [hcursor, htime]
      exact hp.past
    · rw [hid, hcredited, hrate, hstart, earned_cons hafter, hp.credited]
    · rw [hrate, hstart, earned_cons hafter]
      simp only [List.map_cons, List.sum_cons]
      linarith
    · intro c hc
      rcases List.mem_cons.mp hc with rfl | hc
      · have hlt := htimely hsame
        rw [hp.cursor] at hlt
        dsimp only
        rw [htime, hstart, Nat.succ_mul]
        omega
      · rw [hstart]
        exact hp.changes c hc

/-- Some pots are changed in time. -/
theorem InOrder.change (hT : InOrder T H) {f : Pot → Pot} (hpots : U.pots = T.pots.map f)
    (hf : ∀ p ∈ T.pots, SameTerms p (f p)) {m : PotMovement}
    (hm : MovementKey.isInterest m.key = false) (hU : U.movements = m :: T.movements)
    (htime : U.time = T.time)
    (htimely : ∀ p ∈ T.pots, (f p).balance ≠ p.balance → T.time < p.cursor + dayMs) :
    InOrder U (H.noted T U) := by
  have hids : (U.pots.map (·.id)) = T.pots.map (·.id) := by
    rw [hpots, List.map_map]
    exact List.map_congr_left fun p hp => (hf p hp).id
  have hnodup : (U.pots.map (·.id)).Nodup := hids ▸ hT.ids
  have hlength : U.pots.length = T.pots.length := by rw [hpots, List.length_map]
  refine ⟨hnodup, fun q hq => ?_, fun x hx hinterest => ?_, fun q hq => ?_⟩
  · rw [hpots] at hq
    obtain ⟨p, hp, rfl⟩ := List.mem_map.mp hq
    rw [hlength, (hf p hp).id]
    exact hT.below p hp
  · rw [hU] at hx
    rw [hlength]
    rcases List.mem_cons.mp hx with rfl | hx
    · rw [hm] at hinterest
      cases hinterest
    · exact hT.owned x hx hinterest
  · have hat := potAt?_eq_some hnodup hq
    rw [hpots] at hq
    obtain ⟨p, hp, rfl⟩ := List.mem_map.mp hq
    obtain ⟨k, hk⟩ := hT.pots p hp
    have hold := potAt?_eq_some hT.ids hp
    refine ⟨k, ?_⟩
    unfold Histories.noted
    rw [hat, (hf p hp).id, hold]
    exact hk.change (hf p hp) (credited_cons hm hU p.id) htime (htimely p hp)

/-- No interest is credited to a pot that is not there. -/
theorem InOrder.credited_eq_zero (hT : InOrder T H) {potId : ℕ} (hnew : T.pots.length ≤ potId) :
    interestCredited T potId = 0 := by
  unfold interestCredited
  rw [List.filter_eq_nil_iff.mpr]
  · rfl
  · intro m hm hmatch
    simp only [Bool.and_eq_true, decide_eq_true_eq] at hmatch
    have hlt := hT.owned m hm hmatch.2
    omega

/-- A pot is opened. -/
theorem InOrder.create (hT : InOrder T H) {m : PotMovement}
    (hm : MovementKey.isInterest m.key = false) (hU : U.movements = m :: T.movements)
    (hpots : U.pots = q :: T.pots) (hid : q.id = T.pots.length)
    (hlast : q.lastInterestAt = none) (hrate : 0 ≤ q.apyPercent) (htime : U.time = T.time) :
    InOrder U (H.noted T U) := by
  have hnew : ∀ p ∈ T.pots, p.id ≠ q.id := fun p hp => hid ▸ (hT.below p hp).ne
  have hlength : U.pots.length = T.pots.length + 1 := by rw [hpots, List.length_cons]
  have hnodup : (U.pots.map (·.id)).Nodup := by
    rw [hpots, List.map_cons]
    refine List.nodup_cons.mpr ⟨fun hmem => ?_, hT.ids⟩
    obtain ⟨p, hp, he⟩ := List.mem_map.mp hmem
    exact hnew p hp he
  refine ⟨hnodup, fun p hp => ?_, fun x hx hinterest => ?_, fun p hp => ?_⟩
  · rw [hpots] at hp
    rw [hlength]
    rcases List.mem_cons.mp hp with rfl | hp
    · omega
    · exact (hT.below p hp).trans (Nat.lt_succ_self _)
  · rw [hU] at hx
    rw [hlength]
    rcases List.mem_cons.mp hx with rfl | hx
    · rw [hm] at hinterest
      cases hinterest
    · exact (hT.owned x hx hinterest).trans (Nat.lt_succ_self _)
  · have hat := potAt?_eq_some hnodup hp
    rw [hpots] at hp
    unfold Histories.noted
    rw [hat]
    rcases List.mem_cons.mp hp with rfl | hp
    · have hold : potAt? T p.id = none :=
        List.find?_eq_none.mpr fun x hx => by simpa using hnew x hx
      have hzero : interestCredited U p.id = 0 := by
        rw [credited_cons hm hU, hT.credited_eq_zero hid.ge]
      rw [hold]
      refine ⟨0, ?_, .inl rfl, ?_, ?_, fun c hc => (by cases hc), hrate⟩
      · simp [Pot.cursor, hlast]
      · simp [hzero, earned, fourPlaces]
      · simp [PotHistory.noted, earned]
    · obtain ⟨k, hk⟩ := hT.pots p hp
      rw [potAt?_eq_some hT.ids hp, PotHistory.noted_self]
      exact ⟨k, hk.later (credited_cons hm hU p.id) htime.ge⟩

/-- The days since the accrual started, and those credited already. -/
theorem Accrued.days (hp : Accrued T h p k) :
    (T.time - p.accrualStartsAt) / dayMs = k + (T.time - p.cursor) / dayMs := by
  have hpos : 0 < dayMs := by decide
  have hcursor := hp.cursor
  rcases hp.past with rfl | hle
  · rw [hcursor]
    simp
  · have hsub : T.time - p.accrualStartsAt = T.time - p.cursor + k * dayMs := by omega
    rw [hsub, Nat.add_mul_div_right _ _ hpos, Nat.add_comm]

/-- The interest of the days that have passed. -/
theorem Accrued.sum_credits (hp : Accrued T h p k) :
    ((p.credits T.time).map (·.2)).sum =
      earned p.apyPercent p.accrualStartsAt h ((T.time - p.accrualStartsAt) / dayMs) -
        earned p.apyPercent p.accrualStartsAt h k := by
  rw [hp.days]
  exact sum_accrue hp.rate hp.changes hp.balance

/-- The interest of some days is credited to their pot. -/
theorem credited_append (credits : List (ℕ × ℚ))
    (hU : U.movements = credits.map p.interestMovement ++ T.movements) (potId : ℕ) :
    interestCredited U potId = interestCredited T potId +
      if p.id = potId then (credits.map fun credit => units credit.2).sum else 0 := by
  unfold interestCredited
  rw [hU, List.filter_append, List.map_append, List.sum_append, add_comm]
  congr 1
  split_ifs with hid
  · rw [List.filter_eq_self.mpr, List.map_map]
    · rfl
    · intro m hm
      obtain ⟨credit, -, rfl⟩ := List.mem_map.mp hm
      simp [Pot.interestMovement, MovementKey.isInterest, hid]
  · rw [List.filter_eq_nil_iff.mpr]
    · rfl
    · intro m hm
      obtain ⟨credit, -, rfl⟩ := List.mem_map.mp hm
      simp [Pot.interestMovement, hid]

theorem cursor_synced (p : Pot) (now : ℕ) :
    (p.synced now).cursor = p.cursor + (now - p.cursor) / dayMs * dayMs := by
  have hlast : (p.synced now).lastInterestAt =
      some (p.cursor + (now - p.cursor) / dayMs * dayMs) := rfl
  unfold Pot.cursor at hlast ⊢
  rw [hlast, Option.getD_some]

/-- A pot is credited the days that have passed. -/
theorem Accrued.synced (hp : Accrued T h p k)
    (hU : U.movements = (p.credits T.time).map p.interestMovement ++ T.movements)
    (htime : U.time = T.time) :
    Accrued U h (p.synced T.time) ((T.time - p.accrualStartsAt) / dayMs) := by
  have hunits : ∀ credit ∈ p.credits T.time, credit.2 = fourPlaces (units credit.2) :=
    fun credit hcredit => (accrue_units _ _ _ _ credit hcredit).1
  have hsum := hp.sum_credits
  have hcursor := cursor_synced p T.time
  have hdays := hp.days
  have hnext : k * dayMs + (T.time - p.cursor) / dayMs * dayMs =
      (T.time - p.accrualStartsAt) / dayMs * dayMs := by
    rw [hdays, Nat.add_mul]
  have hstart : (p.synced T.time).accrualStartsAt = p.accrualStartsAt := rfl
  have hrate : (p.synced T.time).apyPercent = p.apyPercent := rfl
  refine ⟨?_, ?_, ?_, ?_, fun c hc => ?_, hp.rate⟩
  · rw [hcursor, hstart, ← hnext, ← Nat.add_assoc, ← hp.cursor]
  · rw [hcursor, htime]
    by_cases hle : p.cursor ≤ T.time
    · have hmul := Nat.div_mul_le_self (T.time - p.cursor) dayMs
      exact .inr (by omega)
    · refine .inl ?_
      rw [hdays, Nat.sub_eq_zero_of_le (not_le.mp hle).le, Nat.zero_div, Nat.add_zero]
      exact hp.past.resolve_right hle
  · have hcredited := hp.credited
    have hid : (p.synced T.time).id = p.id := rfl
    rw [hid, hstart, hrate, credited_append _ hU, if_pos rfl, ← fourPlaces_add,
      ← sum_units hunits, hsum, hcredited, add_sub_cancel]
  · have hbalance := hp.balance
    have hheld : (p.synced T.time).balance =
        p.balance + ((p.credits T.time).map (·.2)).sum := by
      unfold Pot.balance Pot.synced
      dsimp only
      rw [sum_units hunits, fourPlaces_add, units_fourPlaces, ← fourPlaces_add]
      ring
    rw [hheld, hstart, hrate, hsum, hbalance, add_assoc, add_sub_cancel]
  · have hlt := hp.changes c hc
    have hmul : (k + 1) * dayMs ≤ ((T.time - p.accrualStartsAt) / dayMs + 1) * dayMs := by
      rw [hdays]
      exact Nat.mul_le_mul_right dayMs (Nat.add_le_add_right (Nat.le_add_right k _) 1)
    rw [hstart]
    exact hlt.trans_le (Nat.add_le_add_left hmul p.accrualStartsAt)

/-- A sync credits the interest of the days since the accrual started, up to its time. -/
theorem InOrder.sync (hT : InOrder T H) (userId : String) (potId : ℕ) :
    InOrder (T.syncTx userId potId).2 H ∧ (T.syncTx userId potId).2.time = T.time ∧
      ∀ row, (T.syncTx userId potId).1 = .ok (some row) →
        fourPlaces (interestCredited (T.syncTx userId potId).2 potId) =
          earned row.apyPercent row.accrualStartsAt (H potId)
            ((T.time - row.accrualStartsAt) / dayMs) := by
  unfold Tables.syncTx
  cases hrow : T.pot? userId potId with
  | none => exact ⟨hT, rfl, fun row h => (by cases h)⟩
  | some row =>
      have hmem := List.mem_of_find?_eq_some hrow
      have hid : row.id = potId := by
        have hmatch := List.find?_some hrow
        simp only [Bool.and_eq_true, decide_eq_true_eq] at hmatch
        exact hmatch.1.1
      obtain ⟨k, hk⟩ := hT.pots row hmem
      subst hid
      have hsum := hk.sum_credits
      have hcredited := hk.credited
      dsimp only
      split_ifs with hearly hnone hrange hdup hlimit
      · obtain ⟨hunsynced, hfirst⟩ := hearly
        refine ⟨hT, rfl, fun row' h => ?_⟩
        obtain rfl := Option.some.inj (Except.ok.inj h)
        have hcursor : row.cursor = row.accrualStartsAt := by
          unfold Pot.cursor
          rw [Option.isNone_iff_eq_none.mp hunsynced]
          rfl
        have hday : 0 < dayMs := by decide
        have hzero : (T.time - row.cursor) / dayMs = 0 := by
          rw [hcursor]
          exact Nat.div_eq_of_lt (by omega)
        rw [hk.days, hzero, Nat.add_zero]
        exact hcredited
      · refine ⟨hT, rfl, fun row' h => ?_⟩
        obtain rfl := Option.some.inj (Except.ok.inj h)
        rw [hnone, List.map_nil, List.sum_nil] at hsum
        linarith
      · exact ⟨hT, rfl, fun row h => (by cases h)⟩
      · exact ⟨hT, rfl, fun row h => (by cases h)⟩
      · have hU : InOrder { T with
            pots := T.pots.map fun p => if p.id = row.id then row.synced T.time else p
            movements := (row.credits T.time).map row.interestMovement ++ T.movements } H := by
          refine ⟨?_, fun q hq => ?_, fun m hm hinterest => ?_, fun q hq => ?_⟩
          · have hids : ((T.pots.map fun p => if p.id = row.id then row.synced T.time else p).map
                (·.id)) = T.pots.map (·.id) := by
              rw [List.map_map]
              refine List.map_congr_left fun p _ => ?_
              dsimp only [Function.comp]
              split_ifs with hid
              · exact hid.symm
              · rfl
            rw [hids]
            exact hT.ids
          · obtain ⟨p, hp, rfl⟩ := List.mem_map.mp hq
            rw [List.length_map]
            split_ifs
            · exact hT.below row hmem
            · exact hT.below p hp
          · rw [List.length_map]
            rcases List.mem_append.mp hm with hm | hm
            · obtain ⟨credit, -, rfl⟩ := List.mem_map.mp hm
              exact hT.below row hmem
            · exact hT.owned m hm hinterest
          · obtain ⟨p, hp, rfl⟩ := List.mem_map.mp hq
            split_ifs with hid
            · exact ⟨_, hk.synced rfl rfl⟩
            · obtain ⟨j, hj⟩ := hT.pots p hp
              refine ⟨j, hj.later ?_ le_rfl⟩
              rw [credited_append (p := row) _ rfl, if_neg (Ne.symm hid), add_zero]
        refine ⟨hU, rfl, fun row' h => ?_⟩
        obtain rfl := Option.some.inj (Except.ok.inj h)
        exact (hk.synced (U := { T with
            pots := T.pots.map fun p => if p.id = row.id then row.synced T.time else p
            movements := (row.credits T.time).map row.interestMovement ++ T.movements })
          rfl rfl).credited
      · exact ⟨hT, rfl, fun row h => (by cases h)⟩

/-- A statement of the service, some time after the one before. -/
theorem InOrder.statement {s : Store} {β : Type} (st : DayEarnSql β) (o : Outside) (i : ℕ) (b : β)
    (hs : InOrder s.2 H) (htimely : DayEarnSql.Timely st (s.2.tick o.elapsed)) :
    InOrder (st.run o s).2.2 (record i (.own st) (.ok o) s b (st.run o s).2 H) := by
  have hT := hs.tick o.elapsed
  have hquiet : InOrder (s.2.tick o.elapsed) (H.noted s.2 (s.2.tick o.elapsed)) := by
    have hsame : H.noted s.2 (s.2.tick o.elapsed) = H := Histories.noted_self rfl
    rw [hsame]
    exact hT
  set T := s.2.tick o.elapsed with htick
  cases st with
  | syncTx userId potId => exact (hT.sync userId potId).1
  | createTx n =>
      change InOrder (T.createTx n).2 (H.noted T (T.createTx n).2)
      rcases T.createTx_cases n with ⟨r, hr⟩ | ⟨d, hd, -, -, -, hr⟩
      · rw [hr]
        exact hquiet
      · rw [hr]
        exact hT.create (by rw [hd]; rfl) rfl rfl rfl rfl htimely rfl
  | depositTx a =>
      change InOrder (T.depositTx a).2 (H.noted T (T.depositTx a).2)
      rcases T.depositTx_cases a with ⟨r, hr⟩ | ⟨row, hrow, d, ⟨hid, -⟩, hd, -, -, hr⟩
      · rw [hr]
        exact hquiet
      · rw [hr]
        refine hT.change rfl (fun p hp => ?_) (by rw [hd]; rfl) rfl rfl fun p hp hne => ?_
        · split_ifs with heq
          · rw [List.inj_on_of_nodup_map hT.ids hp hrow heq]
            exact ⟨rfl, rfl, rfl, rfl⟩
          · exact ⟨rfl, rfl, rfl, rfl⟩
        · split_ifs at hne with heq
          · exact htimely p hp (heq.trans hid)
          · exact absurd rfl hne
  | withdrawTx w =>
      change InOrder (T.withdrawTx w).2 (H.noted T (T.withdrawTx w).2)
      rcases T.withdrawTx_cases w with ⟨e, hr⟩ | ⟨-, -, hr⟩
      · rw [hr]
        exact hquiet
      · rw [hr]
        refine hT.change rfl (fun p _ => ?_) rfl rfl rfl fun p hp hne => ?_
        · unfold Withdrawal.after
          split_ifs
          · exact ⟨rfl, rfl, rfl, rfl⟩
          · exact ⟨rfl, rfl, rfl, rfl⟩
        · unfold Withdrawal.after at hne
          split_ifs at hne with heq
          · exact htimely p hp heq
          · exact absurd rfl hne
  | _ => exact hquiet

/-- One step of a run. -/
theorem InOrder.step {β : Type} (i : ℕ) (st : Beside Query DayEarnSql β)
    (o : Except DayEarnError Outside) (s : Store × Histories) (b : β) (t : Store × Histories)
    (hexec : watched.exec i st o s = some (b, t)) (htimely : Timely i st o s)
    (hs : InOrder s.1.2 s.2) : InOrder t.1.2 t.2 := by
  obtain ⟨hexec, hrecord⟩ := Machine.keeping_exec hexec
  rw [hrecord]
  rcases Backend.exec_cases hexec with ⟨e, rfl, -, ht⟩ | ⟨o', rfl, hb, ht⟩
  · -- a statement that fails changes no pot
    rw [ht]
    cases st with
    | inner st => exact hs
    | own st =>
        have hsame : s.2.noted s.1.2 s.1.2 = s.2 := Histories.noted_self rfl
        cases st with
        | syncTx userId potId => exact hs
        | _ =>
            change InOrder s.1.2 (s.2.noted s.1.2 s.1.2)
            rw [hsame]
            exact hs
  · cases st with
    | inner st =>
        rw [ht]
        exact hs
    | own st =>
        rw [ht]
        exact hs.statement st o' i b htimely

/-- A pot that has earned nothing. -/
theorem Opened.inOrder (hT : Opened T) : InOrder T (opened T) := by
  have hnothing : ∀ potId, interestCredited T potId = 0 := by
    intro potId
    unfold interestCredited
    rw [List.filter_eq_nil_iff.mpr fun m hm => by simp [hT.nothing m hm]]
    rfl
  refine ⟨hT.ids, hT.below, fun m hm h => ?_, fun p hp => ⟨0, ?_, .inl rfl, ?_, ?_, ?_, ?_⟩⟩
  · rw [hT.nothing m hm] at h
    cases h
  · simp [Pot.cursor, hT.unsynced p hp]
  · simp [hnothing, earned, fourPlaces]
  · simp [opened, potAt?_eq_some hT.ids hp, earned]
  · intro c hc
    cases hc
  · exact hT.rate p hp

end kept

/-! ### Runs -/

section runs

variable {α : Type} {P Q : Pool (Beside Query DayEarnSql) α Store}
  {sched sched' : List (ℕ × Except DayEarnError Outside)} {e e' : ℕ × Except DayEarnError Outside}
  {r r' : SyncResult}

/-- The pool, its pots' histories beside it. -/
def beside (P : Pool (Beside Query DayEarnSql) α Store) :
    Pool (Beside Query DayEarnSql) α (Store × Histories) := P.beside (opened P.store.2)

/-- A sync credits what the days before it earned. -/
theorem credited_of_inOrder {P : Pool (Beside Query DayEarnSql) α (Store × Histories)}
    (h : InOrder P.store.1.2 P.store.2) (hr : syncAt? P e = some r) :
    fourPlaces r.credited = r.expected := by
  unfold syncAt? at hr
  split at hr
  · rename_i β st k hproc
    split at hr
    · rename_i userId potId _
      split at hr
      · rename_i row t hexec
        obtain rfl := Option.some.inj hr
        rcases Backend.exec_cases hexec with ⟨e', -, hb, -⟩ | ⟨o, -, hb, ht⟩
        · cases hb
        · obtain ⟨-, htime, hcredited⟩ := (h.tick o.elapsed).sync userId potId
          have hrow := hcredited row hb.symm
          have hstore : t.2 = ((P.store.1.2.tick o.elapsed).syncTx userId potId).2 :=
            congrArg Prod.snd ht
          unfold SyncResult.expected
          dsimp only
          rw [hstore, htime]
          exact hrow
      · cases hr
    · cases hr
  · cases hr

theorem inOrder_run (hP : Opened P.store.2)
    (hc : Pool.Along watched (Pool.CondAt Timely) (beside P) sched) :
    InOrder ((beside P).run watched sched).store.1.2 ((beside P).run watched sched).store.2 :=
  Pool.run_inv_of_cond (F := fun s => InOrder s.1.2 s.2) InOrder.step hc hP.inOrder

end runs

/-! ### Some pots -/

/-- A pot is opened, some dollars are added later, and it is synced. -/
def saveAndAdd (dollars added : ℚ) : List Request :=
  [.createDayEarnPot { userId := "ada", walletId := 1, name := "rent", amount := dollars },
    .depositToDayEarnPot { userId := "ada", walletId := 1, potId := 0, amount := added },
    .syncPotInterest "ada" 0]

/-- The pot of `saveAndAdd`, synced twice more. -/
def saveSyncAndAdd (dollars added : ℚ) : List Request :=
  saveAndAdd dollars added ++ [.syncPotInterest "ada" 0, .syncPotInterest "ada" 0]

/-- The requests of `saveAndAdd` one after the other, some hours apart, up to the last sync. -/
def apart (hours hours' : ℕ) : List (ℕ × Except DayEarnError Outside) :=
  turns 0 7 0 ++ turns 1 9 (hours * 3600000) ++ turns 2 0 (hours' * 3600000)

/-- Those of `saveSyncAndAdd`: the other syncs are some hours before the addition, and between it
and the last one. -/
def apartSynced : List (ℕ × Except DayEarnError Outside) :=
  turns 0 7 0 ++ turns 3 1 (76 * 3600000) ++ turns 1 9 (8 * 3600000) ++
    turns 4 1 (36 * 3600000) ++ turns 2 0 (24 * 3600000)

/-- What the last sync answers in both. -/
def adaSynced : SyncResult where
  row :=
    { id := 0, userId := "ada", name := "rent", principal := 1050000, interestEarned := 98804,
      apyPercent := 7, accrualStartsAt := dayMs, lastInterestAt := some (6 * dayMs) }
  history := { opening := 10000, changes := [⟨302400000, 500⟩] }
  time := 6 * dayMs
  credited := 98804

end DayfiBackend.Consumer.DayEarn.Interest
