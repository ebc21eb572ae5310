import DayfiBackend.Consumer.InvestmentPayouts
import DayfiBackend.Consumer.BalanceAgreement

/-!
# The limits of locked investments

`depositToInvestment` reads how much is locked, in total and by its user, and checks that its
amount still fits; the position is inserted later, after the debit. What the check was made on is
noted beside the run (`Read`). In a run in which no more is locked, when the transaction of a
deposit runs, than the deposit has read (`Current`), the limits hold in every state (`caps_hold`);
two deposits that read before either inserts lock more (`two_deposits_over_the_cap`).
-/

namespace DayfiBackend.Consumer.Investments

open DayfiBackend.Found DayfiBackend.Found.Binary64 DayfiBackend.Found.Prog

/-! ### The property -/

/-- The limits hold: of what is locked in total, and of what each user has locked. -/
structure CapsHold (limits : Limits) (T : Tables) : Prop where
  total : decimal (T.lockedPrincipal none) ≤ limits.maxTvlUsd
  user : ∀ userId, decimal (T.lockedPrincipal (some userId)) ≤ limits.maxUserLockedUsd

/-- A limit of whole cents, small enough for sums near it to be exact to the cent. -/
def Plain (cap : ℚ) : Prop := toFixed2 cap = cap ∧ 0 ≤ cap ∧ cap ≤ 2 ^ 43

instance (cap : ℚ) : Decidable (Plain cap) := inferInstanceAs (Decidable (_ ∧ _ ∧ _))

/-- What a process has read: how much is locked, in total and by its user. -/
structure Read where
  total : ℤ := 0
  user : ℤ := 0
  deriving DecidableEq, Repr

/-- What a process has read, once a statement is answered. -/
def InvestmentSql.noted {β : Type} (st : InvestmentSql β) (T : Tables) (read : Read) : Read :=
  match st with
  | .lockedPrincipal none => { read with total := T.lockedPrincipal none }
  | .lockedPrincipal (some userId) => { read with user := T.lockedPrincipal (some userId) }
  | _ => read

/-- What is read is noted. -/
def reading {β : Type} (st : Beside Query InvestmentSql β) (o : Except InvestmentError Outside)
    (s : Store) (_ : β) (_ : Store) (read : Read) : Read :=
  match st, o with
  | .own st, .ok _ => st.noted s.2 read
  | _, _ => read

/-- The server, and what each process has read. -/
def watched : Machine (Beside Query InvestmentSql) (Except InvestmentError Outside)
    (Store × (ℕ → Read)) :=
  server.machine.noting reading

/-- The condition on a statement of the service: the environment sets these limits, and when the
transaction of a deposit runs, no more is locked than the deposit has read. -/
def InvestmentSql.Current {β : Type} (st : InvestmentSql β) (limits : Limits) (o : Outside)
    (T : Tables) (read : Read) : Prop :=
  match st with
  | .limits => o.limits = limits
  | .depositTx d =>
      T.lockedPrincipal none ≤ read.total ∧ T.lockedPrincipal (some d.userId) ≤ read.user
  | _ => True

instance {β : Type} (st : InvestmentSql β) (limits : Limits) (o : Outside) (T : Tables)
    (read : Read) : Decidable (st.Current limits o T read) :=
  decidable_of_bool (match st with
    | .limits => decide (o.limits = limits)
    | .depositTx d => decide (T.lockedPrincipal none ≤ read.total ∧
        T.lockedPrincipal (some d.userId) ≤ read.user)
    | _ => true) (by
      cases st <;> first | exact decide_eq_true_iff | exact iff_of_true rfl trivial)

/-- The condition on the steps of a run. -/
def Current (limits : Limits) {β : Type} (i : ℕ) (st : Beside Query InvestmentSql β)
    (o : Except InvestmentError Outside) (s : Store × (ℕ → Read)) : Prop :=
  match st, o with
  | .own st, .ok o => st.Current limits o s.1.2 (s.2 i)
  | _, _ => True

instance {β : Type} (limits : Limits) (i : ℕ) (st : Beside Query InvestmentSql β)
    (o : Except InvestmentError Outside) (s : Store × (ℕ → Read)) :
    Decidable (Current limits i st o s) :=
  decidable_of_bool (match st, o with
    | .own st, .ok o => decide (st.Current limits o s.1.2 (s.2 i))
    | _, _ => true) (by
      cases st <;> cases o <;>
        first | exact decide_eq_true_iff | exact iff_of_true rfl trivial)

/-! ### The check -/

/-- What the check lets pass fits under a plain limit, to the cent. -/
theorem fits_of_check {cap amount : ℚ} {locked : ℤ} (hcap : Plain cap) (hlocked : 0 ≤ locked)
    (hamount : 0 ≤ amount)
    (hcheck : ¬ cap < nearest (nearest (decimal locked) + nearest amount)) :
    decimal (locked + cents amount) ≤ cap := by
  obtain ⟨hwhole, hcap0, hle⟩ := hcap
  have hx : (0 : ℚ) ≤ decimal locked := by
    unfold decimal
    positivity
  have hnx := nearest_nonneg hx
  have hna := nearest_nonneg hamount
  have herr : ∀ {x : ℚ}, 0 ≤ x → x * (1 - 1 / 2 ^ 53) ≤ nearest x := by
    intro x h0
    have h := (abs_le.mp (abs_sub_nearest_le x)).2
    rw [abs_of_nonneg h0] at h
    linarith
  have hsum : (decimal locked + amount) * (1 - 1 / 2 ^ 53) * (1 - 1 / 2 ^ 53) ≤ cap := by
    have h1 := herr hx
    have h2 := herr hamount
    have h3 := herr (add_nonneg hnx hna)
    have hstep : (decimal locked + amount) * (1 - 1 / 2 ^ 53) * (1 - 1 / 2 ^ 53) ≤
        (nearest (decimal locked) + nearest amount) * (1 - 1 / 2 ^ 53) := by
      refine mul_le_mul_of_nonneg_right ?_ (by norm_num)
      linarith
    linarith [not_lt.mp hcheck]
  -- one cent above the limit would be more than the rounding can hide
  by_contra hover
  have hcents : cents cap + 1 ≤ locked + cents amount := by
    have hlt : decimal (cents cap) < decimal (locked + cents amount) := by
      rw [show decimal (cents cap) = cap from hwhole]
      exact not_le.mp hover
    have hmul : (cents cap : ℚ) < ((locked + cents amount : ℤ) : ℚ) := by
      rw [← decimal_mul, ← decimal_mul (locked + cents amount)]
      linarith
    exact_mod_cast hmul
  have hamountCents : (cents amount : ℚ) ≤ amount * 100 + 1 / 2 := by
    rw [cents_of_nonneg hamount]
    exact Int.floor_le _
  have hcast : (cents cap : ℚ) + 1 ≤ (locked : ℚ) + cents amount := by exact_mod_cast hcents
  have hcapMul : (cents cap : ℚ) = cap * 100 := by
    rw [← decimal_mul, show decimal (cents cap) = cap from hwhole]
  have hlockedMul : (locked : ℚ) = decimal locked * 100 := (decimal_mul locked).symm
  have hmore : cap + 1 / 200 ≤ decimal locked + amount := by linarith
  have hlower : (cap + 1 / 200) * (1 - 1 / 2 ^ 53) * (1 - 1 / 2 ^ 53) ≤ cap := by
    refine le_trans ?_ hsum
    have hpos : (0 : ℚ) ≤ 1 - 1 / 2 ^ 53 := by norm_num
    exact mul_le_mul_of_nonneg_right (mul_le_mul_of_nonneg_right hmore hpos) hpos
  nlinarith

/-! ### What is locked -/

section caps

variable {limits : Limits} {i : ℕ} {s t u : Store × (ℕ → Read)} {T : Tables} {A : Accounts}
  {whose : Option String}

/-- What a position counts for, while it is not claimed. -/
def counted (whose : Option String) (p : Position) : ℤ :=
  if Tables.concerns whose p && p.status ≠ .claimed then p.principal else 0

theorem lockedPrincipal_eq (T : Tables) (whose : Option String) :
    T.lockedPrincipal whose = (T.positions.map (counted whose)).sum := by
  unfold Tables.lockedPrincipal
  induction T.positions with
  | nil => rfl
  | cons p ps ih =>
      rw [List.map_cons, List.sum_cons, ← ih]
      by_cases hp : (Tables.concerns whose p && p.status ≠ .claimed) = true
      · rw [List.filter_cons_of_pos (by simpa using hp)]
        simp only [counted, if_pos hp, List.map_cons, List.sum_cons]
      · rw [List.filter_cons_of_neg (by simpa using hp)]
        simp only [counted, if_neg hp, zero_add]

/-- Principals are not negative. -/
def Sound (T : Tables) : Prop := ∀ p ∈ T.positions, 0 ≤ p.principal

theorem Sound.locked_nonneg (h : Sound T) (whose : Option String) :
    0 ≤ T.lockedPrincipal whose := by
  rw [lockedPrincipal_eq]
  refine List.sum_nonneg fun x hx => ?_
  obtain ⟨p, hp, rfl⟩ := List.mem_map.mp hx
  unfold counted
  split_ifs
  · exact h p hp
  · exact le_rfl

/-- Marking positions locks nothing more. -/
theorem lockedPrincipal_map {f : Position → Position} {T' : Tables}
    (hT : T'.positions = T.positions.map f)
    (hf : ∀ p ∈ T.positions, counted whose (f p) ≤ counted whose p) :
    T'.lockedPrincipal whose ≤ T.lockedPrincipal whose := by
  rw [lockedPrincipal_eq, lockedPrincipal_eq, hT, List.map_map]
  exact List.sum_le_sum fun p hp => hf p hp

theorem decimal_mono {a b : ℤ} (h : a ≤ b) : decimal a ≤ decimal b := by
  unfold decimal
  have hcast : (a : ℚ) ≤ b := by exact_mod_cast h
  linarith

/-- The limits hold of what is not more. -/
theorem CapsHold.mono (h : CapsHold limits T) {T' : Tables}
    (hle : ∀ whose, T'.lockedPrincipal whose ≤ T.lockedPrincipal whose) : CapsHold limits T' :=
  ⟨(decimal_mono (hle none)).trans h.total,
    fun userId => (decimal_mono (hle (some userId))).trans (h.user userId)⟩

/-! ### Steps -/

/-- What holds at every step. -/
structure CapsInv (limits : Limits) (s : Store × (ℕ → Read)) : Prop where
  sound : Sound s.1.2
  holds : CapsHold limits s.1.2
  total : ∀ i, 0 ≤ (s.2 i).total
  user : ∀ i, 0 ≤ (s.2 i).user

/-- Tables in which no more is locked. -/
structure Within (T T' : Tables) : Prop where
  sound : Sound T'
  locked : ∀ whose, T'.lockedPrincipal whose ≤ T.lockedPrincipal whose

theorem Within.refl (h : Sound T) : Within T T := ⟨h, fun _ => le_rfl⟩

/-- Positions mature. -/
theorem Sound.mature (h : Sound T) (whose : Option String) : Within T (T.setMatured whose) := by
  have hf : ∀ (whose' : Option String) (p : Position),
      counted whose' (if Tables.concerns whose p && p.status = .active && p.maturesAt ≤ T.time then
        { p with status := .matured } else p) ≤ counted whose' p := by
    intro whose' p
    split_ifs with hp
    · simp only [Bool.and_eq_true, decide_eq_true_eq] at hp
      simp [counted, Tables.concerns, hp.1.2]
    · exact le_rfl
  refine ⟨fun q hq => ?_, fun whose' => lockedPrincipal_map rfl fun p _ => hf whose' p⟩
  obtain ⟨p, hp, rfl⟩ := List.mem_map.mp hq
  have hnonneg := h p hp
  split_ifs <;> exact hnonneg

/-- A position is paid out. -/
theorem Sound.paid (h : Sound T) (c : Payout) (pocket : Pocket) : Within T (T.paid c pocket) := by
  refine ⟨fun q hq => ?_, fun whose => lockedPrincipal_map rfl fun p hp => ?_⟩
  · obtain ⟨p, hp, rfl⟩ := List.mem_map.mp hq
    have hnonneg := h p hp
    unfold Tables.claimOne
    split_ifs <;> exact hnonneg
  · unfold Tables.claimOne
    split_ifs
    · have hnonneg := h p hp
      simp only [counted, ne_eq, not_true_eq_false, decide_false, Bool.and_false,
        Bool.false_eq_true, if_false]
      split_ifs
      · exact hnonneg
      · exact le_rfl
    · exact le_rfl

/-- The statements that neither read what is locked nor lock more. -/
def InvestmentSql.Quiet {β : Type} : InvestmentSql β → Prop
  | .lockedPrincipal _ | .depositTx _ => False
  | _ => True

/-- The statements of all calls but a deposit's own. -/
def Quiet {β : Type} : Beside Query InvestmentSql β → Prop
  | .own st => st.Quiet
  | .inner _ => True

theorem InvestmentSql.Quiet.noted {β : Type} {st : InvestmentSql β} (h : st.Quiet) (T : Tables)
    (read : Read) : st.noted T read = read := by
  cases st with
  | lockedPrincipal whose => exact absurd h id
  | _ => rfl

theorem InvestmentSql.Quiet.within_act {β : Type} {st : InvestmentSql β} (h : st.Quiet)
    (o : Outside) {s : Store} (hs : Sound s.2) : Within s.2 (st.act o s).2.2 := by
  cases st with
  | depositTx d => exact absurd h id
  | lockedPrincipal whose => exact absurd h id
  | setMatured whose => exact hs.mature whose
  | claimTx c =>
      show Within s.2 (c.tx s).2.2
      rcases c.tx_cases s with ⟨e, he⟩ | ⟨pocket, A, he, -⟩
      · rw [he]
        exact Within.refl hs
      · rw [he]
        exact hs.paid c pocket
  | _ => exact ⟨hs, fun _ => le_rfl⟩

/-- A quiet statement locks nothing. -/
theorem InvestmentSql.Quiet.within {β : Type} {st : InvestmentSql β} (h : st.Quiet) (o : Outside)
    {s : Store} (hs : Sound s.2) : Within s.2 (st.run o s).2.2 := by
  have hticked : Sound (s.2.tick o.elapsed) := hs
  have hact := h.within_act o (s := (s.1, s.2.tick o.elapsed)) hticked
  exact ⟨hact.sound, hact.locked⟩

/-- The discipline of the limits: what a process has read is its own. -/
def capsDiscipline (limits : Limits) :
    Discipline (Beside Query InvestmentSql) (Except InvestmentError Outside)
      (Store × (ℕ → Read)) where
  inv := CapsInv limits
  rely i s t := t.2 i = s.2 i
  cond := Current limits
  good _ _ _ _ _ _ := True
  rely_refl _ _ := rfl
  rely_trans _ _ _ _ h h' := h'.trans h

/-- What a call does under the discipline. -/
abbrev Caps (limits : Limits) (i : ℕ) {β : Type} (P : Store × (ℕ → Read) → Prop)
    (call : InvestmentCall β) (Q : β → Store × (ℕ → Read) → Prop) : Prop :=
  Triple watched (capsDiscipline limits) i P call Q fun _ _ => True

/-- What a process knows of what it has read. -/
def Has (K : Read → Prop) (i : ℕ) (s : Store × (ℕ → Read)) : Prop := K (s.2 i)

theorem Has.stable {K : Read → Prop} (h : Has K i s) (hr : t.2 i = s.2 i) : Has K i t :=
  show K (t.2 i) from hr ▸ h

/-- A step that locks no more, and notes nothing. -/
theorem CapsInv.within (h : CapsInv limits s) (hw : Within s.1.2 t.1.2) (ht : t.2 = s.2) :
    CapsInv limits t := by
  refine ⟨hw.sound, h.holds.mono hw.locked, fun i => ?_, fun i => ?_⟩
  · rw [ht]
    exact h.total i
  · rw [ht]
    exact h.user i

/-- A call of quiet statements. -/
theorem caps_quiet {β : Type} {K : Read → Prop} {call : InvestmentCall β}
    (h : OnlyE Quiet call) : Caps limits i (Has K i) call fun _ => Has K i := by
  refine Triple.mono (Triple.of_only h fun st hst s hs t hr hinv o hc b u he => ?_)
    (fun _ h => h) (fun _ _ h => h) fun _ _ _ => trivial
  obtain ⟨hnote, hcases⟩ := Backend.noted_cases he
  have hsame : reading st o t.1 b u.1 (t.2 i) = t.2 i := by
    unfold reading
    split
    · exact InvestmentSql.Quiet.noted hst _ _
    · rfl
  have hu : u.2 = t.2 := by rw [hnote, hsame, Function.update_eq_self]
  have hwithin : Within t.1.2 u.1.2 := by
    rcases hcases with ⟨e, -, -, hu⟩ | ⟨o', -, -, hu⟩
    · rw [hu]
      exact Within.refl hinv.sound
    · rw [hu]
      cases st with
      | inner st => exact Within.refl hinv.sound
      | own st => exact InvestmentSql.Quiet.within hst o' hinv.sound
  refine ⟨trivial, hinv.within hwithin hu, fun j _ => congrFun hu j, ?_⟩
  exact Has.stable (Has.stable hs hr) (congrFun hu i)

/-! ### Calls -/

theorem quiet_sql {β : Type} {st : InvestmentSql (Ans β)} (h : st.Quiet) :
    OnlyE Quiet (sql st) := by
  unfold OnlyE
  exact ⟨h, fun _ => trivial⟩

theorem quiet_ready : OnlyE Quiet (sql .investmentPositionsReady) := quiet_sql trivial

theorem quiet_refresh (whose : Option String) : OnlyE Quiet (refreshMaturedPositions whose) :=
  OnlyE.bind quiet_ready fun _ => OnlyE.ite (quiet_sql trivial) (OnlyE.pure _)

theorem quiet_summary (userId : String) : OnlyE Quiet (getInvestmentSummary userId) := by
  refine OnlyE.bind (quiet_refresh _) fun _ => ?_
  refine OnlyE.bind (quiet_sql trivial) fun pocket => ?_
  refine OnlyE.bind (OnlyE.bind quiet_ready fun _ =>
    OnlyE.ite (quiet_sql trivial) (OnlyE.pure _)) fun _ => ?_
  refine OnlyE.bind (OnlyE.bind quiet_ready fun _ => OnlyE.ite ?_ (OnlyE.pure _)) fun _ =>
    OnlyE.pure _
  exact OnlyE.bind (quiet_refresh _) fun _ => quiet_sql trivial

theorem quiet_referenceOr (key : Option String) (label : String) :
    OnlyE Quiet (referenceOr key label) := by
  cases key with
  | some key => exact OnlyE.pure _
  | none => exact quiet_sql trivial

theorem quiet_ledger {β : Type} (p : Call β) : OnlyE Quiet (ledger p) :=
  onlyE_embedCall_any fun _ => trivial

theorem quiet_claim (p : ClaimParams) : OnlyE Quiet (claimInvestmentPosition p) := by
  refine OnlyE.bind (quiet_refresh _) fun _ => ?_
  refine OnlyE.bind (quiet_referenceOr _ _) fun reference => ?_
  refine OnlyE.bind (quiet_sql trivial) fun paid => ?_
  refine OnlyE.ite (OnlyE.bind (quiet_ledger _) fun _ => OnlyE.pure _) ?_
  refine OnlyE.bind (quiet_sql trivial) fun found => ?_
  cases found with
  | none => exact OnlyE.throw _
  | some row =>
      refine OnlyE.ite (OnlyE.throw _) ?_
      refine OnlyE.bind (quiet_sql trivial) fun now => ?_
      refine OnlyE.ite (OnlyE.throw _) ?_
      refine OnlyE.bind (quiet_sql trivial) fun _ => ?_
      exact OnlyE.bind (quiet_ledger _) fun _ => OnlyE.pure _

/-- What a read finds is noted. -/
theorem caps_lockedPrincipal {K : Read → Prop} {whose : Option String} {Q : ℤ → Read → Prop}
    (hQ : ∀ (T : Tables) read, Sound T → K read →
      Q (T.lockedPrincipal whose) ((InvestmentSql.lockedPrincipal whose).noted T read)) :
    Caps limits i (Has K i) (sql (.lockedPrincipal whose)) fun total => Has (Q total) i := by
  refine Triple.perform (fun s t hs hr => Has.stable hs hr) fun s hs hinv o hc r t he => ?_
  obtain ⟨hnote, ⟨e, rfl, rfl, ht⟩ | ⟨o, rfl, rfl, ht⟩⟩ := Backend.noted_cases he
  · have hsame : t = s := Prod.ext ht (hnote.trans (Function.update_eq_self _ _))
    subst hsame
    exact ⟨trivial, hinv, fun _ _ => rfl, trivial⟩
  · have hown : t.2 i = (InvestmentSql.lockedPrincipal whose).noted s.1.2 (s.2 i) := by
      rw [hnote, Function.update_self]
      rfl
    have hothers : ∀ j, j ≠ i → t.2 j = s.2 j := fun j hj => by
      rw [hnote, Function.update_of_ne hj]
    have hnonneg := hinv.sound.locked_nonneg whose
    have hnoted : 0 ≤ (t.2 i).total ∧ 0 ≤ (t.2 i).user := by
      rw [hown]
      cases whose with
      | none => exact ⟨hnonneg, hinv.user i⟩
      | some userId => exact ⟨hinv.total i, hnonneg⟩
    have hsound : Sound t.1.2 := by
      rw [ht]
      exact hinv.sound
    have hholds : CapsHold limits t.1.2 := by
      rw [ht]
      exact ⟨hinv.holds.total, hinv.holds.user⟩
    refine ⟨trivial, ⟨hsound, hholds, fun j => ?_, fun j => ?_⟩, hothers, ?_⟩
    · by_cases hj : j = i
      · exact hj ▸ hnoted.1
      · exact (hothers j hj) ▸ hinv.total j
    · by_cases hj : j = i
      · exact hj ▸ hnoted.2
      · exact (hothers j hj) ▸ hinv.user j
    · show Q _ (t.2 i)
      rw [hown]
      exact hQ s.1.2 (s.2 i) hinv.sound hs

theorem caps_lockedPrincipalUsd {K : Read → Prop} {whose : Option String} {Q : ℚ → Read → Prop}
    (hQ : ∀ (T : Tables) read, Sound T → K read →
      Q (nearest (decimal (T.lockedPrincipal whose)))
        ((InvestmentSql.lockedPrincipal whose).noted T read))
    (hnone : ∀ read, K read → Q 0 read) :
    Caps limits i (Has K i) (lockedPrincipalUsd whose) fun total => Has (Q total) i := by
  refine Triple.bind (caps_quiet quiet_ready) fun ready => Triple.ite (fun _ => ?_) fun _ =>
    Triple.pure fun s hs => hnone (s.2 i) hs
  exact Triple.bind (caps_lockedPrincipal (Q := fun total => Q (nearest (decimal total))) hQ)
    fun total => Triple.pure fun _ h => h

/-- The limits are those of the environment. -/
theorem caps_limits {K : Read → Prop} :
    Caps limits i (Has K i) (sql .limits) fun l s => l = limits ∧ Has K i s := by
  refine Triple.perform (fun s t hs hr => Has.stable hs hr) fun s hs hinv o hc r t he => ?_
  obtain ⟨hnote, hcases⟩ := Backend.noted_cases he
  have hnone : t.2 = s.2 := by
    rw [hnote]
    cases o <;> exact Function.update_eq_self _ _
  rcases hcases with ⟨e, rfl, rfl, ht⟩ | ⟨o, rfl, rfl, ht⟩
  · have hwithin : Within s.1.2 t.1.2 := by
      rw [ht]
      exact Within.refl hinv.sound
    exact ⟨trivial, hinv.within hwithin hnone, fun j _ => congrFun hnone j, trivial⟩
  · have hwithin : Within s.1.2 t.1.2 := by
      rw [ht]
      exact InvestmentSql.Quiet.within (show InvestmentSql.limits.Quiet from trivial) o hinv.sound
    exact ⟨trivial, hinv.within hwithin hnone, fun j _ => congrFun hnone j, hc,
      Has.stable hs (congrFun hnone i)⟩

/-- What a deposit has read leaves room for it. -/
def Room (limits : Limits) (p : DepositParams) (read : Read) : Prop :=
  decimal (read.total + cents p.amount) ≤ limits.maxTvlUsd ∧
    decimal (read.user + cents p.amount) ≤ limits.maxUserLockedUsd

/-- The limits of a deposit. -/
theorem caps_checkLimits (htvl : Plain limits.maxTvlUsd) (huser : Plain limits.maxUserLockedUsd)
    {p : DepositParams} (hamount : 0 ≤ p.amount) :
    Caps limits i (Has (fun read => read = {}) i) (checkLimits p)
      fun _ => Has (Room limits p) i := by
  refine Triple.bind (caps_lockedPrincipalUsd (Q := fun total read =>
    total = nearest (decimal read.total) ∧ 0 ≤ read.total ∧ read.user = 0)
    (fun T read hT hread => ?_) fun read hread => ?_) fun total => ?_
  · subst hread
    exact ⟨rfl, hT.locked_nonneg none, rfl⟩
  · subst hread
    exact ⟨by simp [decimal], le_rfl, rfl⟩
  refine Triple.bind (caps_lockedPrincipalUsd (Q := fun user read =>
    total = nearest (decimal read.total) ∧ 0 ≤ read.total ∧
      user = nearest (decimal read.user) ∧ 0 ≤ read.user)
    (fun T read hT hread => ⟨hread.1, hread.2.1, rfl, hT.locked_nonneg _⟩)
    fun read hread => ?_) fun user => ?_
  · obtain ⟨htotal, hnonneg, hnone⟩ := hread
    exact ⟨htotal, hnonneg, by simp [hnone, decimal], hnone.ge⟩
  refine Triple.bind caps_limits fun l => Triple.assume fun hl => ?_
  subst hl
  refine Triple.ite (fun _ => Triple.throw fun _ _ => trivial) fun hfits => ?_
  refine Triple.ite (fun _ => Triple.throw fun _ _ => trivial) fun hfits' => ?_
  refine Triple.pure fun s hs => ?_
  obtain ⟨htotal, hnonneg, huser', hnonneg'⟩ := hs
  rw [htotal] at hfits
  rw [huser'] at hfits'
  exact ⟨fits_of_check htvl hnonneg hamount hfits, fits_of_check huser hnonneg' hamount hfits'⟩

/-- What is locked once a position is inserted. -/
theorem lockedPrincipal_opened (T : Tables) (d : NewPosition) (whose : Option String) :
    (T.opened d).lockedPrincipal whose =
      (if Tables.concerns whose (T.newPosition d) then cents d.amount else 0) +
        T.lockedPrincipal whose := by
  rw [lockedPrincipal_eq, lockedPrincipal_eq]
  show ((T.newPosition d :: T.positions).map (counted whose)).sum = _
  rw [List.map_cons, List.sum_cons]
  congr 1
  by_cases hw : Tables.concerns whose (T.newPosition d) = true
  · rw [if_pos hw, counted, if_pos (by rw [hw]; rfl)]
    rfl
  · rw [if_neg hw, counted, if_neg fun hall => hw (Bool.and_eq_true_iff.mp hall).1]

/-- A position that there is room for. -/
theorem CapsInv.opened (h : CapsInv limits s) {d : NewPosition} {p : DepositParams}
    (hroom : Room limits p (s.2 i)) (hamount : 0 ≤ cents p.amount)
    (hd : d.amount = p.amount) (htotal : s.1.2.lockedPrincipal none ≤ (s.2 i).total)
    (huser : s.1.2.lockedPrincipal (some d.userId) ≤ (s.2 i).user) :
    CapsInv limits ((s.1.1, s.1.2.opened d), s.2) := by
  refine ⟨fun q hq => ?_, ⟨?_, fun userId => ?_⟩, h.total, h.user⟩
  · rcases List.mem_cons.mp hq with rfl | hq
    · show 0 ≤ cents d.amount
      rwa [hd]
    · exact h.sound q hq
  · refine (decimal_mono ?_).trans hroom.1
    rw [lockedPrincipal_opened, ← hd]
    simp only [Tables.concerns, Option.all_none, if_true]
    linarith
  · by_cases hu : userId = d.userId
    · subst hu
      refine (decimal_mono ?_).trans hroom.2
      rw [lockedPrincipal_opened, ← hd]
      simp only [Tables.concerns, Tables.newPosition, Option.all_some, decide_true, if_true]
      linarith
    · refine (decimal_mono ?_).trans (h.holds.user userId)
      rw [lockedPrincipal_opened]
      simp [Tables.concerns, Tables.newPosition, Ne.symm hu]

/-- The transaction of a deposit that has room. -/
theorem caps_depositTx {p : DepositParams} (hamount : 0 ≤ p.amount) (apyPercent : ℚ)
    (maturesAt : ℕ) (reference : String) :
    Caps limits i (Has (Room limits p) i)
      (sql (.depositTx (p.position apyPercent maturesAt reference)))
      fun _ => Has (fun _ => True) i := by
  set d := p.position apyPercent maturesAt reference
  refine Triple.perform (fun s t hs hr => Has.stable hs hr) fun s hs hinv o hc r t he => ?_
  obtain ⟨hnote, hcases⟩ := Backend.noted_cases he
  have hnone : t.2 = s.2 := by
    rw [hnote]
    cases o <;> exact Function.update_eq_self _ _
  have hdone : CapsInv limits t := by
    rcases hcases with ⟨e, rfl, -, ht⟩ | ⟨o, rfl, -, ht⟩
    · refine hinv.within ?_ hnone
      rw [ht]
      exact Within.refl hinv.sound
    · obtain ⟨htotal, huser⟩ := hc
      have hrun : t.1 = (s.1.1, ((s.1.2.tick o.elapsed).depositTx d).2) := ht
      have hticked : CapsInv limits ((s.1.1, s.1.2.tick o.elapsed), s.2) :=
        hinv.within ⟨hinv.sound, fun _ => le_rfl⟩ rfl
      have hstored : t = ((s.1.1, ((s.1.2.tick o.elapsed).depositTx d).2), s.2) :=
        Prod.ext hrun hnone
      rw [hstored]
      rcases (s.1.2.tick o.elapsed).depositTx_cases d with ⟨e, he'⟩ | ⟨he', -⟩
      · rw [he']
        exact hticked
      · rw [he']
        exact hticked.opened hs (cents_nonneg hamount) rfl htotal huser
  refine ⟨trivial, hdone, fun j _ => congrFun hnone j, ?_⟩
  cases r <;> exact trivial

/-- A deposit keeps the limits. -/
theorem caps_deposit (htvl : Plain limits.maxTvlUsd) (huser : Plain limits.maxUserLockedUsd)
    (p : DepositParams) :
    Caps limits i (Has (fun read => read = {}) i) (depositToInvestment p)
      fun _ => Has (fun _ => True) i := by
  have hdone : ∀ {β : Type} {call : InvestmentCall β} {P : Store × (ℕ → Read) → Prop},
      OnlyE Quiet call → Caps limits i P call fun _ => Has (fun _ => True) i := fun h =>
    (caps_quiet (K := fun _ => True) h).mono (fun _ _ => trivial) (fun _ _ h => h) fun _ _ h => h
  refine Triple.bind (caps_quiet quiet_ready) fun ready => Triple.ite (fun _ => ?_) fun _ =>
    Triple.throw fun _ _ => trivial
  cases findPlanByLockDays p.lockDays with
  | none => exact Triple.throw fun _ _ => trivial
  | some tier =>
      refine Triple.ite (fun _ => Triple.throw fun _ _ => trivial) fun hmin => ?_
      have hamount : 0 ≤ p.amount := by linarith
      refine Triple.ite (fun _ => Triple.throw fun _ _ => trivial) fun _ => ?_
      refine Triple.bind (caps_quiet (quiet_sql trivial)) fun pocket => ?_
      refine Triple.ite (fun _ => Triple.throw fun _ _ => trivial) fun _ => ?_
      refine Triple.bind (caps_checkLimits htvl huser hamount) fun _ => ?_
      refine Triple.bind (caps_quiet (quiet_referenceOr _ _)) fun reference => ?_
      refine Triple.bind (caps_quiet (quiet_sql trivial)) fun found => ?_
      cases found with
      | some positionId =>
          refine hdone (OnlyE.bind (quiet_summary _) fun summary => ?_)
          cases summary.2.find? (·.id = positionId) with
          | some row => exact OnlyE.pure _
          | none => exact OnlyE.bind (quiet_sql trivial) fun _ => OnlyE.pure _
      | none =>
          refine Triple.bind (caps_quiet (quiet_ledger _)) fun _ => ?_
          refine Triple.bind (caps_quiet
            (OnlyE.tryCatch (quiet_sql trivial) fun _ => OnlyE.pure _)) fun _ => ?_
          refine Triple.bind (caps_quiet (quiet_sql trivial)) fun now => ?_
          refine Triple.bind (caps_depositTx hamount _ _ reference) fun positionId => ?_
          exact hdone (OnlyE.bind (quiet_summary _) fun _ => OnlyE.pure _)

/-- A request keeps the limits. -/
theorem caps_call (htvl : Plain limits.maxTvlUsd) (huser : Plain limits.maxUserLockedUsd)
    (r : Request) :
    Caps limits i (Has (fun read => read = {}) i) r.call fun _ _ => True := by
  have hdone : ∀ {call : InvestmentCall Unit}, OnlyE Quiet call →
      Caps limits i (Has (fun read => read = {}) i) call fun _ _ => True := fun h =>
    (caps_quiet h).mono (fun _ h => h) (fun _ _ _ => trivial) fun _ _ h => h
  cases r with
  | acceptInvestmentRisk userId => exact hdone (quiet_sql trivial)
  | depositToInvestment p =>
      exact Triple.bind (caps_deposit htvl huser p) fun _ => Triple.pure fun _ _ => trivial
  | claimInvestmentPosition p =>
      exact hdone (OnlyE.bind (quiet_claim p) fun _ => OnlyE.pure _)
  | refreshMaturedPositions whose => exact hdone (quiet_refresh whose)

end caps

/-! ### Every run -/

/-- **The limits hold** in every run in which no more is locked, when the transaction of a deposit
runs, than the deposit has read. -/
theorem caps_hold (limits : Limits) (A : Accounts) (requests : List Request)
    (sched : List (ℕ × Except InvestmentError Outside)) (htvl : Plain limits.maxTvlUsd)
    (huser : Plain limits.maxUserLockedUsd)
    (hc : Pool.Along watched (Pool.CondAt (Current limits)) ((begun A requests).noted {}) sched) :
    CapsHold limits ((begun A requests).run server.machine sched).store.2 := by
  have hstart : Pool.Verified watched (capsDiscipline limits) (fun _ _ _ => True)
      ((begun A requests).noted {}) := by
    refine Pool.Verified.start ⟨fun _ h => (by cases h), ⟨?_, fun userId => ?_⟩,
      fun _ => le_rfl, fun _ => le_rfl⟩ fun i p hp => ?_
    · show decimal 0 ≤ limits.maxTvlUsd
      simpa [decimal] using htvl.2.1
    · show decimal 0 ≤ limits.maxUserLockedUsd
      simpa [decimal] using huser.2.1
    · obtain ⟨r, -, rfl⟩ := Option.map_eq_some_iff.mp ((List.getElem?_map ..).symm.trans hp)
      exact Prog.wp_mono (fun _ _ _ => trivial) _ _ (caps_call htvl huser r _ rfl)
  have hend := (Pool.run_sound hstart sched hc).1.1.holds
  have hrun : (((begun A requests).noted ({} : Read)).run watched sched).unnoted =
      (begun A requests).run server.machine sched := Pool.noting_run _ sched
  rw [← hrun]
  exact hend

/-! ### Two deposits over the limit -/

/-- A wallet of twenty thousand dollars. -/
def fullAccounts : Accounts where
  wallets := [{ walletId := 1, userId := "ada", currency := "USD", balance := 2000000 }]

/-- All that a user may lock is locked for a month. -/
def lockAll (key : String) : Request :=
  .depositToInvestment ⟨"ada", 1, 10000, 30, "rent", some key⟩

/-- The risk is accepted, and two deposits are made. -/
def lockAllTwice : List Request := [.acceptInvestmentRisk "ada", lockAll "a", lockAll "b"]

/-- Both deposits read what is locked before either locks its amount. -/
def overlapping : List (ℕ × Except InvestmentError Outside) :=
  turns 0 1 ++ turns 1 8 ++ turns 2 8 ++ turns 1 20 ++ turns 2 20

/-- One deposit after the other. -/
def inTurn : List (ℕ × Except InvestmentError Outside) := turns 0 1 ++ turns 1 27 ++ turns 2 27

/-- A user has locked twice what the limit allows. -/
theorem two_deposits_over_the_cap :
    ¬ CapsHold {} ((begun fullAccounts lockAllTwice).run server.machine overlapping).store.2 := by
  intro h
  have huser := h.user "ada"
  have hlocked : ((begun fullAccounts lockAllTwice).run server.machine
      overlapping).store.2.lockedPrincipal (some "ada") = 2000000 := by
    decide +kernel
  rw [hlocked] at huser
  norm_num [decimal] at huser

/-- The second deposit is refused. -/
theorem caps_hold_in_turn :
    CapsHold {} ((begun fullAccounts lockAllTwice).run server.machine inTurn).store.2 :=
  caps_hold {} fullAccounts lockAllTwice inTurn (by decide +kernel) (by decide +kernel)
    (by decide +kernel)

example :
    ((begun fullAccounts lockAllTwice).run server.machine inTurn).store.2.lockedPrincipal
      (some "ada") = 1000000 := by
  decide +kernel

end DayfiBackend.Consumer.Investments
