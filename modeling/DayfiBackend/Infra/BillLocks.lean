import DayfiBackend.Infra.Bills
import DayfiBackend.Infra.PayoutRefunds

/-!
# The lock of a bill whose payment the provider holds

`LocksKept` says that no bill whose payment the provider has accepted, and has not itself reported
as failed, has had its lock released. Two ways lead out of it. A payment that is accepted while
the call fails on its way back is taken for a refusal (`accepted_bill_released`), and a refresh
that has no recorded answer and learns nothing from the status call takes the bill for failed.
In every run without these, and in which no payment is accepted after it was reported as failed,
the lock is kept (`accepted_never_released`).

A process owns the references made for it: the others neither send nor insert nor release a bill
of it, unless the provider has reported it as failed (`Heeds`).
-/

namespace DayfiBackend.Infra

/-- Identifiers are handed out in order. -/
theorem Sql.run_nextId {β : Type} (st : Sql β) (i : ℕ) (o : Outside) (s : Store) :
    s.nextId ≤ (st.run i o s).2.nextId := by
  have hpost : ∀ op p, s.nextId ≤ (s.post op p).2.nextId := fun op p => by
    rcases s.post_cases op p with ⟨e, he⟩ | ⟨m, -, he⟩ | ⟨amount, -, he⟩ <;> rw [he]
  by_cases hq : st.quiet = true
  · exact (Sql.run_same hq i o s).nextId
  cases st with
  | payout step row amt => exact hpost _ _
  | collection step row amt => exact hpost _ _
  | patchTx id status patch => exact le_rfl
  | providerFails seq => exact le_rfl
  | createPaymentRequest id seq => simp only [run]; split <;> exact le_rfl
  | insertTx draft =>
      simp only [run]
      split_ifs
      · exact le_rfl
      · exact Nat.le_succ _
  | _ => exact absurd rfl hq

namespace Bills

open DayfiBackend.Found DayfiBackend.Found.Prog DayfiBackend.Found.Keys

/-! ### The property -/

/-- The lock of a payout has been released. -/
def Tables.Released (s : Tables) (id : ℕ) : Prop := s.payouts.ledger.posted .release id ≠ none

/-- The payout is the bill with a reference. -/
def Tables.BillOf (s : Tables) (id reference : ℕ) : Prop :=
  ∃ bill, s.bills id = some bill ∧ bill.reference = reference

/-- No bill whose payment the provider holds has been released. -/
def LocksKept (s : Tables) : Prop :=
  ∀ id n, s.BillOf id n → n ∈ s.accepted → ¬ s.Released id

/-- Some text of an answer says what became of the bill. -/
def recognized (data : Option StatusData) : Bool :=
  ((data.map (·.tokens)).getD []).any fun t => failureToken t || pendingToken t || successToken t

/-- The provider takes the payment. -/
def CreateOutcome.accepts : CreateOutcome → Bool
  | .answered r => !r.fails
  | .acceptedThenFailed => true
  | .refused => false

/-- What a status call brings. -/
def brings (o : Except BillError BillOutside) : Option StatusData :=
  match o with
  | .ok o => o.status
  | .error _ => none

/-- A payment that is accepted is answered, unless its failure is simulated, and was not reported
as failed; a status that is asked for before an answer is recorded says something. -/
def BillSql.Answered {β : Type} (st : BillSql β) (o : Except BillError BillOutside) (s : Tables) :
    Prop :=
  match st with
  | .createBillPayment reference simulate =>
      match o with
      | .ok o =>
          (o.create = .acceptedThenFailed → simulate = true) ∧
            (o.create.accepts = true → reference ∉ s.failed)
      | .error _ => True
  | .fetchBillPaymentStatus _ known =>
      known.fwResult = none → recognized (brings o <|> known.statusData) = true
  | _ => True

/-- The condition on the steps of a run. -/
def Answered {β : Type} (_pid : ℕ) (st : Query β) (o : Except BillError BillOutside)
    (s : Tables) : Prop :=
  match st with
  | .payouts _ => True
  | .bill st => st.Answered o s

instance {β : Type} (pid : ℕ) (st : Query β) (o : Except BillError BillOutside) (s : Tables) :
    Decidable (Answered pid st o s) := by
  unfold Answered BillSql.Answered
  repeat' split
  all_goals infer_instance

/-! ### The invariant -/

/-- An answer recorded with the bill reports a failure. -/
def BillMeta.Fails (bill : BillMeta) : Prop :=
  bill.flutterwave.any (·.fails) = true ∨ bill.billStatus.any (·.fails) = true

structure BillInv (s : Tables) : Prop where
  fresh : ∀ id, s.payouts.nextId ≤ id → s.bills id = none ∧ ¬ s.Released id
  issued : ∀ id n, s.BillOf id n → n < s.issued.length
  unique : ∀ id id' n, s.BillOf id n → s.BillOf id' n → id = id'
  sent : ∀ n ∈ s.accepted, n < s.issued.length
  apart : ∀ n ∈ s.accepted, n ∉ s.failed
  recorded : ∀ id bill, s.bills id = some bill → bill.Fails → bill.reference ∈ s.failed
  kept : LocksKept s

/-- What a process may count on: the others leave the bills of its references alone, unless they
were reported as failed. -/
structure Heeds (i : ℕ) (s t : Tables) : Prop where
  issued : ∀ n j : ℕ, s.issued[n]? = some j → t.issued[n]? = some j
  failed : ∀ n ∈ s.failed, n ∈ t.failed
  bills : ∀ id n, s.BillOf id n → t.BillOf id n
  accepted : ∀ n : ℕ, s.issued[n]? = some i → n ∈ t.accepted → n ∈ s.accepted
  inserted : ∀ id n : ℕ, s.issued[n]? = some i → t.BillOf id n → s.BillOf id n
  released : ∀ id n : ℕ, s.issued[n]? = some i → s.BillOf id n → t.Released id →
    s.Released id ∨ n ∈ t.failed

variable {i : ℕ} {s t u : Tables}

theorem Heeds.refl (i : ℕ) (s : Tables) : Heeds i s s :=
  ⟨fun _ _ h => h, fun _ h => h, fun _ _ h => h, fun _ _ h => h, fun _ _ _ h => h,
    fun _ _ _ _ h => .inl h⟩

theorem Heeds.trans (h : Heeds i s t) (h' : Heeds i t u) : Heeds i s u where
  issued n j hn := h'.issued n j (h.issued n j hn)
  failed n hn := h'.failed n (h.failed n hn)
  bills id n hb := h'.bills id n (h.bills id n hb)
  accepted n hn ha := h.accepted n hn (h'.accepted n (h.issued n i hn) ha)
  inserted id n hn hb := h.inserted id n hn (h'.inserted id n (h.issued n i hn) hb)
  released id n hn hb hr := by
    rcases h'.released id n (h.issued n i hn) (h.bills id n hb) hr with ht | ht
    · exact (h.released id n hn hb ht).imp_right (h'.failed n)
    · exact .inr ht

/-- The discipline of the calls on bills. -/
def billDiscipline : Discipline Query (Except BillError BillOutside) Tables where
  inv := BillInv
  rely := Heeds
  cond := Answered
  good _ _ _ _ _ _ := True
  rely_refl := Heeds.refl
  rely_trans _ _ _ _ := Heeds.trans

/-! ### What a process knows -/

/-- A reference of the process that is not used yet. -/
structure Unused (i n : ℕ) (s : Tables) : Prop where
  issued : s.issued[n]? = some i
  unsent : n ∉ s.accepted
  noBill : ∀ id, ¬ s.BillOf id n

/-- A bill of the process whose payment was not asked for yet. -/
structure Unsent (i id n : ℕ) (s : Tables) : Prop where
  issued : s.issued[n]? = some i
  unsent : n ∉ s.accepted
  bill : s.BillOf id n
  released : s.Released id → n ∈ s.failed

/-- A bill that may be released: its payment was reported as failed, or will not be accepted. -/
def Doomed (i id : ℕ) (s : Tables) : Prop :=
  ∃ n : ℕ, s.BillOf id n ∧ (n ∈ s.failed ∨ s.issued[n]? = some i ∧ n ∉ s.accepted)

/-- What has been read of a bill: a failure is one that was reported. -/
structure Reported (id : ℕ) (known : Known) (s : Tables) : Prop where
  bill : s.BillOf id known.reference
  result : known.fwResult.any (·.fails) = true → known.reference ∈ s.failed
  status : known.statusData.any (·.fails) = true → known.reference ∈ s.failed

variable {id n : ℕ} {known : Known}

theorem Unused.stable (h : Unused i n s) (hr : Heeds i s t) : Unused i n t where
  issued := hr.issued n i h.issued
  unsent ha := h.unsent (hr.accepted n h.issued ha)
  noBill id hb := h.noBill id (hr.inserted id n h.issued hb)

theorem Unsent.stable (h : Unsent i id n s) (hr : Heeds i s t) : Unsent i id n t where
  issued := hr.issued n i h.issued
  unsent ha := h.unsent (hr.accepted n h.issued ha)
  bill := hr.bills id n h.bill
  released ht := by
    rcases hr.released id n h.issued h.bill ht with hs | hs
    · exact hr.failed n (h.released hs)
    · exact hs

theorem Doomed.stable (h : Doomed i id s) (hr : Heeds i s t) : Doomed i id t := by
  obtain ⟨n, hb, hn⟩ := h
  refine ⟨n, hr.bills id n hb, hn.imp (hr.failed n) fun hn => ⟨hr.issued n i hn.1, fun ha => ?_⟩⟩
  exact hn.2 (hr.accepted n hn.1 ha)

theorem Reported.stable (h : Reported id known s) (hr : Heeds i s t) : Reported id known t where
  bill := hr.bills id known.reference h.bill
  result hf := hr.failed _ (h.result hf)
  status hf := hr.failed _ (h.status hf)

theorem Unsent.doomed (h : Unsent i id n s) : Doomed i id s :=
  ⟨n, h.bill, .inr ⟨h.issued, h.unsent⟩⟩

theorem Tables.BillOf.eq {n' : ℕ} (h : s.BillOf id n) (h' : s.BillOf id n') : n = n' := by
  obtain ⟨bill, hb, rfl⟩ := h
  obtain ⟨bill', hb', rfl⟩ := h'
  rw [hb] at hb'
  cases hb'
  rfl

/-! ### Steps -/

/-- A step that sends, inserts and releases nothing. -/
structure Calm (s t : Tables) : Prop where
  issued : t.issued = s.issued
  accepted : t.accepted = s.accepted
  failed : t.failed = s.failed
  bills : ∀ id n, t.BillOf id n ↔ s.BillOf id n
  released : ∀ id, t.Released id ↔ s.Released id
  nextId : s.payouts.nextId ≤ t.payouts.nextId
  recorded : ∀ id bill, t.bills id = some bill → bill.Fails → bill.reference ∈ s.failed

theorem Calm.heeds (h : Calm s t) (j : ℕ) : Heeds j s t where
  issued n k hn := by rw [h.issued, hn]
  failed n hn := by rw [h.failed]; exact hn
  bills id n := (h.bills id n).mpr
  accepted n _ ha := by rwa [h.accepted] at ha
  inserted id n _ := (h.bills id n).mp
  released id n _ _ hr := .inl ((h.released id).mp hr)

theorem bills_eq_none (h : ∀ n, ¬ s.BillOf id n) : s.bills id = none := by
  cases hb : s.bills id with
  | none => rfl
  | some bill => exact absurd ⟨bill, hb, rfl⟩ (h bill.reference)

theorem BillInv.calm (h : BillInv s) (hc : Calm s t) : BillInv t where
  fresh id hid := by
    obtain ⟨hb, hr⟩ := h.fresh id (hc.nextId.trans hid)
    refine ⟨bills_eq_none fun n hn => ?_, fun ht => hr ((hc.released id).mp ht)⟩
    obtain ⟨bill, hbill, -⟩ := (hc.bills id n).mp hn
    rw [hb] at hbill
    cases hbill
  issued id n hn := by rw [hc.issued]; exact h.issued id n ((hc.bills id n).mp hn)
  unique id id' n hn hn' := h.unique id id' n ((hc.bills id n).mp hn) ((hc.bills id' n).mp hn')
  sent n hn := by rw [hc.issued]; rw [hc.accepted] at hn; exact h.sent n hn
  apart n hn := by rw [hc.failed]; rw [hc.accepted] at hn; exact h.apart n hn
  recorded id bill hb hf := by rw [hc.failed]; exact hc.recorded id bill hb hf
  kept id n hn ha hr := by
    rw [hc.accepted] at ha
    exact h.kept id n ((hc.bills id n).mp hn) ha ((hc.released id).mp hr)

/-- A statement of the payouts that releases nothing. -/
theorem BillInv.run_calm (h : BillInv s) {β : Type} {st : Sql β} (hst : st.Calm) (i : ℕ)
    (o : Outside) : Calm s { s with payouts := (st.run i o s.payouts).2 } where
  issued := rfl
  accepted := rfl
  failed := rfl
  bills _ _ := Iff.rfl
  released id := by
    show (st.run i o s.payouts).2.ledger.posted .release id ≠ none ↔ _
    rw [(hst.run i o s.payouts).2 id]
    rfl
  nextId := st.run_nextId i o s.payouts
  recorded := h.recorded

/-- A bill is patched with answers whose failures were reported. -/
theorem BillInv.patch (h : BillInv s) {f : BillMeta → BillMeta} {payouts : Store}
    (hledger : payouts.ledger = s.payouts.ledger) (hnext : payouts.nextId = s.payouts.nextId)
    (href : ∀ m, (f m).reference = m.reference)
    (hf : ∀ m, s.bills id = some m → (f m).Fails → m.Fails ∨ m.reference ∈ s.failed) :
    Calm s { s with payouts, bills := Function.update s.bills id ((s.bills id).map f) } where
  issued := rfl
  accepted := rfl
  failed := rfl
  bills id' n := by
    unfold Tables.BillOf
    dsimp only
    by_cases hid : id' = id
    · subst hid
      rw [Function.update_self]
      cases s.bills id' with
      | none => simp
      | some m => simp [href]
    · rw [Function.update_of_ne hid]
  released id' := by
    unfold Tables.Released
    rw [hledger]
  nextId := hnext.ge
  recorded id' bill hb hfails := by
    dsimp only at hb
    by_cases hid : id' = id
    · subst hid
      rw [Function.update_self] at hb
      obtain ⟨m, hm, rfl⟩ := Option.map_eq_some_iff.mp hb
      rw [href]
      exact (hf m hm hfails).elim (h.recorded id' m hm) fun hn => hn
    · rw [Function.update_of_ne hid] at hb
      exact h.recorded id' bill hb hfails

/-- The provider reports a payment as failed. -/
theorem BillInv.giveUp (h : BillInv s) (n : ℕ) :
    BillInv (s.giveUp n) ∧ ∀ j, Heeds j s (s.giveUp n) := by
  have hacc : ∀ k ∈ (s.giveUp n).accepted, k ∈ s.accepted ∧ k ≠ n := fun k hk => by
    simpa [Tables.giveUp] using hk
  refine ⟨⟨h.fresh, h.issued, h.unique, fun k hk => h.sent k (hacc k hk).1, fun k hk hf => ?_,
    fun id bill hb hf => List.mem_cons_of_mem _ (h.recorded id bill hb hf),
    fun id k hb hk => h.kept id k hb (hacc k hk).1⟩,
    fun j => ⟨fun _ _ hk => hk, fun _ hk => List.mem_cons_of_mem _ hk, fun _ _ hb => hb,
      fun k _ hk => (hacc k hk).1, fun _ _ _ hb => hb, fun _ _ _ _ hr => .inl hr⟩⟩
  rcases List.mem_cons.mp hf with rfl | hf
  · exact (hacc k hk).2 rfl
  · exact h.apart k (hacc k hk).1 hf

/-- A new reference. -/
theorem BillInv.issue (h : BillInv s) (i : ℕ) :
    BillInv { s with issued := s.issued ++ [i] } ∧
      (∀ j, Heeds j s { s with issued := s.issued ++ [i] }) ∧
        Unused i s.issued.length { s with issued := s.issued ++ [i] } := by
  have hlen : s.issued.length < (s.issued ++ [i]).length := by simp
  refine ⟨⟨h.fresh, fun id n hb => (h.issued id n hb).trans hlen, h.unique,
    fun n hn => (h.sent n hn).trans hlen, h.apart, h.recorded, h.kept⟩,
    fun j => ⟨fun n k hn => ?_, fun _ hn => hn, fun _ _ hb => hb, fun _ _ ha => ha,
      fun _ _ _ hb => hb, fun _ _ _ _ hr => .inl hr⟩, ?_, fun ha => ?_, fun id hb => ?_⟩
  · show (s.issued ++ [i])[n]? = some k
    rw [List.getElem?_append_left (List.getElem?_eq_some_iff.mp hn).1, hn]
  · simp
  · exact lt_irrefl _ (h.sent _ ha)
  · exact lt_irrefl _ (h.issued id _ hb)

/-- The payment of a bill is accepted. -/
theorem BillInv.accept (h : BillInv s) (hunsent : Unsent i id n s) (hfailed : n ∉ s.failed) :
    BillInv { s with accepted := n :: s.accepted } ∧
      ∀ j, j ≠ i → Heeds j s { s with accepted := n :: s.accepted } := by
  refine ⟨⟨h.fresh, h.issued, h.unique, fun k hk => ?_, fun k hk => ?_, h.recorded,
    fun id' k hb hk => ?_⟩,
    fun j hj => ⟨fun _ _ hk => hk, fun _ hk => hk, fun _ _ hb => hb, fun k hk ha => ?_,
      fun _ _ _ hb => hb, fun _ _ _ _ hr => .inl hr⟩⟩
  · rcases List.mem_cons.mp hk with rfl | hk
    · exact h.issued id k hunsent.bill
    · exact h.sent k hk
  · rcases List.mem_cons.mp hk with rfl | hk
    · exact hfailed
    · exact h.apart k hk
  · rcases List.mem_cons.mp hk with rfl | hk
    · have hid : id' = id := h.unique id' id k hb hunsent.bill
      subst hid
      exact fun hr => hfailed (hunsent.released hr)
    · exact h.kept id' k hb hk
  · rcases List.mem_cons.mp ha with rfl | ha
    · rw [hunsent.issued] at hk
      exact absurd (Option.some.inj hk).symm hj
    · exact ha

/-- A bill is inserted under a reference of the process. -/
theorem BillInv.insert (h : BillInv s) {bill : BillMeta} (hunused : Unused i bill.reference s)
    (hbill : ¬ bill.Fails) {payouts : Store} (hledger : payouts.ledger = s.payouts.ledger)
    (hid : s.payouts.nextId = id) (hnext : payouts.nextId = id + 1) :
    BillInv { s with payouts, bills := Function.update s.bills id (some bill) } ∧
      (∀ j, j ≠ i → Heeds j s
        { s with payouts, bills := Function.update s.bills id (some bill) }) ∧
      Unsent i id bill.reference
        { s with payouts, bills := Function.update s.bills id (some bill) } := by
  set t : Tables := { s with payouts, bills := Function.update s.bills id (some bill) } with ht
  have hreleased : ∀ k, t.Released k ↔ s.Released k := fun k => by
    rw [ht]
    unfold Tables.Released
    rw [hledger]
  have hnew : s.bills id = none ∧ ¬ s.Released id := h.fresh id hid.le
  have hself : t.bills id = some bill := Function.update_self ..
  have hother : ∀ k, k ≠ id → t.bills k = s.bills k := fun k hk => Function.update_of_ne hk ..
  -- a bill of the new table is the new one, or an old one
  have hof : ∀ k n, t.BillOf k n → (k = id ∧ n = bill.reference) ∨ s.BillOf k n := by
    rintro k n ⟨b, hb, rfl⟩
    by_cases hk : k = id
    · subst hk
      rw [hself] at hb
      cases hb
      exact .inl ⟨rfl, rfl⟩
    · rw [hother k hk] at hb
      exact .inr ⟨b, hb, rfl⟩
  have hlt : bill.reference < s.issued.length := (List.getElem?_eq_some_iff.mp hunused.issued).1
  refine ⟨⟨fun k hk => ?_, fun k n hb => ?_, fun k k' n hb hb' => ?_, h.sent, h.apart,
    fun k b hb hf => ?_, fun k n hb hn hr => ?_⟩,
    fun j hj => ⟨fun _ _ hn => hn, fun _ hn => hn, fun k n hb => ?_, fun _ _ ha => ha,
      fun k n hn hb => ?_, fun k n _ _ hr => .inl ((hreleased k).mp hr)⟩,
    hunused.issued, hunused.unsent, ⟨bill, hself, rfl⟩,
    fun hr => absurd ((hreleased id).mp hr) hnew.2⟩
  · have hk' : id + 1 ≤ k := hnext ▸ hk
    obtain ⟨hb, hr⟩ := h.fresh k (by omega)
    exact ⟨by rw [hother k (by omega), hb], fun hr' => hr ((hreleased k).mp hr')⟩
  · rcases hof k n hb with ⟨-, rfl⟩ | hb
    · exact hlt
    · exact h.issued k n hb
  · rcases hof k n hb with ⟨hk, hn⟩ | hb <;> rcases hof k' n hb' with ⟨hk', hn'⟩ | hb'
    · exact hk.trans hk'.symm
    · exact absurd (hn ▸ hb') (hunused.noBill k')
    · exact absurd (hn' ▸ hb) (hunused.noBill k)
    · exact h.unique k k' n hb hb'
  · by_cases hk : k = id
    · subst hk
      rw [hself] at hb
      cases hb
      exact absurd hf hbill
    · rw [hother k hk] at hb
      exact h.recorded k b hb hf
  · rcases hof k n hb with ⟨rfl, rfl⟩ | hb
    · exact hunused.unsent hn
    · exact h.kept k n hb hn ((hreleased k).mp hr)
  · obtain ⟨b, hb, rfl⟩ := hb
    have hk : k ≠ id := fun hk => by
      rw [hk, hnew.1] at hb
      cases hb
    exact ⟨b, by rw [hother k hk, hb], rfl⟩
  · rcases hof k n hb with ⟨-, rfl⟩ | hb
    · have hn' : s.issued[bill.reference]? = some j := hn
      rw [hunused.issued] at hn'
      exact absurd (Option.some.inj hn').symm hj
    · exact hb

/-- A bill that may be released is. -/
theorem BillInv.release (h : BillInv s) (hdoomed : Doomed i id s) {payouts : Store}
    (hnext : payouts.nextId = s.payouts.nextId)
    (hother : ∀ k, k ≠ id → (payouts.ledger.posted .release k ≠ none ↔ s.Released k)) :
    BillInv { s with payouts } ∧ ∀ j, j ≠ i → Heeds j s { s with payouts } := by
  obtain ⟨n, hn, hsafe⟩ := hdoomed
  have hlt : id < s.payouts.nextId := by
    by_contra hle
    obtain ⟨bill, hb, -⟩ := hn
    rw [(h.fresh id (not_lt.mp hle)).1] at hb
    cases hb
  have hnot : n ∉ s.accepted := fun ha => hsafe.elim (h.apart n ha) fun hi => hi.2 ha
  refine ⟨⟨fun k hk => ?_, h.issued, h.unique, h.sent, h.apart, h.recorded, fun k m hb hm hr => ?_⟩,
    fun j hj => ⟨fun _ _ hk => hk, fun _ hk => hk, fun _ _ hb => hb, fun _ _ ha => ha,
      fun _ _ _ hb => hb, fun k m hm hb hr => ?_⟩⟩
  · have hk' : s.payouts.nextId ≤ k := hnext ▸ hk
    obtain ⟨hb, hr⟩ := h.fresh k hk'
    exact ⟨hb, fun hr' => hr ((hother k (by omega)).mp hr')⟩
  · by_cases hk : k = id
    · subst hk
      exact hnot (hn.eq hb ▸ hm)
    · exact h.kept k m hb hm ((hother k hk).mp hr)
  · by_cases hk : k = id
    · subst hk
      have hmn : n = m := hn.eq hb
      subst hmn
      refine hsafe.elim .inr fun hi => ?_
      rw [hi.1] at hm
      exact absurd (Option.some.inj hm).symm hj
    · exact .inl ((hother k hk).mp hr)

/-- The release of a row. -/
theorem BillInv.release_run (h : BillInv s) {row : TxRow} (hdoomed : Doomed i row.id s) (amt : ℚ)
    (o : Outside) :
    BillInv { s with payouts := ((Sql.payout .release row amt).run i o s.payouts).2 } ∧
      ∀ j, j ≠ i → Heeds j s
        { s with payouts := ((Sql.payout .release row amt).run i o s.payouts).2 } := by
  refine h.release hdoomed ?_ fun k hk => ?_
  · show (s.payouts.post _ _).2.nextId = _
    rcases s.payouts.post_cases PayoutStep.release.op (PayoutStep.release.params row amt) with
      ⟨e, he⟩ | ⟨m, -, he⟩ | ⟨amount, -, he⟩ <;> rw [he]
  · show (s.payouts.post _ _).2.ledger.posted .release k ≠ none ↔ _
    rcases s.payouts.post_cases PayoutStep.release.op (PayoutStep.release.params row amt) with
      ⟨e, he⟩ | ⟨m, -, he⟩ | ⟨amount, -, he⟩ <;> rw [he]
    · exact Iff.rfl
    · exact Iff.rfl
    · show (PayoutStep.release.op.rule.posted _ _ _).posted .release k ≠ none ↔ _
      rw [posted_step, if_neg fun hc => hk hc.2.symm]
      exact Iff.rfl

/-! ### Statements -/

/-- The call runs under the discipline. -/
abbrev Goes {α : Type} (i : ℕ) (P : Tables → Prop) (p : BillCall α) (Q : α → Tables → Prop)
    (E : BillError → Tables → Prop) : Prop := Triple backend.machine billDiscipline i P p Q E

/-- What the steps of the others leave. -/
def Stable (i : ℕ) (P : Tables → Prop) : Prop := ∀ s t, P s → Heeds i s t → P t

theorem stable_any : Stable i fun _ => True := fun _ _ _ _ => trivial

/-- The statements that only read. -/
def BillSql.reads {β : Type} : BillSql β → Bool
  | .loadBillTx .. | .findBill .. | .validateBill .. => true
  | _ => false

/-- The statements that send, insert, record and release nothing. -/
def Query.Calm {β : Type} : Query β → Prop
  | .payouts st => st.Calm
  | .bill st => st.reads = true

section statements

variable {β : Type} {P : Tables → Prop} {Q : β → Tables → Prop} {E : BillError → Tables → Prop}

/-- The rule of a statement on bills. -/
theorem goes_sql {st : BillSql (Ans β)} (hst : ∀ e, st.fail e = .error e) (hP : Stable i P)
    (hfail : ∀ s e, P s → st.Answered (.error e) s → E e s)
    (hrun : ∀ s o, P s → BillInv s → st.Answered (.ok o) s →
      BillInv (st.run i o s).2 ∧ (∀ j, j ≠ i → Heeds j s (st.run i o s).2) ∧
        match (st.run i o s).1 with
        | .ok b => Q b (st.run i o s).2
        | .error e => E e (st.run i o s).2) : Goes i P (sql st) Q E :=
  Backend.triple_call hst hP (fun s e hs hc => ⟨trivial, hfail s e hs hc⟩)
    fun s o hs hinv hc => by
      obtain ⟨hinv', hheeds, hans⟩ := hrun s o hs hinv hc
      refine ⟨trivial, hinv', hheeds, ?_⟩
      cases hb : (backend.run i (Query.bill st) o s).1 with
      | ok b =>
          rw [show (st.run i o s).1 = .ok b from hb] at hans
          exact hans
      | error e =>
          rw [show (st.run i o s).1 = .error e from hb] at hans
          exact hans

/-- The rule of a statement on the payouts. -/
theorem goes_payout {st : Sql (Except Err β)} {F : Tables → Prop}
    (hst : st.failed = .error .database) (hP : Stable i P) (hfail : ∀ s, P s → F s)
    (hrun : ∀ s o, P s → BillInv s →
      BillInv { s with payouts := (st.run i o s.payouts).2 } ∧
        (∀ j, j ≠ i → Heeds j s { s with payouts := (st.run i o s.payouts).2 }) ∧
          (∀ b, (st.run i o s.payouts).1 = .ok b →
            Q b { s with payouts := (st.run i o s.payouts).2 }) ∧
              F { s with payouts := (st.run i o s.payouts).2 }) :
    Goes i P (payouts (Infra.sql st)) Q fun _ => F := by
  refine triple_embed_perform hP fun t ht hinv o _ r u he => ?_
  rcases Backend.exec_cases he with ⟨e, rfl, rfl, rfl⟩ | ⟨o', rfl, rfl, rfl⟩
  · rw [show backend.fail (.payouts st) e = .error .database from hst]
    exact ⟨trivial, hinv, fun j _ => .refl j u, hfail u ht⟩
  · by_cases hf : o'.payouts.fault = true
    · rw [show backend.run i (.payouts st) o' t = (st.failed, t) from if_pos hf, hst]
      exact ⟨trivial, hinv, fun j _ => .refl j t, hfail t ht⟩
    · rw [show backend.run i (.payouts st) o' t = ((st.run i o'.payouts t.payouts).1,
        { t with payouts := (st.run i o'.payouts t.payouts).2 }) from if_neg hf]
      obtain ⟨hinv', hheeds, hok, herr⟩ := hrun t o'.payouts ht hinv
      refine ⟨trivial, hinv', hheeds, ?_⟩
      cases hb : (st.run i o'.payouts t.payouts).1 with
      | ok b => exact hok b hb
      | error e => exact herr

theorem BillSql.run_reads {st : BillSql β} (hst : st.reads = true) (i : ℕ) (o : BillOutside)
    (s : Tables) : (st.run i o s).2 = s := by
  cases st with
  | loadBillTx id orgId => rfl
  | findBill orgId reference => rfl
  | validateBill billerCode itemCode customerId => simp only [run]; split <;> rfl
  | randomUUID => cases hst
  | insertBill draft bill => cases hst
  | patchBill id status f => cases hst
  | createBillPayment reference simulate => cases hst
  | fetchBillPaymentStatus ref known => cases hst

theorem run_calm {st : Query β} (hst : st.Calm) (h : BillInv s) (i : ℕ) (o : BillOutside) :
    BillInv (st.run i o s).2 ∧ ∀ j, Heeds j s (st.run i o s).2 := by
  cases st with
  | payouts st =>
      unfold Query.run
      dsimp only
      split_ifs
      · exact ⟨h, fun j => .refl j s⟩
      · have hc := h.run_calm hst i o.payouts
        exact ⟨h.calm hc, hc.heeds⟩
  | bill st =>
      rw [show (Query.run i (.bill st) o s).2 = s from BillSql.run_reads hst i o s]
      exact ⟨h, fun j => .refl j s⟩

/-- A call of calm statements. -/
theorem goes_calm {p : BillCall β} (hp : OnlyE Query.Calm p) (hP : Stable i P) :
    Goes i P p (fun _ => P) fun _ => P := by
  refine Triple.of_only hp fun {γ} st hst s hs t hr hinv o hc b u he => ?_
  have ht : P t := hP s t hs hr
  rcases Backend.exec_cases he with ⟨e, rfl, rfl, rfl⟩ | ⟨o', rfl, rfl, rfl⟩
  · exact ⟨trivial, hinv, fun j _ => .refl j u, ht⟩
  · obtain ⟨hinv', hheeds⟩ := run_calm hst hinv i o'
    exact ⟨trivial, hinv', fun j _ => hheeds j, hP t _ ht (hheeds i)⟩

theorem sql_calm {st : BillSql (Ans β)} (h : st.reads = true) : OnlyE Query.Calm (sql st) := by
  unfold OnlyE
  exact ⟨h, fun _ => trivial⟩

theorem payouts_calm {p : Call β} (hp : OnlyE Sql.Calm p) : OnlyE Query.Calm (payouts p) :=
  onlyE_embedCall (φ := Sql.Calm) (fun _ h => h) hp

theorem payouts_quiet {st : Sql (Except Err β)} (h : st.quiet = true) :
    OnlyE Query.Calm (payouts (Infra.sql st)) :=
  payouts_calm (calm_of_quiet (Infra.sql_only h))

end statements

/-- What a patch records: the reference stays, and a failure was known. -/
structure Records (known : Known) (f : BillMeta → BillMeta) : Prop where
  reference : ∀ m, (f m).reference = m.reference
  fails : ∀ m, (f m).Fails → m.Fails ∨ known.fwResult.any (·.fails) = true ∨
    known.statusData.any (·.fails) = true

/-- A patch that leaves the answers. -/
theorem Records.of_same {f : BillMeta → BillMeta} (href : ∀ m, (f m).reference = m.reference)
    (hf : ∀ m, (f m).flutterwave = m.flutterwave) (hs : ∀ m, (f m).billStatus = m.billStatus) :
    Records known f where
  reference := href
  fails m h := .inl (by rwa [BillMeta.Fails, hf, hs] at h)

variable (known) in
theorem goes_patch {f : BillMeta → BillMeta} (hf : Records known f) (status : Option String)
    {P : Tables → Prop} (hP : Stable i P) (hreported : ∀ s, P s → Reported id known s) :
    Goes i P (sql (.patchBill id status f)) (fun _ => P) fun _ => P := by
  refine goes_sql (fun _ => rfl) hP (fun _ _ h _ => h) fun s o hs hinv _ => ?_
  have hrep := hreported s hs
  let payouts := s.payouts.setTx id fun r => { r with status := status.getD r.status }
  have hc : Calm s
      { s with payouts, bills := Function.update s.bills id ((s.bills id).map f) } :=
    hinv.patch rfl rfl hf.reference fun m hm hfails => by
      have href : known.reference = m.reference := hrep.bill.eq ⟨m, hm, rfl⟩
      rw [← href]
      exact (hf.fails m hfails).imp_right fun hknown => hknown.elim hrep.result hrep.status
  exact ⟨hinv.calm hc, fun j _ => hc.heeds j, hP s _ hs (hc.heeds i)⟩

/-! ### Releasing -/

/-- The lock of a bill that may be released. -/
theorem goes_releasePayoutLock (orgId : String) :
    Goes i (fun s => Doomed i id s ∧ Reported id known s)
      (payouts (releasePayoutLock (some orgId) id)) (fun _ => Reported id known)
      fun _ => Reported id known := by
  have hP : Stable i fun s => Doomed i id s ∧ Reported id known s :=
    fun s t h hr => ⟨h.1.stable hr, h.2.stable hr⟩
  have hload : Goes i (fun s => Doomed i id s ∧ Reported id known s)
      (payouts (Infra.sql (.loadTx id (some orgId))))
      (fun found s => (∀ row, found = some row → row.id = id) ∧
        Doomed i id s ∧ Reported id known s) fun _ => Reported id known := by
    refine goes_payout rfl hP (fun _ hs => hs.2) fun s o hs hinv =>
      ⟨hinv, fun j _ => .refl j s, fun found hfound => ⟨fun row hrow => ?_, hs⟩, hs.2⟩
    cases hfound
    exact (Store.tx_mem (Option.filter_eq_some_iff.mp hrow).1).2
  unfold releasePayoutLock loadDirected payouts
  refine triple_embed_bind (R := fun row s => row.id = id ∧ Doomed i id s ∧ Reported id known s)
    ?_ fun row => Triple.assume fun hid => ?_
  · refine triple_embed_bind hload fun found => ?_
    cases found with
    | none => exact triple_embed_throw fun s hs => hs.2.2
    | some row =>
        dsimp only
        split_ifs
        · exact triple_embed_pure fun s hs => ⟨hs.1 row rfl, hs.2⟩
        · exact triple_embed_throw fun s hs => hs.2.2
  · subst hid
    split_ifs
    · exact triple_embed_throw fun s hs => hs.2
    · cases metaUsdc row with
      | none => exact triple_embed_throw fun s hs => hs.2
      | some amt =>
          refine triple_embed_bind (R := fun _ => Reported row.id known) ?_ fun release => ?_
          · refine goes_payout rfl hP (fun _ hs => hs.2) fun s o hs hinv => ?_
            obtain ⟨hinv', hheeds⟩ := hinv.release_run hs.1 amt o
            exact ⟨hinv', hheeds, fun _ _ => ⟨hs.2.bill, hs.2.result, hs.2.status⟩,
              hs.2.bill, hs.2.result, hs.2.status⟩
          · refine goes_calm (payouts_calm ?_) fun s t h hr => h.stable hr
            exact .bind (sql_only trivial) fun _ => .bind (sql_only trivial) fun _ => .pure _

variable (known) in
/-- A bill that may be released is released and marked failed. -/
theorem goes_failLockedBillPayment {β : Type} {Q : β → Tables → Prop} (orgId reason : String)
    (error : BillError) {patch : BillMeta → BillMeta} (hpatch : Records known patch) :
    Goes i (fun s => Doomed i id s ∧ Reported id known s)
      (failLockedBillPayment orgId id reason error patch) Q fun _ _ => True := by
  have hstable : Stable i (Reported id known) := fun _ _ h hr => h.stable hr
  have hmark : ∀ {f}, Records known f → ∀ status,
      Goes i (Reported id known) (sql (.patchBill id status f)) (fun _ => Reported id known)
        fun _ _ => True :=
    fun hf status => (goes_patch known hf status hstable fun _ hs => hs).mono (fun _ hs => hs)
      (fun _ _ hs => hs) fun _ _ _ => trivial
  unfold failLockedBillPayment
  refine Triple.bind (R := fun _ => Reported id known) (Triple.tryCatch
    (F := fun _ => Reported id known) ?_ fun e => ?_) fun _ => ?_
  · exact Triple.bind (goes_releasePayoutLock orgId) fun _ => Triple.pure fun _ hs => hs
  · refine Triple.bind (hmark ?_ _) fun _ => Triple.throw fun _ _ => trivial
    exact .of_same (fun _ => rfl) (fun _ => rfl) fun _ => rfl
  · refine Triple.bind (hmark ?_ _) fun _ => Triple.throw fun _ _ => trivial
    exact ⟨fun m => hpatch.reference _,
      fun m hf => hpatch.fails { m with failureReason := some reason } hf⟩

/-! ### What a bill came to -/

/-- A bill is failed when an answer reports a failure, or no answer says anything. -/
theorem resolve_failed {fwResult : Option FwResult} {statusData : Option StatusData}
    (h : resolveFlutterwaveBillOutcome fwResult statusData = .failed) :
    fwResult.any (·.fails) = true ∨ statusData.any (·.fails) = true ∨
      fwResult = none ∧ recognized statusData = false := by
  unfold resolveFlutterwaveBillOutcome at h
  dsimp only at h
  split_ifs at h with hf hp hs hr
  · rw [List.any_append, Bool.or_eq_true] at hf
    refine hf.elim (fun hf => .inr (.inl ?_)) fun hf => .inl ?_
    · cases statusData with
      | none => cases hf
      | some data => exact hf
    · cases fwResult with
      | none => cases hf
      | some r => exact hf
  · have hnone : fwResult = none := by simpa using hr
    subst hnone
    refine .inr (.inr ⟨rfl, ?_⟩)
    simp only [Option.map_none, Option.getD_none, List.append_nil] at hf hp hs
    unfold recognized
    simp only [List.any_eq_false, List.any_eq_true, Bool.or_eq_true] at hf hp hs ⊢
    rintro t ht ((h1 | h1) | h1)
    · exact hf ⟨t, ht, h1⟩
    · exact hp ⟨t, ht, h1⟩
    · exact hs ⟨t, ht, h1⟩

/-- A reference is not blank. -/
theorem fwTxRef_none (reference : ℕ) : fwTxRef none reference ≠ "" :=
  trim_ne_empty (p := "dayfi-infra-bill-") (by decide) (toString reference)

/-- The status of a bill is what was known of it, or is reported. -/
theorem goes_statusOf :
    Goes i (Reported id known) (statusOf known)
      (fun data s => Reported id { known with statusData := data } s ∧
        (known.fwResult = none → recognized data = true)) fun _ _ => True := by
  unfold statusOf
  dsimp only
  refine Triple.ite (fun hempty => Triple.pure fun s hs => ⟨hs, fun hnone => ?_⟩) fun _ => ?_
  · rw [hnone] at hempty
    exact absurd hempty (fwTxRef_none _)
  · refine Triple.tryCatch (F := fun _ s => Reported id known s ∧
      (known.fwResult = none → recognized known.statusData = true)) (Triple.bind
        (R := fun data s => Reported id { known with statusData := some data } s ∧
          (known.fwResult = none → recognized (some data) = true))
        (goes_sql (fun _ => rfl) (fun _ _ h hr => h.stable hr) (fun s e hs hc => ⟨hs, hc⟩)
          fun s o hs hinv hc => ?_) fun data => Triple.pure fun s hs => hs)
      fun e => Triple.pure fun s hs => hs
    cases ho : o.status with
    | none =>
        have hrun : (BillSql.fetchBillPaymentStatus (fwTxRef known.fwResult known.reference)
            known).run i o s = (.error .provider, s) := by simp [BillSql.run, ho]
        rw [hrun]
        refine ⟨hinv, fun j _ => .refl j s, hs, fun hnone => ?_⟩
        simpa [brings, ho] using hc hnone
    | some data =>
        have hrun : (BillSql.fetchBillPaymentStatus (fwTxRef known.fwResult known.reference)
            known).run i o s =
              (.ok data, if data.fails then s.giveUp known.reference else s) := by
          simp [BillSql.run, ho]
        rw [hrun]
        have hvoiced : known.fwResult = none → recognized (some data) = true := fun hnone => by
          simpa [brings, ho] using hc hnone
        split_ifs with hf
        · obtain ⟨hinv', hheeds⟩ := hinv.giveUp known.reference
          have hrep := hs.stable (hheeds i)
          exact ⟨hinv', fun j _ => hheeds j, ⟨hrep.bill, hrep.result, fun _ =>
            List.mem_cons_self ..⟩, hvoiced⟩
        · exact ⟨hinv, fun j _ => .refl j s, ⟨hs.bill, hs.result, fun h => absurd h hf⟩, hvoiced⟩

/-- A bill that comes to a failure may be released. -/
theorem Reported.doomed (h : Reported id known s)
    (hvoiced : known.fwResult = none → recognized known.statusData = true)
    (hfailed : resolveFlutterwaveBillOutcome known.fwResult known.statusData = .failed) :
    Doomed i id s := by
  refine ⟨known.reference, h.bill, .inl ?_⟩
  rcases resolve_failed hfailed with hf | hf | ⟨hnone, hf⟩
  · exact h.result hf
  · exact h.status hf
  · rw [hvoiced hnone] at hf
    cases hf

/-! ### Paying -/

theorem loadBill_calm (id : ℕ) (orgId : String) : OnlyE Query.Calm (loadBill id orgId) := by
  unfold loadBill
  refine .bind (sql_calm rfl) fun found => ?_
  cases found with
  | none => exact .throw _
  | some found => exact .pure _

theorem simulateSettlement_calm (orgId env : String) (id : ℕ) :
    OnlyE Sql.Calm (simulateSettlement orgId env id) := by
  unfold simulateSettlement
  refine .ite (.throw _) (.bind (sql_only trivial) fun found => ?_)
  cases found with
  | none => exact .throw _
  | some row =>
      refine .ite (.throw _) (.ite (.throw _) ?_)
      cases row.direction with
      | payment => exact calm_of_collection (settleCollectionCredit_only orgId row.id)
      | payout => exact calm_of_payout (finalizePayoutDebit_only _ _) (by simp)

theorem lockBillFunds_calm (orgId : String) (id : ℕ) (usdcAmount : ℚ) :
    OnlyE Sql.Calm (lockBillFunds orgId id usdcAmount) := by
  unfold lockBillFunds
  refine .bind (loadDirected_only _ _ _ trivial) fun row => ?_
  refine .bind (sql_only (by simp [Sql.Calm])) fun lock => .bind (sql_only trivial) fun _ => ?_
  exact .bind (sql_only trivial) fun _ => .pure _

/-- A patch that records what is known. -/
theorem Records.of_known {f : BillMeta → BillMeta} (href : ∀ m, (f m).reference = m.reference)
    (hf : ∀ m, (f m).flutterwave = known.fwResult)
    (hs : ∀ m, (f m).billStatus = known.statusData) : Records known f where
  reference := href
  fails m h := .inr (by rwa [BillMeta.Fails, hf, hs] at h)

section known

variable {fwResult : Option FwResult} {statusData : Option StatusData}

theorem stable_reported : Stable i (Reported id known) := fun _ _ h hr => h.stable hr

theorem goes_completeBillSettlement (orgId : String) (token : Option String) :
    Goes i (Reported id ⟨n, fwResult, statusData⟩)
      (completeBillSettlement orgId id fwResult statusData token)
      (fun _ => Reported id ⟨n, fwResult, statusData⟩)
      fun _ => Reported id ⟨n, fwResult, statusData⟩ := by
  unfold completeBillSettlement
  refine Triple.bind (goes_calm (payouts_calm (calm_of_payout (finalizePayoutDebit_only _ _)
    (by simp))) stable_reported) fun _ => Triple.bind (goes_patch ⟨n, fwResult,
      statusData⟩ ?_ _ stable_reported fun _ hs => hs) fun _ =>
        goes_calm (loadBill_calm _ _) stable_reported
  exact .of_known (fun _ => rfl) (fun _ => rfl) fun _ => rfl

theorem goes_markBillProcessing (token : Option String) (needsSettleRetry : Bool) :
    Goes i (Reported id ⟨n, fwResult, statusData⟩)
      (markBillProcessing id fwResult statusData token needsSettleRetry)
      (fun _ => Reported id ⟨n, fwResult, statusData⟩)
      fun _ => Reported id ⟨n, fwResult, statusData⟩ := by
  unfold markBillProcessing
  refine goes_patch ⟨n, fwResult, statusData⟩ ?_ _ stable_reported fun _ hs => hs
  exact .of_known (fun _ => rfl) (fun _ => rfl) fun _ => rfl

end known

/-- What is left of a call. -/
theorem goes_rest {β : Type} {p : BillCall β} (hp : OnlyE Query.Calm p) {P : Tables → Prop} :
    Goes i P p (fun _ _ => True) fun _ _ => True :=
  (goes_calm hp stable_any).mono (fun _ _ => trivial) (fun _ _ h => h) fun _ _ h => h

theorem goes_settleAnsweredBill (input : PayInfraBillInput) (r : FwResult) :
    Goes i (Reported id ⟨n, some r, none⟩) (settleAnsweredBill input id n r) (fun _ _ => True)
      fun _ _ => True := by
  unfold settleAnsweredBill
  refine Triple.bind goes_statusOf fun data => ?_
  dsimp only
  cases houtcome : resolveFlutterwaveBillOutcome (some r) data with
  | failed =>
      refine (goes_failLockedBillPayment ⟨n, some r, data⟩ _ _ _ ?_).mono
        (fun s hs => ⟨hs.1.doomed (fun hnone => nomatch hnone) houtcome, hs.1⟩) (fun _ _ h => h)
        fun _ _ h => h
      exact .of_known (fun _ => rfl) (fun _ => rfl) fun _ => rfl
  | pending =>
      refine Triple.bind (R := fun _ _ => True) ((goes_markBillProcessing (n := n) _ _).mono
        (fun _ hs => hs.1) (fun _ _ _ => trivial) fun _ _ _ => trivial) fun _ => goes_rest ?_
      exact .bind (loadBill_calm _ _) fun _ => .pure _
  | success =>
      refine Triple.tryCatch (F := fun _ => Reported id ⟨n, some r, data⟩)
        (Triple.bind (R := fun _ _ => True) ((goes_completeBillSettlement (n := n) _ _).mono
          (fun _ hs => hs.1) (fun _ _ _ => trivial) fun _ _ h => h) fun _ =>
            Triple.pure fun _ _ => trivial) fun e => ?_
      refine Triple.bind (R := fun _ _ => True) ((goes_markBillProcessing (n := n) _ _).mono
        (fun _ hs => hs) (fun _ _ _ => trivial) fun _ _ _ => trivial) fun _ => goes_rest ?_
      exact .bind (loadBill_calm _ _) fun _ => .pure _

/-- Nothing is reported of a bill that was not sent. -/
theorem Unsent.reported (h : Unsent i id n s) : Reported id ⟨n, none, none⟩ s :=
  ⟨h.bill, fun hf => (by cases hf), fun hf => (by cases hf)⟩

/-- The request for the payment of a bill. -/
theorem goes_createBillPayment (simulate : Bool) :
    Goes i (Unsent i id n) (sql (.createBillPayment n simulate))
      (fun r => Reported id ⟨n, some r, none⟩) fun _ s => simulate = false → Unsent i id n s := by
  refine goes_sql (fun _ => rfl) (fun _ _ h hr => h.stable hr) (fun s e hs _ _ => hs)
    fun s o hs hinv hc => ?_
  obtain ⟨hlost, hfresh⟩ : (o.create = .acceptedThenFailed → simulate = true) ∧
    (o.create.accepts = true → n ∉ s.failed) := hc
  cases ho : o.create with
  | refused =>
      have hrun : (BillSql.createBillPayment n simulate).run i o s = (.error .provider, s) := by
        simp [BillSql.run, ho]
      rw [hrun]
      exact ⟨hinv, fun j _ => .refl j s, fun _ => hs⟩
  | acceptedThenFailed =>
      have hrun : (BillSql.createBillPayment n simulate).run i o s =
          (.error .provider, { s with accepted := n :: s.accepted }) := by simp [BillSql.run, ho]
      rw [hrun]
      obtain ⟨hinv', hheeds⟩ := hinv.accept hs (hfresh (by simp [ho, CreateOutcome.accepts]))
      refine ⟨hinv', hheeds, fun hsim => ?_⟩
      rw [hlost ho] at hsim
      cases hsim
  | answered r =>
      by_cases hf : r.fails = true
      · have hrun : (BillSql.createBillPayment n simulate).run i o s = (.ok r, s.giveUp n) := by
          simp [BillSql.run, ho, hf]
        rw [hrun]
        obtain ⟨hinv', hheeds⟩ := hinv.giveUp n
        exact ⟨hinv', fun j _ => hheeds j, hs.bill, fun _ => List.mem_cons_self ..,
          fun hnone => by cases hnone⟩
      · have hrun : (BillSql.createBillPayment n simulate).run i o s =
            (.ok r, { s with accepted := n :: s.accepted }) := by simp [BillSql.run, ho, hf]
        rw [hrun]
        have haccepts : o.create.accepts = true := by simp [ho, CreateOutcome.accepts, hf]
        obtain ⟨hinv', hheeds⟩ := hinv.accept hs (hfresh haccepts)
        exact ⟨hinv', hheeds, hs.bill, fun h => absurd h hf, fun hnone => by cases hnone⟩

theorem goes_validateLockedBill (input : PayInfraBillInput) :
    Goes i (Unsent i id n) (validateLockedBill input id) (fun _ => Unsent i id n)
      fun _ _ => True := by
  have hstable : Stable i (Unsent i id n) := fun _ _ h hr => h.stable hr
  unfold validateLockedBill
  refine Triple.ite (fun _ => Triple.pure fun _ h => h) fun _ => ?_
  refine Triple.tryCatch (F := fun _ => Unsent i id n) (Triple.bind
    (goes_calm (sql_calm rfl) hstable) fun name => goes_patch ⟨n, none, none⟩ ?_ _
      hstable fun _ hs => hs.reported) fun e => ?_
  · exact .of_same (fun _ => rfl) (fun _ => rfl) fun _ => rfl
  · refine (goes_failLockedBillPayment ⟨n, none, none⟩ _ _ _ ?_).mono
      (fun s hs => ⟨hs.doomed, hs.reported⟩) (fun _ _ h => h) fun _ _ h => h
    exact .of_same (fun _ => rfl) (fun _ => rfl) fun _ => rfl

theorem goes_payLockedBill (input : PayInfraBillInput) :
    Goes i (Unsent i id n) (payLockedBill input id n) (fun _ _ => True) fun _ _ => True := by
  unfold payLockedBill
  refine Triple.bind (goes_validateLockedBill input) fun _ => ?_
  refine Triple.bind (R := fun answer s =>
    (∀ r, answer = some r → Reported id ⟨n, some r, none⟩ s) ∧
    (answer = none → input.simulates = false → Unsent i id n s)) ?_ fun answer => ?_
  · refine Triple.tryCatch (F := fun _ s => input.simulates = false → Unsent i id n s)
      (Triple.bind (goes_createBillPayment _) fun r => Triple.pure fun s hs => ⟨?_, ?_⟩)
      fun e => Triple.pure fun s hs => ⟨fun r hr => (by cases hr), fun _ => hs⟩
    · intro r' hr'
      cases hr'
      exact hs
    · intro hnone
      cases hnone
  · cases answer with
    | some r =>
        exact (goes_settleAnsweredBill input r).mono (fun s hs => hs.1 r rfl) (fun _ _ h => h)
          fun _ _ h => h
    | none =>
        refine Triple.ite (fun _ => goes_rest ?_) fun hsim => ?_
        · exact .bind (payouts_calm (simulateSettlement_calm _ _ _)) fun _ =>
            .bind (loadBill_calm _ _) fun _ => .pure _
        · have hunsent : ∀ s, (∀ r, none = some r → Reported id ⟨n, some r, none⟩ s) ∧
              ((none : Option FwResult) = none → input.simulates = false → Unsent i id n s) →
              Unsent i id n s := fun s hs => hs.2 rfl (by simpa using hsim)
          refine (goes_failLockedBillPayment ⟨n, none, none⟩ _ _ _ ?_).mono
            (fun s hs => ⟨(hunsent s hs).doomed, (hunsent s hs).reported⟩) (fun _ _ h => h)
            fun _ _ h => h
          exact .of_same (fun _ => rfl) (fun _ => rfl) fun _ => rfl

/-- The insert of a bill: its key is taken, or it is there. -/
theorem insertBill_cases (draft : TxRow) (bill : BillMeta) (i : ℕ) (o : BillOutside)
    (s : Tables) :
    (BillSql.insertBill draft bill).run i o s = (.error .uniqueViolation, s) ∨
      ∃ row payouts, (BillSql.insertBill draft bill).run i o s = (.ok row,
          { s with payouts, bills := Function.update s.bills row.id (some bill) }) ∧
        s.payouts.nextId = row.id ∧ payouts.ledger = s.payouts.ledger ∧
          payouts.nextId = row.id + 1 := by
  simp only [BillSql.run, Sql.run]
  split_ifs
  · exact .inl rfl
  · exact .inr ⟨_, _, rfl, rfl, rfl, rfl⟩

theorem goes_insertBill (input : PayInfraBillInput) (amount usdcAmount : ℚ) :
    Goes i (Unused i n) (sql (.insertBill (input.draft amount usdcAmount n) (input.bill n)))
      (fun row => Unsent i row.id n) fun _ _ => True := by
  refine goes_sql (fun _ => rfl) (fun _ _ h hr => h.stable hr) (fun _ _ _ _ => trivial)
    fun s o hs hinv _ => ?_
  rcases insertBill_cases (input.draft amount usdcAmount n) (input.bill n) i o s with
    hrun | ⟨row, payouts, hrun, hid, hledger, hnext⟩
  · rw [hrun]
    exact ⟨hinv, fun j _ => .refl j s, trivial⟩
  · rw [hrun]
    have hbill : ¬ (input.bill n).Fails := by simp [BillMeta.Fails, PayInfraBillInput.bill]
    exact hinv.insert hs hbill hledger hid hnext

/-- A bill that is not a replay is one whose payment was not asked for. -/
theorem goes_insertBillTx (input : PayInfraBillInput) (amount usdcAmount : ℚ) :
    Goes i (Unused i n) (insertBillTx input amount usdcAmount n)
      (fun found s => found.2 = false → Unsent i found.1.1.id n s) fun _ _ => True := by
  have hstable : Stable i (Unused i n) := fun _ _ h hr => h.stable hr
  have hfind : OnlyE Query.Calm (findKeyedTx input) := by
    unfold findKeyedTx
    cases input.clientKey with
    | none => exact .pure _
    | some idem => exact payouts_quiet rfl
  unfold insertBillTx
  refine Triple.bind ((goes_calm hfind hstable).mono (fun _ h => h) (fun _ _ h => h)
    fun _ _ _ => trivial) fun existing => ?_
  cases existing with
  | some existing =>
      refine Triple.bind (R := fun _ _ => True) (goes_rest (loadBill_calm _ _)) fun found =>
        Triple.pure fun s _ hnone => ?_
      cases hnone
  | none =>
      exact Triple.bind (goes_insertBill input amount usdcAmount) fun row =>
        Triple.pure fun s hs _ => hs

theorem goes_payInfraBill (input : PayInfraBillInput) :
    Goes i (fun _ => True) (payInfraBill input) (fun _ _ => True) fun _ _ => True := by
  have hunused : ∀ {β : Type} {p : BillCall β}, OnlyE Query.Calm p → ∀ n,
      Goes i (Unused i n) p (fun _ => Unused i n) fun _ _ => True :=
    fun hp n => (goes_calm hp fun _ _ h hr => h.stable hr).mono (fun _ h => h) (fun _ _ h => h)
      fun _ _ _ => trivial
  have hquote : ∀ amount, OnlyE Sql.Calm (resolveUsdcAmount amount "NGN") := fun amount => by
    unfold resolveUsdcAmount
    exact .ite (.pure _) (.bind (sql_only trivial) fun _ => .pure _)
  unfold payInfraBill
  cases input.amount with
  | none => exact Triple.throw fun _ _ => trivial
  | some raw =>
      dsimp only
      refine Triple.ite (fun _ => Triple.throw fun _ _ => trivial) fun _ => ?_
      refine Triple.bind (R := fun n => Unused i n) (goes_sql (fun _ => rfl) stable_any
        (fun _ _ _ _ => trivial) fun s o _ hinv _ => ?_) fun n => ?_
      · obtain ⟨hinv', hheeds, hissued⟩ := hinv.issue i
        exact ⟨hinv', fun j _ => hheeds j, hissued⟩
      · refine Triple.bind (hunused (payouts_calm (hquote _)) n) fun usdcAmount => ?_
        refine Triple.bind (hunused (payouts_quiet rfl) n) fun balance => ?_
        refine Triple.ite (fun _ => Triple.throw fun _ _ => trivial) fun _ => ?_
        refine Triple.bind (goes_insertBillTx input _ _) fun found => ?_
        obtain ⟨⟨row, bill⟩, idempotentReplay⟩ := found
        refine Triple.ite (fun _ => Triple.pure fun _ _ => trivial) fun hreplay => ?_
        have hstable : Stable i (Unsent i row.id n) := fun _ _ h hr => h.stable hr
        refine Triple.bind (R := fun _ => Unsent i row.id n) ?_ fun _ => goes_payLockedBill input
        refine Triple.tryCatch (F := fun _ => Unsent i row.id n) ((goes_calm (payouts_calm
          (lockBillFunds_calm _ _ _)) hstable).mono (fun s hs => hs (by simpa using hreplay))
            (fun _ _ h => h) fun _ _ h => h) fun e => ?_
        refine Triple.bind (R := fun _ _ => True) ((goes_patch ⟨n, none, none⟩ ?_ _
          hstable fun _ hs => hs.reported).mono (fun _ h => h) (fun _ _ _ => trivial)
            fun _ _ _ => trivial) fun _ => Triple.throw fun _ _ => trivial
        exact .of_same (fun _ => rfl) (fun _ => rfl) fun _ => rfl

/-! ### Refreshing -/

theorem goes_settleRefreshed (orgId : String) {bill : BillMeta} {data : Option StatusData}
    (token : Option String) :
    Goes i (Reported id ⟨n, bill.flutterwave, data⟩)
      (refreshInfraBillStatus.settleRefreshed orgId id bill data token) (fun _ _ => True)
      fun _ _ => True := by
  unfold refreshInfraBillStatus.settleRefreshed
  refine Triple.tryCatch (F := fun _ _ => True) (Triple.bind (R := fun _ _ => True)
    ((goes_completeBillSettlement (n := n) _ _).mono (fun _ h => h) (fun _ _ _ => trivial)
      fun _ _ _ => trivial) fun _ => Triple.pure fun _ _ => trivial) fun e => goes_rest ?_
  exact .bind (loadBill_calm _ _) fun _ => .pure _

/-- What is read of a bill was reported. -/
theorem goes_findBill (orgId reference : String) :
    Goes i (fun _ => True) (sql (.findBill orgId reference))
      (fun found s => ∀ row bill, found = some (row, bill) →
        Reported row.id ⟨bill.reference, bill.flutterwave, bill.billStatus⟩ s)
      fun _ _ => True := by
  refine goes_sql (fun _ => rfl) stable_any (fun _ _ _ _ => trivial) fun s o _ hinv _ =>
    ⟨hinv, fun j _ => .refl j s, fun row bill hfound => ?_⟩
  obtain ⟨row', -, hrow⟩ := List.exists_of_findSome?_eq_some hfound
  cases hbill : s.bills row'.id with
  | none => simp [hbill] at hrow
  | some bill' =>
      simp only [hbill] at hrow
      split_ifs at hrow
      cases hrow
      exact ⟨⟨bill, hbill, rfl⟩, fun hf => hinv.recorded _ _ hbill (.inl hf),
        fun hf => hinv.recorded _ _ hbill (.inr hf)⟩

theorem goes_refreshInfraBillStatus (orgId reference : String) :
    Goes i (fun _ => True) (refreshInfraBillStatus orgId reference) (fun _ _ => True)
      fun _ _ => True := by
  unfold refreshInfraBillStatus
  refine Triple.bind (goes_findBill orgId reference) fun found => ?_
  cases found with
  | none => exact Triple.throw fun _ _ => trivial
  | some found =>
      obtain ⟨row, bill⟩ := found
      refine Triple.ite (fun _ => Triple.pure fun _ _ => trivial) fun _ => ?_
      refine Triple.bind (goes_statusOf.mono (fun s hs => hs row bill rfl) (fun _ _ h => h)
        fun _ _ h => h) fun data => ?_
      dsimp only
      cases houtcome : resolveFlutterwaveBillOutcome bill.flutterwave data with
      | failed =>
          refine Triple.ite (fun _ => ?_) fun _ => Triple.ite
            (fun _ => Triple.pure fun _ _ => trivial) fun _ =>
              (goes_settleRefreshed (n := bill.reference) orgId _).mono (fun _ hs => hs.1)
                (fun _ _ h => h) fun _ _ h => h
          refine (goes_failLockedBillPayment
            ⟨bill.reference, bill.flutterwave, data⟩ _ _ _ ?_).mono
            (fun s hs => ⟨hs.1.doomed hs.2 houtcome, hs.1⟩) (fun _ _ h => h) fun _ _ h => h
          exact ⟨fun _ => rfl, fun m hf => hf.imp (fun hf => .inl hf) .inr⟩
      | pending =>
          refine Triple.bind (R := fun _ _ => True) ((goes_markBillProcessing
            (n := bill.reference) _ _).mono (fun _ hs => hs.1) (fun _ _ _ => trivial)
              fun _ _ _ => trivial) fun _ => goes_rest ?_
          exact .bind (loadBill_calm _ _) fun _ => .pure _
      | success =>
          exact Triple.ite (fun _ => Triple.pure fun _ _ => trivial) fun _ =>
            (goes_settleRefreshed (n := bill.reference) orgId _).mono (fun _ hs => hs.1)
              (fun _ _ h => h) fun _ _ h => h

/-! ### Whole runs -/

/-- What happens to bills. -/
inductive BillAction where
  | pay (input : PayInfraBillInput)
  | refresh (orgId reference : String)
  deriving DecidableEq, Repr

def BillAction.program : BillAction → Prog Query Unit
  | .pay input => (payInfraBill input).run >>= fun _ => pure ()
  | .refresh orgId reference => (refreshInfraBillStatus orgId reference).run >>= fun _ => pure ()

theorem BillAction.verifies (action : BillAction) (s : Tables) :
    wp backend.machine billDiscipline i action.program (fun _ _ => True) s := by
  cases action with
  | pay input => exact Triple.map_unit (goes_payInfraBill input) s trivial
  | refresh orgId reference =>
      exact Triple.map_unit (goes_refreshInfraBillStatus orgId reference) s trivial

/-- The pool of a list of calls on bills. -/
def billPool (s : Tables) (actions : List BillAction) : Pool Query Unit Tables :=
  ⟨s, actions.map BillAction.program⟩

/-- Tables without bills, in which no row that is still to be made has been released. -/
structure NoBills (s : Tables) : Prop where
  bills : ∀ id, s.bills id = none
  accepted : s.accepted = []
  fresh : ∀ id, s.payouts.nextId ≤ id → ¬ s.Released id

theorem NoBills.inv (h : NoBills s) : BillInv s := by
  have hof : ∀ id n, ¬ s.BillOf id n := by
    rintro id n ⟨bill, hb, -⟩
    rw [h.bills] at hb
    cases hb
  have hacc : ∀ n, n ∉ s.accepted := fun n hn => by
    rw [h.accepted] at hn
    cases hn
  refine ⟨fun id hid => ⟨h.bills id, h.fresh id hid⟩, fun id n hb => absurd hb (hof id n),
    fun id _ n hb => absurd hb (hof id n), fun n hn => absurd hn (hacc n),
    fun n hn => absurd hn (hacc n), fun id bill hb => ?_, fun id n hb => absurd hb (hof id n)⟩
  rw [h.bills] at hb
  cases hb

/-- An organisation with 500 USDC and no bills. -/
def beforeBills : Tables where
  payouts := {
    ledger := {
      wallets := fun k => if k = ⟨"org", .live, "USDC"⟩ then
        some ⟨.active, ⟨500 * 10 ^ 7, 0, 0⟩⟩ else none
      movements := []
      nextMovementId := 0 }
    txs := []
    settlements := []
    requests := []
    payments := []
    nextId := 1 }
  bills := fun _ => none

theorem beforeBills_noBills : NoBills beforeBills :=
  ⟨fun _ => rfl, rfl, fun _ _ h => h rfl⟩

/-- A live airtime bill, and a refresh of it. -/
def payAndRefresh : List BillAction := [
  .pay {
    orgId := "org"
    env := "live"
    categoryCode := "airtime"
    billerCode := "BIL099"
    itemCode := "AT099"
    customerId := "+2348000000000"
    amount := some 1500 },
  .refresh "org" (referenceText 0)]

/-- The turns of the two calls, the request for the payment ending in this way. -/
def billTurns (create : CreateOutcome) (turns : List (ℕ × ℕ)) :
    List (ℕ × Except BillError BillOutside) :=
  turns.flatMap fun t => List.replicate t.2 (t.1, .ok { payouts := { quote := some 1 }, create })

/-- The tables after these turns. -/
def afterBillTurns (create : CreateOutcome) (turns : List (ℕ × ℕ)) : Tables :=
  ((billPool beforeBills payAndRefresh).run backend.machine (billTurns create turns)).store

/-- The first bill is held by the provider, and whether its lock has been released. -/
def Tables.heldAndReleased (s : Tables) : Bool × Bool :=
  ((s.bills 1).any (·.reference ∈ s.accepted), (s.payouts.ledger.posted .release 1).isSome)

end Bills

end DayfiBackend.Infra
