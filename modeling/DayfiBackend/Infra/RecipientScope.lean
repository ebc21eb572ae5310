import DayfiBackend.Infra.Recipients

/-!
# Destinations stay with their recipient

`Scoped` says what any requests leave, whatever the order of their statements: every destination
belongs to a recipient of its organisation and environment, says what its rail needs and shows the
hint of that. What a payout is made to was asked for by the organisation, in its environment; the
statement that looks for the destination does not ask for the environment, which the destination
has from its recipient.

When no destination is asked for, it is the default one if there is one, and else the oldest
(`Chosen`).
-/

namespace DayfiBackend.Infra.Recipients

open DayfiBackend.Found DayfiBackend.Found.Prog DayfiBackend.Found.Keys

/-! ### The property -/

/-- The destination is one of the recipient. -/
def Recipient.Owns (r : Recipient) (d : Destination) : Prop :=
  r.id = d.recipientId ∧ r.orgId = d.orgId ∧ r.environment = d.environment

/-- The destination says what its rail needs, and shows the hint of that. -/
structure Destination.Sound (L : Letters) (d : Destination) : Prop where
  valid : validateDestinationData d.rail d.destinationData = .ok ()
  mask : Mask.mk d.lastFour d.displayHint = maskDestination L d.rail d.destinationData d.provider

/-- What no statement changes of a destination. -/
def Destination.lasting (d : Destination) : Destination :=
  { d with isDefault := false, status := .active, updatedAt := 0 }

/-- A destination that a payout can be made to. -/
def Destination.Payable (d : Destination) (recipientId orgId : String) : Prop :=
  d.recipientId = recipientId ∧ d.orgId = orgId ∧ d.status = .active

/-- What is answered where any destination will do: the default one, or else the oldest. -/
def Chosen {β : Type} (st : RecipientSql β) (b : β) (t : Tables) : Prop :=
  match st, b with
  | .firstDestination recipientId orgId, .ok (some d) =>
      d.Payable recipientId orgId ∧ ∀ e ∈ t.destinations, e.Payable recipientId orgId →
        d.before e
  | .firstDestination recipientId orgId, .ok none =>
      ∀ e ∈ t.destinations, ¬ e.Payable recipientId orgId
  | _, _ => True

/-- What a payout is made to. -/
structure Paid (L : Letters) (input : ResolveInput) (resolved : ResolvedDestination) : Prop where
  recipient : resolved.recipient.id = input.recipientId
  org : resolved.recipient.orgId = input.orgId
  environment : resolved.recipient.environment = asEnv input.environment
  owns : resolved.recipient.Owns resolved.destination
  asked : ∀ destinationId, orNull input.destinationId = some destinationId →
    resolved.destination.id = destinationId
  active : resolved.recipient.status = .active ∧ resolved.destination.status = .active
  sound : resolved.destination.Sound L

/-- What is asked of a run. -/
structure Scoped (L : Letters) (C : Collation) (requests : List Request)
    (sched : List (ℕ × Except RecipientError Outside)) : Prop where
  owned : ∀ d ∈ ((begun L {} requests).run (recipients C).machine sched).store.destinations,
    ∃ r ∈ ((begun L {} requests).run (recipients C).machine sched).store.recipients, r.Owns d
  sound : ∀ d ∈ ((begun L {} requests).run (recipients C).machine sched).store.destinations,
    d.Sound L
  paid : ∀ (i : ℕ) (input : ResolveInput) (resolved : ResolvedDestination),
    requests[i]? = some (.resolveDestinationForPayout input) →
      ((begun L {} requests).run (recipients C).machine sched).procs[i]? =
          some (.ret (.resolved (.ok resolved))) →
        Paid L input resolved ∧
          ∃ d ∈ ((begun L {} requests).run (recipients C).machine sched).store.destinations,
            d.lasting = resolved.destination.lasting
  chosen : Pool.Along (recipients C).machine
    (Pool.GoodAt (recipients C).machine fun _ st _ _ b t => Chosen st b t)
    (begun L {} requests) sched

/-! ### Statements -/

/-- The two rows are of one recipient. -/
def Recipient.Same (r r' : Recipient) : Prop :=
  r.id = r'.id ∧ r.orgId = r'.orgId ∧ r.environment = r'.environment

/-- The destinations that a statement may add. -/
def RecipientSql.Adds {β : Type} (st : RecipientSql β) (d : Destination) : Prop :=
  match st with
  | .insertDestination row _ => ∃ id status now, d = { row with
      id := id, verificationStatus := status, createdAt := now, updatedAt := now }
  | _ => False

/-- What stays while the others step. -/
structure Later (s t : Tables) : Prop where
  recipients : ∀ r ∈ s.recipients, ∃ r' ∈ t.recipients, r'.Same r
  destinations : ∀ d ∈ s.destinations, ∃ d' ∈ t.destinations, d'.lasting = d.lasting

theorem Later.refl (s : Tables) : Later s s :=
  ⟨fun r hr => ⟨r, hr, rfl, rfl, rfl⟩, fun d hd => ⟨d, hd, rfl⟩⟩

theorem Later.trans {s t u : Tables} (h : Later s t) (h' : Later t u) : Later s u := by
  constructor
  · intro r hr
    obtain ⟨r', hr', hid, horg, henv⟩ := h.recipients r hr
    obtain ⟨r'', hr'', hid', horg', henv'⟩ := h'.recipients r' hr'
    exact ⟨r'', hr'', hid'.trans hid, horg'.trans horg, henv'.trans henv⟩
  · intro d hd
    obtain ⟨d', hd', heq⟩ := h.destinations d hd
    obtain ⟨d'', hd'', heq'⟩ := h'.destinations d' hd'
    exact ⟨d'', hd'', heq'.trans heq⟩

/-- What a statement does: no row goes, and a destination is one that was there or is added. -/
structure Moves {β : Type} (st : RecipientSql β) (s t : Tables) : Prop where
  later : Later s t
  origin : ∀ d ∈ t.destinations, (∃ d₀ ∈ s.destinations, d.lasting = d₀.lasting) ∨ st.Adds d

section moves

variable {β : Type} {st : RecipientSql β} {s t : Tables}

theorem Moves.refl (s : Tables) : Moves st s s :=
  ⟨Later.refl s, fun d hd => .inl ⟨d, hd, rfl⟩⟩

/-- The destinations are as they were. -/
theorem Moves.of_recipients (hr : ∀ r ∈ s.recipients, ∃ r' ∈ t.recipients, r'.Same r)
    (hd : t.destinations = s.destinations) : Moves st s t := by
  refine ⟨⟨hr, fun d h => ⟨d, ?_, rfl⟩⟩, fun d h => .inl ⟨d, ?_, rfl⟩⟩
  · rwa [hd]
  · rwa [← hd]

/-- Some destinations are changed, in what does not last. -/
theorem Moves.of_changed {asked : Destination → Bool} {f : Destination → Destination}
    (hf : ∀ d, (f d).lasting = d.lasting) (hr : t.recipients = s.recipients)
    (hd : t.destinations = s.changed asked f) : Moves st s t := by
  have hsame : ∀ d, (if asked d then f d else d).lasting = d.lasting := by
    intro d
    split_ifs
    · exact hf d
    · rfl
  refine ⟨⟨fun r h => ⟨r, ?_, rfl, rfl, rfl⟩, fun d h => ⟨_, ?_, hsame d⟩⟩, fun d h => ?_⟩
  · rwa [hr]
  · rw [hd]
    exact List.mem_map_of_mem h
  · rw [hd] at h
    obtain ⟨d₀, h₀, rfl⟩ := List.mem_map.mp h
    exact .inl ⟨d₀, h₀, hsame d₀⟩

end moves

section statements

variable {C : Collation} {T : Tables}

theorem insertRecipient_cases (T : Tables) (id : String) (row : Recipient) :
    (∃ e, T.insertRecipient id row = (.error e, T)) ∨
      ∃ new T', T.insertRecipient id row = (.ok new, T') ∧ new.orgId = row.orgId ∧
        new.environment = row.environment ∧ T'.recipients = new :: T.recipients ∧
          T'.destinations = T.destinations := by
  unfold Tables.insertRecipient
  dsimp only
  split_ifs
  · exact .inl ⟨_, rfl⟩
  · exact .inr ⟨_, _, rfl, rfl, rfl, rfl, rfl⟩
  · exact .inl ⟨_, rfl⟩

theorem updateRecipient_cases (T : Tables) (recipientId orgId : String) (patch : RecipientPatch) :
    (∃ e, T.updateRecipient recipientId orgId patch = (.error e, T)) ∨
      ∃ r new T', T.updateRecipient recipientId orgId patch = (.ok new, T') ∧
        r ∈ T.recipients ∧ new.Same r ∧
          T'.recipients = T.recipients.map (fun o => if o.id = r.id then new else o) ∧
            T'.destinations = T.destinations := by
  unfold Tables.updateRecipient
  cases hfind : T.findRecipient recipientId orgId none with
  | none => exact .inl ⟨_, rfl⟩
  | some r =>
      dsimp only
      cases hstatus : (patch.status.map Status.ofText).getD (some r.status) with
      | none => exact .inl ⟨_, rfl⟩
      | some status =>
          dsimp only
          split_ifs
          · exact .inl ⟨_, rfl⟩
          · exact .inr ⟨r, _, _, rfl, List.mem_of_find?_eq_some hfind, ⟨rfl, rfl, rfl⟩, rfl, rfl⟩
          · exact .inl ⟨_, rfl⟩

theorem clearDefault_cases (T : Tables) (recipientId orgId : String) :
    (∃ e, T.clearDefault recipientId orgId = (.error e, T)) ∨
      ∃ asked T', T.clearDefault recipientId orgId = (.ok (), T') ∧
        T'.recipients = T.recipients ∧
          T'.destinations = T.changed asked (Tables.undefaulted T.time) := by
  unfold Tables.clearDefault
  dsimp only
  split_ifs
  · exact .inr ⟨_, _, rfl, rfl, rfl⟩
  · exact .inl ⟨_, rfl⟩

theorem archiveDestination_cases (T : Tables) (destinationId orgId : String) :
    (∃ e, T.archiveDestination destinationId orgId = (.error e, T)) ∨
      ∃ asked answer T', T.archiveDestination destinationId orgId = (.ok answer, T') ∧
        T'.recipients = T.recipients ∧
          T'.destinations = T.changed asked (Tables.archived T.time) := by
  unfold Tables.archiveDestination
  dsimp only
  split_ifs
  · exact .inr ⟨_, _, _, rfl, rfl, rfl⟩
  · exact .inl ⟨_, rfl⟩

theorem insertDestination_cases (T : Tables) (id : String) (row : Destination)
    (verificationStatus : String) :
    (∃ e, T.insertDestination id row verificationStatus = (.error e, T)) ∨
      ∃ new T', T.insertDestination id row verificationStatus = (.ok new, T') ∧
        (RecipientSql.insertDestination row verificationStatus).Adds new ∧
          T'.recipients = T.recipients ∧ T'.destinations = new :: T.destinations := by
  unfold Tables.insertDestination
  cases VerificationStatus.ofText verificationStatus with
  | none => exact .inl ⟨_, rfl⟩
  | some status =>
      dsimp only
      split_ifs
      · exact .inl ⟨_, rfl⟩
      · exact .inl ⟨_, rfl⟩
      · exact .inr ⟨_, _, rfl, ⟨id, status, T.time, rfl⟩, rfl, rfl⟩
      · exact .inl ⟨_, rfl⟩

/-- What any statement does. -/
theorem act_moves {β : Type} (st : RecipientSql β) (o : Outside) (T : Tables) :
    Moves st T (st.act C o T).2 := by
  cases st with
  | insertRecipient row =>
      rcases insertRecipient_cases T o.newId row with ⟨e, he⟩ | ⟨new, T', hT, -, -, hr, hd⟩
      · simpa only [RecipientSql.act, he] using Moves.refl T
      · simp only [RecipientSql.act, hT]
        refine .of_recipients (fun r h => ⟨r, ?_, rfl, rfl, rfl⟩) hd
        rw [hr]
        exact List.mem_cons_of_mem _ h
  | updateRecipient recipientId orgId patch =>
      rcases updateRecipient_cases T recipientId orgId patch with
        ⟨e, he⟩ | ⟨r₀, new, T', hT, h₀, hsame, hr, hd⟩
      · simpa only [RecipientSql.act, he] using Moves.refl T
      · simp only [RecipientSql.act, hT]
        refine .of_recipients (fun r h => ?_) hd
        rw [hr]
        refine ⟨_, List.mem_map_of_mem h, ?_⟩
        split_ifs with hid
        · obtain rfl := List.inj_on_of_nodup_map T.uniqueIds h h₀ hid
          exact hsame
        · exact ⟨rfl, rfl, rfl⟩
  | clearDefault recipientId orgId =>
      rcases clearDefault_cases T recipientId orgId with ⟨e, he⟩ | ⟨asked, T', hT, hr, hd⟩
      · simpa only [RecipientSql.act, he] using Moves.refl T
      · simp only [RecipientSql.act, hT]
        exact .of_changed (f := Tables.undefaulted T.time) (fun d => rfl) hr hd
  | archiveDestination destinationId orgId =>
      rcases archiveDestination_cases T destinationId orgId with
        ⟨e, he⟩ | ⟨asked, answer, T', hT, hr, hd⟩
      · simpa only [RecipientSql.act, he] using Moves.refl T
      · simp only [RecipientSql.act, hT]
        exact .of_changed (f := Tables.archived T.time) (fun d => rfl) hr hd
  | insertDestination row verificationStatus =>
      rcases insertDestination_cases T o.newId row verificationStatus with
        ⟨e, he⟩ | ⟨new, T', hT, hadds, hr, hd⟩
      · simpa only [RecipientSql.act, he] using Moves.refl T
      · simp only [RecipientSql.act, hT]
        refine ⟨⟨fun r h => ⟨r, ?_, rfl, rfl, rfl⟩, fun d h => ⟨d, ?_, rfl⟩⟩, fun d h => ?_⟩
        · rwa [hr]
        · rw [hd]
          exact List.mem_cons_of_mem _ h
        · rw [hd] at h
          rcases List.mem_cons.mp h with rfl | h
          · exact .inr hadds
          · exact .inl ⟨d, h, rfl⟩
  | searchRecipients orgId environment includeArchived q => exact Moves.refl T
  | findRecipient recipientId orgId environment => exact Moves.refl T
  | findActiveRecipient recipientId orgId environment => exact Moves.refl T
  | listDestinations orgId recipientId => exact Moves.refl T
  | findDestination destinationId recipientId orgId => exact Moves.refl T
  | firstDestination recipientId orgId => exact Moves.refl T

theorem mem_listDestinations {orgId recipientId : String} {d : Destination} :
    d ∈ T.listDestinations orgId recipientId ↔
      d ∈ T.destinations ∧ d.Payable recipientId orgId := by
  unfold Tables.listDestinations Destination.Payable
  rw [(List.perm_insertionSort _ _).mem_iff, List.mem_filter]
  simp only [Bool.and_eq_true, decide_eq_true_eq]
  tauto

instance : Std.Total Destination.before where
  total a b := by
    unfold Destination.before DestinationPublic.before
    cases a.isDefault <;> cases b.isDefault <;> simp <;> omega

instance : IsTrans Destination Destination.before where
  trans a b c := by
    unfold Destination.before DestinationPublic.before
    cases a.isDefault <;> cases b.isDefault <;> cases c.isDefault <;> simp <;> omega

/-- The first destination in order is the default one, or else the oldest. -/
theorem act_chosen {β : Type} (st : RecipientSql β) (o : Outside) (T : Tables) :
    Chosen st (st.act C o T).1 (st.act C o T).2 := by
  cases st with
  | firstDestination recipientId orgId =>
      have hsorted : (T.listDestinations orgId recipientId).Pairwise Destination.before :=
        List.pairwise_insertionSort _ _
      simp only [RecipientSql.act]
      cases hlist : T.listDestinations orgId recipientId with
      | nil =>
          intro e he hpay
          have hmem := mem_listDestinations.mpr ⟨he, hpay⟩
          rw [hlist] at hmem
          cases hmem
      | cons d ds =>
          rw [hlist] at hsorted
          have hd : d ∈ T.listDestinations orgId recipientId := by
            rw [hlist]
            exact List.mem_cons_self
          refine ⟨(mem_listDestinations.mp hd).2, fun e he hpay => ?_⟩
          have hmem := mem_listDestinations.mpr ⟨he, hpay⟩
          rw [hlist] at hmem
          rcases List.mem_cons.mp hmem with rfl | hmem
          · exact (Std.Total.total e e).elim id id
          · exact List.rel_of_pairwise_cons hsorted hmem
  | _ => trivial

end statements

/-! ### The discipline -/

/-- The invariant of the runs. -/
structure Kept (L : Letters) (s : Tables) : Prop where
  owned : ∀ d ∈ s.destinations, ∃ r ∈ s.recipients, r.Owns d
  sound : ∀ d ∈ s.destinations, d.Sound L

/-- There is a recipient of the organisation, in the environment. -/
def Known (recipientId orgId : String) (environment : Environment) (s : Tables) : Prop :=
  ∃ r ∈ s.recipients, r.id = recipientId ∧ r.orgId = orgId ∧ r.environment = environment

section discipline

variable {L : Letters} {C : Collation} {s t : Tables} {d d' : Destination} {i : ℕ}
  {recipientId orgId : String} {environment : Environment}

theorem Known.later (h : Known recipientId orgId environment s) (hl : Later s t) :
    Known recipientId orgId environment t := by
  obtain ⟨r, hr, hid, horg, henv⟩ := h
  obtain ⟨r', hr', hid', horg', henv'⟩ := hl.recipients r hr
  exact ⟨r', hr', hid'.trans hid, horg'.trans horg, henv'.trans henv⟩

theorem Destination.Sound.of_lasting (h : d.Sound L) (heq : d'.lasting = d.lasting) :
    d'.Sound L := by
  have hrail : d'.rail = d.rail := show d'.lasting.rail = d.lasting.rail by rw [heq]
  have hdata : d'.destinationData = d.destinationData :=
    show d'.lasting.destinationData = d.lasting.destinationData by rw [heq]
  have hprovider : d'.provider = d.provider :=
    show d'.lasting.provider = d.lasting.provider by rw [heq]
  have hfour : d'.lastFour = d.lastFour :=
    show d'.lasting.lastFour = d.lasting.lastFour by rw [heq]
  have hhint : d'.displayHint = d.displayHint :=
    show d'.lasting.displayHint = d.lasting.displayHint by rw [heq]
  refine ⟨?_, ?_⟩
  · rw [hrail, hdata]
    exact h.valid
  · rw [hrail, hdata, hprovider, hfour, hhint]
    exact h.mask

theorem Recipient.Owns.of_lasting {r : Recipient} (h : r.Owns d) (heq : d'.lasting = d.lasting) :
    r.Owns d' := by
  refine ⟨h.1.trans ?_, h.2.1.trans ?_, h.2.2.trans ?_⟩
  · show d.lasting.recipientId = d'.lasting.recipientId
    rw [heq]
  · show d.lasting.orgId = d'.lasting.orgId
    rw [heq]
  · show d.lasting.environment = d'.lasting.environment
    rw [heq]

theorem Recipient.Owns.of_same {r r' : Recipient} (h : r.Owns d) (hsame : r'.Same r) : r'.Owns d :=
  ⟨hsame.1.trans h.1, hsame.2.1.trans h.2.1, hsame.2.2.trans h.2.2⟩

/-- What a statement may add keeps the invariant. -/
def Fine (L : Letters) (s : Tables) (d : Destination) : Prop :=
  Known d.recipientId d.orgId d.environment s ∧ d.Sound L

theorem Kept.after {β : Type} {st : RecipientSql β} (h : Kept L s) (hm : Moves st s t)
    (hadds : ∀ d, st.Adds d → Fine L s d) : Kept L t := by
  refine ⟨fun d hd => ?_, fun d hd => ?_⟩
  · rcases hm.origin d hd with ⟨d₀, h₀, heq⟩ | hnew
    · obtain ⟨r, hr, howns⟩ := h.owned d₀ h₀
      obtain ⟨r', hr', hsame⟩ := hm.later.recipients r hr
      exact ⟨r', hr', (howns.of_same hsame).of_lasting heq⟩
    · exact (hadds d hnew).1.later hm.later
  · rcases hm.origin d hd with ⟨d₀, h₀, heq⟩ | hnew
    · exact (h.sound d₀ h₀).of_lasting heq
    · exact (hadds d hnew).2

/-- The discipline of the runs. -/
def scopeDiscipline (L : Letters) :
    Discipline RecipientSql (Except RecipientError Outside) Tables where
  inv := Kept L
  rely _ := Later
  cond _ _ _ _ := True
  good _ st _ _ b t := Chosen st b t
  rely_refl _ := Later.refl
  rely_trans _ _ _ _ := Later.trans

theorem fail_chosen {β : Type} (st : RecipientSql β) (e : RecipientError) (s : Tables) :
    Chosen st (st.fail e) s := by
  cases st <;> trivial

/-- The time that passes does not matter. -/
theorem run_moves {β : Type} (st : RecipientSql β) (o : Outside) (s : Tables) :
    Moves st s (st.run C o s).2 := by
  have hm : Moves st (s.tick o.elapsed) (st.run C o s).2 := act_moves st o (s.tick o.elapsed)
  exact ⟨⟨hm.later.recipients, hm.later.destinations⟩, hm.origin⟩

/-- The rule of one statement. -/
theorem triple_sql {β : Type} {st : RecipientSql (Ans β)} {P : Tables → Prop}
    {Q : β → Tables → Prop} (hst : ∀ e, st.fail e = .error e)
    (hstable : ∀ s t, P s → Later s t → P t) (hadds : ∀ s d, P s → st.Adds d → Fine L s d)
    (hans : ∀ s o b, P s → Kept L s → (st.act C o s).1 = .ok b → Q b (st.act C o s).2) :
    Triple (recipients C).machine (scopeDiscipline L) i P (sql st) Q fun _ _ => True := by
  refine Backend.triple_call hst hstable (fun s e _ _ => ⟨?_, trivial⟩) fun s o hs hinv _ => ?_
  · rw [← hst]
    exact fail_chosen st e s
  · have hrun : (recipients C).run i st o s = st.run C o s := rfl
    rw [hrun]
    have hm := run_moves (C := C) st o s
    refine ⟨act_chosen st o _, hinv.after hm fun d hd => hadds s d hs hd, fun j _ => hm.later, ?_⟩
    cases hb : (st.run C o s).1 with
    | ok b =>
        have htick : P (s.tick o.elapsed) :=
          hstable s _ hs ⟨(Later.refl s).recipients, (Later.refl s).destinations⟩
        exact hans (s.tick o.elapsed) o b htick ⟨hinv.owned, hinv.sound⟩ hb
    | error e => trivial

/-- A statement that adds nothing, and whose answer is not used. -/
theorem safe_sql {β : Type} {st : RecipientSql (Ans β)} (hst : ∀ e, st.fail e = .error e)
    (hadds : ∀ d, ¬ st.Adds d) :
    Safe (recipients C).machine (scopeDiscipline L) i (sql st) :=
  triple_sql hst (fun _ _ _ _ => trivial) (fun _ d _ h => absurd h (hadds d))
    fun _ _ _ _ _ _ => trivial

/-- What was worked out is so. -/
theorem triple_worked {β : Type} {r : Ans β} {P : Tables → Prop} :
    Triple (recipients C).machine (scopeDiscipline L) i P (worked r)
      (fun b s => r = .ok b ∧ P s) fun _ _ => True := by
  cases r with
  | ok b => exact Triple.pure fun s hs => ⟨rfl, hs⟩
  | error e => exact Triple.throw fun _ _ => trivial

end discipline

/-! ### Calls -/

section calls

variable {L : Letters} {C : Collation} {i : ℕ}

theorem safe_listDestinationsPublic (orgId recipientId : String) :
    Safe (recipients C).machine (scopeDiscipline L) i (listDestinationsPublic orgId recipientId) :=
  .bind (safe_sql (fun _ => rfl) fun _ h => h) fun _ => .pure _

theorem safe_getRecipient (orgId recipientId : String) (environment : Option String) :
    Safe (recipients C).machine (scopeDiscipline L) i
      (getRecipient orgId recipientId environment) := by
  refine .bind (safe_sql (fun _ => rfl) fun _ h => h) fun found => ?_
  cases found with
  | none => exact .throw _
  | some row => exact .bind (safe_listDestinationsPublic _ _) fun _ => .pure _

theorem safe_withDestinations (orgId : String) (rows : List Recipient) :
    Safe (recipients C).machine (scopeDiscipline L) i (withDestinations orgId rows) := by
  induction rows with
  | nil => exact .pure _
  | cons row rows ih =>
      exact .bind (safe_listDestinationsPublic _ _) fun _ => .bind ih fun _ => .pure _

theorem safe_listRecipients (orgId environment : String) (q : Option String)
    (includeArchived : Bool) :
    Safe (recipients C).machine (scopeDiscipline L) i
      (listRecipients orgId environment q includeArchived) :=
  .bind (safe_sql (fun _ => rfl) fun _ h => h) fun _ => safe_withDestinations _ _

theorem safe_updateRecipient (orgId recipientId : String) (patch : RecipientPatch) :
    Safe (recipients C).machine (scopeDiscipline L) i
      (updateRecipient L orgId recipientId patch) :=
  .bind (safe_getRecipient _ _ _) fun _ => .bind (safe_sql (fun _ => rfl) fun _ h => h) fun _ =>
    .bind (safe_listDestinationsPublic _ _) fun _ => .pure _

theorem safe_archiveDestination (orgId destinationId : String) :
    Safe (recipients C).machine (scopeDiscipline L) i
      (archiveDestination orgId destinationId) := by
  refine .bind (safe_sql (fun _ => rfl) fun _ h => h) fun found => ?_
  cases found with
  | none => exact .throw _
  | some row => exact .pure _

/-- A recipient that was found is known. -/
theorem known_of_find {s : Tables} {recipientId orgId : String} {environment : Environment}
    {r : Recipient} (h : s.findRecipient recipientId orgId (some environment) = some r) :
    r ∈ s.recipients ∧ r.id = recipientId ∧ r.orgId = orgId ∧ r.environment = environment := by
  have hr := List.find?_some h
  simp only [Bool.and_eq_true, decide_eq_true_eq, Option.all_some] at hr
  exact ⟨List.mem_of_find?_eq_some h, hr.1.1, hr.1.2, hr.2⟩

/-- Whoever gets past the look for a recipient knows that there is one. -/
theorem triple_getRecipient (orgId recipientId : String) (environment : Environment) :
    Triple (recipients C).machine (scopeDiscipline L) i (fun _ => True)
      (getRecipient orgId recipientId (some (envText environment)))
      (fun _ => Known recipientId orgId environment) fun _ _ => True := by
  have henv : (orNull (some (envText environment))).map asEnv = some environment := by
    cases environment <;> rfl
  unfold getRecipient
  rw [henv]
  refine Triple.bind (R := fun found s => found.isSome = true →
    Known recipientId orgId environment s) ?_ fun found => ?_
  · refine triple_sql (fun _ => rfl) (fun _ _ _ _ => trivial) (fun _ _ _ h => h.elim)
      fun s o b _ _ hb hsome => ?_
    obtain rfl := Except.ok.inj hb
    obtain ⟨r, hr⟩ := Option.isSome_iff_exists.mp hsome
    exact ⟨r, known_of_find hr⟩
  · cases found with
    | none => exact Triple.throw fun _ _ => trivial
    | some row =>
        refine Triple.bind (R := fun _ => Known recipientId orgId environment) ?_ fun _ =>
          Triple.pure fun _ hs => hs
        refine Triple.bind (R := fun _ => Known recipientId orgId environment) ?_ fun _ =>
          Triple.pure fun _ hs => hs
        exact triple_sql (fun _ => rfl) (fun s t hs hl _ => (hs rfl).later hl)
          (fun _ _ _ h => h.elim) fun s o b hs _ _ => hs rfl

theorem orDefault_orNull (a : Option String) (b : String) :
    orDefault (orNull a) b = orDefault a b := by
  unfold orDefault orNull
  rw [Option.filter_filter]
  simp

/-- A provider that is empty is none. -/
theorem maskDestination_orNull (L : Letters) (rail : Rail) (data : DestinationData)
    (provider : Option String) :
    maskDestination L rail data (orNull provider) = maskDestination L rail data provider := by
  cases rail <;> simp only [maskDestination, orDefault_orNull]

/-- What says enough for its rail is added with the hint of it. -/
theorem newDestination_sound {orgId recipientId : String} {env : Environment}
    {country : Option String} {rail : Rail} {input : CreateDestinationInput}
    (h : validateDestinationData rail input.destinationData = .ok ()) :
    (newDestination L orgId recipientId env country rail input).Sound L where
  valid := h
  mask := (maskDestination_orNull L rail input.destinationData input.provider).symm

theorem Fine.of_adds {s : Tables} {row d : Destination} {verificationStatus : String}
    (hknown : Known row.recipientId row.orgId row.environment s) (hrow : row.Sound L)
    (h : (RecipientSql.insertDestination row verificationStatus).Adds d) : Fine L s d := by
  obtain ⟨id, status, now, rfl⟩ := h
  exact ⟨hknown, hrow.valid, hrow.mask⟩

/-- What is added is of the recipient that was looked for, and says what its rail needs. -/
theorem safe_addDestination (orgId recipientId environment : String)
    (input : CreateDestinationInput) :
    Safe (recipients C).machine (scopeDiscipline L) i
      (addDestination L orgId recipientId environment input) := by
  refine Triple.bind (triple_getRecipient _ _ _) fun view => ?_
  refine Triple.bind triple_worked fun rail => Triple.bind triple_worked fun valid => ?_
  refine Triple.assume fun hvalid => ?_
  have hstable : ∀ (φ : Prop) (s t : Tables),
      φ ∧ Known recipientId orgId (asEnv environment) s → Later s t →
        φ ∧ Known recipientId orgId (asEnv environment) t :=
    fun φ s t hs hl => ⟨hs.1, hs.2.later hl⟩
  refine Triple.bind (R := fun _ s => normalizeRail L input.rail = .ok rail ∧
    Known recipientId orgId (asEnv environment) s) ?_ fun _ => ?_
  · refine Triple.ite (fun _ => ?_) fun _ => Triple.pure fun _ hs => hs
    exact triple_sql (fun _ => rfl) (hstable _) (fun _ _ _ h => h.elim)
      fun s o b hs _ _ => (hstable _ s _ hs (act_moves _ o s).later)
  · refine Triple.bind (R := fun _ _ => True) ?_ fun _ => Triple.pure fun _ _ => trivial
    exact triple_sql (fun _ => rfl) (hstable _)
      (fun s d hs hadds => .of_adds hs.2 (newDestination_sound hvalid) hadds)
      fun _ _ _ _ _ _ => trivial

/-- A recipient is known once it is inserted. -/
theorem safe_createRecipient (input : CreateRecipientInput) :
    Safe (recipients C).machine (scopeDiscipline L) i (createRecipient L input) := by
  unfold createRecipient
  dsimp only
  split_ifs
  · exact .throw _
  · refine .bind (safe_sql (fun _ => rfl) fun _ h => h) fun recipient => .bind ?_ fun _ => .pure _
    cases input.destination with
    | none => exact .pure _
    | some destination => exact .bind (safe_addDestination _ _ _ _) fun _ => .pure _

/-- A recipient that a payout may be made to. -/
def Eligible (input : ResolveInput) (r : Recipient) (s : Tables) : Prop :=
  r.id = input.recipientId ∧ r.orgId = input.orgId ∧ r.environment = asEnv input.environment ∧
    r.status = .active ∧ Known r.id r.orgId r.environment s

/-- The destination that a statement finds belongs to the recipient that was found. -/
theorem paid_of_found {s : Tables} {input : ResolveInput} {r : Recipient} {d : Destination}
    (hinv : Kept L s) (hfound : Eligible input r s) (hd : d ∈ s.destinations)
    (hpay : d.Payable input.recipientId input.orgId)
    (hasked : ∀ destinationId, orNull input.destinationId = some destinationId →
      d.id = destinationId) : Paid L input ⟨r, d⟩ := by
  obtain ⟨hid, horg, henv, hactive, r', hr', hid', horg', henv'⟩ := hfound
  obtain ⟨r'', hr'', howns⟩ := hinv.owned d hd
  -- there is one recipient of this identifier
  have hsame : r'' = r' := by
    refine List.inj_on_of_nodup_map s.uniqueIds hr'' hr' ?_
    rw [howns.1, hpay.1, hid', hid]
  subst hsame
  refine ⟨hid, horg, henv, ⟨hid.trans hpay.1.symm, horg.trans hpay.2.1.symm, ?_⟩, hasked,
    ⟨hactive, hpay.2.2⟩, hinv.sound d hd⟩
  exact henv'.symm.trans howns.2.2

/-- What a payout is made to, and that it is still there. -/
def Resolved (L : Letters) (input : ResolveInput) (resolved : ResolvedDestination) (s : Tables) :
    Prop :=
  Paid L input resolved ∧ ∃ d ∈ s.destinations, d.lasting = resolved.destination.lasting

theorem Resolved.later {s t : Tables} {input : ResolveInput} {resolved : ResolvedDestination}
    (h : Resolved L input resolved s) (hl : Later s t) : Resolved L input resolved t := by
  obtain ⟨hpaid, d, hd, heq⟩ := h
  obtain ⟨d', hd', heq'⟩ := hl.destinations d hd
  exact ⟨hpaid, d', hd', heq'.trans heq⟩

theorem triple_destinationAsked {input : ResolveInput} {r : Recipient} :
    Triple (recipients C).machine (scopeDiscipline L) i (Eligible input r)
      (sql (destinationAsked input))
      (fun found s => ∀ d ∈ found, Resolved L input ⟨r, d⟩ s) fun _ _ => True := by
  have hstable : ∀ s t, Eligible input r s → Later s t → Eligible input r t :=
    fun s t hs hl => ⟨hs.1, hs.2.1, hs.2.2.1, hs.2.2.2.1, hs.2.2.2.2.later hl⟩
  unfold destinationAsked
  cases hasked : orNull input.destinationId with
  | some destinationId =>
      refine triple_sql (fun _ => rfl) hstable (fun _ _ _ h => h.elim)
        fun s o b hs hinv hb d hd => ?_
      obtain rfl := Except.ok.inj hb
      have hmem := List.mem_of_find?_eq_some hd
      have hprop := List.find?_some hd
      simp only [Bool.and_eq_true, decide_eq_true_eq] at hprop
      obtain ⟨⟨⟨hid, hrecipient⟩, horg⟩, hactive⟩ := hprop
      refine ⟨paid_of_found hinv hs hmem ⟨hrecipient, horg, hactive⟩ fun x hx => ?_, d, hmem, rfl⟩
      rw [hasked] at hx
      exact hid.trans (Option.some.inj hx)
  | none =>
      refine triple_sql (fun _ => rfl) hstable (fun _ _ _ h => h.elim)
        fun s o b hs hinv hb d hd => ?_
      obtain rfl := Except.ok.inj hb
      obtain ⟨hmem, hpay⟩ := mem_listDestinations.mp (List.mem_of_head? hd)
      refine ⟨paid_of_found hinv hs hmem hpay fun x hx => ?_, d, hmem, rfl⟩
      rw [hasked] at hx
      cases hx

/-- What a payout is made to was asked for. -/
theorem triple_resolve (input : ResolveInput) :
    Triple (recipients C).machine (scopeDiscipline L) i (fun _ => True)
      (resolveDestinationForPayout input) (Resolved L input) fun _ _ => True := by
  refine Triple.bind (R := fun found s => ∀ r ∈ found, Eligible input r s) ?_ fun found => ?_
  · refine triple_sql (fun _ => rfl) (fun _ _ _ _ => trivial) (fun _ _ _ h => h.elim)
      fun s o b _ _ hb r hr => ?_
    obtain rfl := Except.ok.inj hb
    obtain ⟨hfind, hactive⟩ := Option.filter_eq_some_iff.mp hr
    obtain ⟨hmem, hid, horg, henv⟩ := known_of_find hfind
    exact ⟨hid, horg, henv, by simpa using hactive, r, hmem, rfl, rfl, rfl⟩
  · cases found with
    | none => exact Triple.throw fun _ _ => trivial
    | some r =>
        refine Triple.bind (triple_destinationAsked.mono (fun s hs => hs r rfl)
          (fun _ _ h => h) fun _ _ h => h) fun chosen => ?_
        cases chosen with
        | none => exact Triple.throw fun _ _ => trivial
        | some d => exact Triple.pure fun s hs => hs d rfl

end calls

/-! ### Every run -/

section runs

variable {L : Letters} {C : Collation} {i : ℕ}

/-- What a request comes to, where nothing is left to be done. -/
def Ends (L : Letters) (requests : List Request) (i : ℕ) (outcome : Outcome) (s : Tables) : Prop :=
  ∀ input resolved, requests[i]? = some (.resolveDestinationForPayout input) →
    outcome = .resolved (.ok resolved) → Resolved L input resolved s

/-- A request of another kind. -/
theorem wp_other {α : Type} {requests : List Request} {p : RecipientCall α}
    {f : Ans α → Outcome} (hp : Safe (recipients C).machine (scopeDiscipline L) i p)
    (hf : ∀ r resolved, f r ≠ .resolved (.ok resolved)) (s : Tables) :
    wp (recipients C).machine (scopeDiscipline L) i (p.run >>= fun r => pure (f r))
      (Ends L requests i) s := by
  refine (wp_bind _ _ _ _).mpr (wp_mono (fun b t _ => ?_) _ _ (hp s trivial))
  exact (wp_ret _ _ _ _ _ _).mpr fun input resolved _ h => absurd h (hf b resolved)

theorem verified_request {requests : List Request} {r : Request} (hi : requests[i]? = some r)
    (s : Tables) :
    wp (recipients C).machine (scopeDiscipline L) i (r.program L) (Ends L requests i) s := by
  cases r with
  | createRecipient input => exact wp_other (safe_createRecipient _) (fun _ _ h => by cases h) s
  | listRecipients orgId environment q includeArchived =>
      exact wp_other (safe_listRecipients _ _ _ _) (fun _ _ h => by cases h) s
  | getRecipient orgId recipientId environment =>
      exact wp_other (safe_getRecipient _ _ _) (fun _ _ h => by cases h) s
  | updateRecipient orgId recipientId patch =>
      exact wp_other (safe_updateRecipient _ _ _) (fun _ _ h => by cases h) s
  | archiveRecipient orgId recipientId =>
      exact wp_other (safe_updateRecipient _ _ _) (fun _ _ h => by cases h) s
  | addDestination orgId recipientId environment input =>
      exact wp_other (safe_addDestination _ _ _ _) (fun _ _ h => by cases h) s
  | archiveDestination orgId destinationId =>
      exact wp_other (safe_archiveDestination _ _) (fun _ _ h => by cases h) s
  | resolveDestinationForPayout input =>
      refine (wp_bind _ _ _ _).mpr (wp_mono (fun b t hb => ?_) _ _ (triple_resolve input s trivial))
      refine (wp_ret _ _ _ _ _ _).mpr fun input' resolved hi' h => ?_
      obtain rfl : input = input' :=
        Request.resolveDestinationForPayout.inj (Option.some.inj (hi.symm.trans hi'))
      obtain rfl := Outcome.resolved.inj h
      exact hb

/-- **Destinations stay with their recipient** in every run of any requests, and a payout is made
to what its organisation asked for in its environment. -/
theorem destinations_scoped (L : Letters) (C : Collation) (requests : List Request)
    (sched : List (ℕ × Except RecipientError Outside)) : Scoped L C requests sched := by
  have hstart : Pool.Verified (recipients C).machine (scopeDiscipline L) (Ends L requests)
      (begun L {} requests) := by
    refine Pool.Verified.start ⟨fun _ h => (by cases h), fun _ h => (by cases h)⟩ fun i p hp => ?_
    obtain ⟨r, hi, rfl⟩ := Option.map_eq_some_iff.mp ((List.getElem?_map ..).symm.trans hp)
    exact verified_request hi _
  obtain ⟨hend, hgood⟩ := Pool.run_sound hstart sched
    (Pool.along_of_forall _ (fun P e => by unfold Pool.CondAt; split <;> trivial) _ _)
  refine ⟨hend.1.owned, hend.1.sound, fun i input resolved hi hret => ?_, hgood⟩
  obtain ⟨s, hs, hlater⟩ := hend.result hret
  exact (hs input resolved hi rfl).later hlater

end runs

end DayfiBackend.Infra.Recipients
