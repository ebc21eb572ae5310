import DayfiBackend.Four.OtpChallenges
import Mathlib.Data.List.Forall2

/-!
# Limits of one-time codes

`Guarded` says how often a challenge may be checked, how many sessions it may yield and how often
codes may be sent; `UsesLive` says what a challenge must be like when a code is checked against it
or it is consumed. The limits are read before a code is sent or checked and written after, so they
hold in the runs in which nothing has come in between (`Careful`); `codes_are_limited` is the
result for these.
-/

namespace DayfiBackend.Four

open DayfiBackend.Found DayfiBackend.Found.Prog

/-! ### The property -/

namespace Otp

/-- The challenges of a number, the newest first. -/
def challengesOf (T : Otp) (phone : String) : List Challenge :=
  T.challenges.filter (isFor phone .login)

/-- When the codes of a number were sent, the newest first. -/
def sends (T : Otp) (phone : String) : List ℕ :=
  (T.sent.filter (·.phoneE164 = phone)).map (·.sentAt)

/-- A challenge is live: neither consumed nor expired, nor superseded by a newer one. -/
def Live (T : Otp) (id now : ℕ) : Prop :=
  ∃ c ∈ T.challenges, c.id = id ∧ c.consumedAt = none ∧ now < c.expiresAt ∧
    (T.challengesOf c.phoneE164).head? = some c

end Otp

/-- A quarter of an hour. -/
def window : ℕ := 15 * 60 * second

/-- The limits of the challenges, and of the codes sent. -/
structure Guarded (T : Otp) : Prop where
  checks : ∀ c ∈ T.challenges, T.checks.count c.id ≤ c.maxAttempts
  sessions : (T.sessions.map (·.challengeId)).Nodup
  window : ∀ phone start,
    ((T.sends phone).filter fun sentAt => start ≤ sentAt ∧ sentAt < start + window).length ≤ 3
  gaps : ∀ phone, (T.sends phone).Pairwise fun later earlier => earlier + 60 * second ≤ later

/-- A statement that checks a code against a challenge, or consumes one, finds it live. -/
def OtpSql.UsesLive {β : Type} (st : OtpSql β) (b : β) (T : Otp) (now : ℕ) : Prop :=
  match st, b with
  | .providerCheck id _ _, _ => T.Live id now
  | .consume id, .ok true => T.Live id now
  | _, _ => True

/-- A step uses live challenges only. -/
def UsesLive {β : Type} (st : Beside IdentitySql OtpSql β) (o : Except FourError OtpOutside)
    (s : Store) (b : β) : Prop :=
  match st, o with
  | .own st, .ok o => st.UsesLive b s.2 (s.1.time + o.identity.elapsed)
  | _, _ => True

/-- Codes are limited, in every state and at every step of a run. -/
structure CodesLimited (U : Users) (requests : List Request)
    (sched : List (ℕ × Except FourError OtpOutside)) : Prop where
  guarded : Guarded ((begun U requests).run auth.machine sched).store.2
  live : Pool.Along auth.machine (Pool.GoodAt auth.machine fun _ st o s b _ => UsesLive st o s b)
    (begun U requests) sched

/-! ### The condition -/

/-- What a process has seen: how many challenges its number had when it read the allowance, and
the challenge it has found. And what it has to do yet: the challenge of the code it has sent, and
the session of the challenge it has consumed. -/
structure Seen where
  codes : ℕ := 0
  found : Option Challenge := none
  pending : Option (String × ℕ) := none
  holds : Option ℕ := none
  deriving DecidableEq, Repr

/-- What a process has seen, once a statement is answered. -/
def OtpSql.seen {β : Type} (st : OtpSql β) (b : β) (T : Otp) (now : ℕ) (seen : Seen) : Seen :=
  match st, b with
  | .sendCounts phone _, .ok _ => { seen with codes := (T.challengesOf phone).length }
  | .providerSend phone, _ => { seen with pending := some (phone, now) }
  | .create .., .ok _ => { seen with pending := none }
  | .findActive .., .ok found => { seen with found := found }
  | .consume id, .ok true => { seen with holds := some id }
  | .insertSession .., .ok _ => { seen with holds := none }
  | _, _ => seen

/-- What is seen is noted. -/
def noticing {β : Type} (st : Beside IdentitySql OtpSql β) (o : Except FourError OtpOutside)
    (s : Store) (b : β) (t : Store) (seen : Seen) : Seen :=
  match st, o with
  | .own st, .ok _ => st.seen b s.2 t.1.time seen
  | _, _ => seen

/-- All tables, and what each process has seen. -/
abbrev Watched := Store × (ℕ → Seen)

/-- The server, and what each process has seen. -/
def watchedAuth : Machine (Beside IdentitySql OtpSql) (Except FourError OtpOutside) Watched :=
  auth.machine.noting noticing

/-- The condition on a statement of the service. When a code is sent, as many were sent to its
number as there were challenges when the allowance was read. When a challenge is checked, it is as
it was found and not expired, and each check of it is recorded. When it is consumed, it is not
expired. -/
def OtpSql.Careful {β : Type} (st : OtpSql β) (T : Otp) (now : ℕ) (seen : Seen) : Prop :=
  match st with
  | .providerSend phone => (T.sends phone).length = seen.codes
  | .providerCheck id _ _ => ∀ c ∈ seen.found,
      c ∈ T.challenges ∧ now < c.expiresAt ∧ T.checks.count id = c.attempts
  | .consume id => ∀ c ∈ T.challenges, c.id = id → now < c.expiresAt
  | _ => True

/-- The condition on the steps of a run. -/
def CarefulCodes {β : Type} (i : ℕ) (st : Beside IdentitySql OtpSql β)
    (o : Except FourError OtpOutside) (s : Watched) : Prop :=
  match st, o with
  | .own st, .ok o => st.Careful s.1.2 (s.1.1.time + o.identity.elapsed) (s.2 i)
  | _, _ => True

instance {β : Type} (i : ℕ) (st : Beside IdentitySql OtpSql β)
    (o : Except FourError OtpOutside) (s : Watched) : Decidable (CarefulCodes i st o s) := by
  unfold CarefulCodes OtpSql.Careful
  repeat' split
  all_goals infer_instance

/-! ### The invariant -/

/-- A later version of a challenge. -/
structure Challenge.Continues (c d : Challenge) : Prop where
  id : d.id = c.id
  phone : d.phoneE164 = c.phoneE164
  purpose : d.purpose = c.purpose
  maxAttempts : d.maxAttempts = c.maxAttempts
  expires : d.expiresAt = c.expiresAt
  created : d.createdAt = c.createdAt
  consumed : d.consumedAt = none → c.consumedAt = none

/-- Later tables: challenges stay, and newer ones come before them. -/
def Otp.Later (T T' : Otp) : Prop :=
  ∀ phone, List.SublistForall₂ Challenge.Continues (T.challengesOf phone) (T'.challengesOf phone)

/-- A challenge is consumed. -/
def Otp.Spent (T : Otp) (id : ℕ) : Prop :=
  ∃ c ∈ T.challenges, c.id = id ∧ c.consumedAt ≠ none

/-- The codes sent are those of the challenges created, each sent before. -/
def Recorded (sends : List ℕ) (challenges : List Challenge) : Prop :=
  List.Forall₂ (fun sentAt c => sentAt ≤ c.createdAt) sends challenges

/-- The challenge of the last code sent is not created yet. -/
def Pending (sentAt : ℕ) (sends : List ℕ) (challenges : List Challenge) : Prop :=
  ∃ rest, sends = sentAt :: rest ∧ Recorded rest challenges

/-- What holds at every step. -/
structure OtpInv (T : Otp) (N : ℕ → Seen) : Prop where
  lower : ∀ c ∈ T.challenges, c.id < T.challenges.length
  ids : (T.challenges.map (·.id)).Nodup
  login : ∀ c ∈ T.challenges, c.purpose = .login
  newest : ∀ c ∈ T.challenges, c.consumedAt = none →
    (T.challengesOf c.phoneE164).head? = some c
  checked : ∀ id ∈ T.checks, id < T.challenges.length
  counts : ∀ c ∈ T.challenges, T.checks.count c.id ≤ c.maxAttempts
  issued : ∀ x ∈ T.sessions, T.Spent x.challengeId
  once : (T.sessions.map (·.challengeId)).Nodup
  held : ∀ i id, (N i).holds = some id →
    T.Spent id ∧ ∀ x ∈ T.sessions, x.challengeId ≠ id
  heldApart : ∀ i j id, (N i).holds = some id → (N j).holds = some id → i = j
  aligned : ∀ phone, Recorded (T.sends phone) (T.challengesOf phone) ∨
    ∃ sentAt, Pending sentAt (T.sends phone) (T.challengesOf phone)
  pending : ∀ i phone sentAt, (N i).pending = some (phone, sentAt) →
    Pending sentAt (T.sends phone) (T.challengesOf phone)
  pendingApart : ∀ i j phone sentAt sentAt', (N i).pending = some (phone, sentAt) →
    (N j).pending = some (phone, sentAt') → i = j
  window : ∀ phone start,
    ((T.sends phone).filter fun sentAt => start ≤ sentAt ∧ sentAt < start + window).length ≤ 3
  gaps : ∀ phone, (T.sends phone).Pairwise fun later earlier => earlier + 60 * second ≤ later

/-- The invariant gives the property. -/
theorem OtpInv.guarded {T : Otp} {N : ℕ → Seen} (h : OtpInv T N) : Guarded T :=
  ⟨h.counts, h.once, h.window, h.gaps⟩

section codes

variable {i : ℕ} {s t u : Watched} {T T' T'' : Otp} {phone : String} {c d : Challenge}
  {sends : List ℕ} {cs ds : List Challenge}

/-! ### Later tables -/

theorem Challenge.Continues.refl (c : Challenge) : c.Continues c :=
  ⟨rfl, rfl, rfl, rfl, rfl, rfl, fun h => h⟩

theorem Challenge.Continues.trans {e : Challenge} (h : c.Continues d) (h' : d.Continues e) :
    c.Continues e :=
  ⟨h'.id.trans h.id, h'.phone.trans h.phone, h'.purpose.trans h.purpose,
    h'.maxAttempts.trans h.maxAttempts, h'.expires.trans h.expires, h'.created.trans h.created,
    fun he => h.consumed (h'.consumed he)⟩

instance : Std.Refl Challenge.Continues := ⟨.refl⟩

instance : IsTrans Challenge Challenge.Continues := ⟨fun _ _ _ h h' => h.trans h'⟩

theorem Otp.Later.refl (T : Otp) : T.Later T := fun _ => List.sublistForall₂_iff.mpr
  ⟨_, List.forall₂_refl _, List.Sublist.refl _⟩

theorem Otp.Later.trans (h : T.Later T') (h' : T'.Later T'') : T.Later T'' := fun phone =>
  Trans.trans (h phone) (h' phone)

/-- As many challenges of a number as before are the same challenges. -/
theorem Otp.Later.same (h : T.Later T')
    (hlen : (T'.challengesOf phone).length = (T.challengesOf phone).length) :
    List.Forall₂ Challenge.Continues (T.challengesOf phone) (T'.challengesOf phone) := by
  obtain ⟨ds, hds, hsub⟩ := List.sublistForall₂_iff.mp (h phone)
  have heq := hsub.eq_of_length (hds.length_eq.symm.trans hlen.symm)
  rwa [heq] at hds

theorem Otp.Later.length_le (h : T.Later T') (phone : String) :
    (T.challengesOf phone).length ≤ (T'.challengesOf phone).length := by
  obtain ⟨ds, hds, hsub⟩ := List.sublistForall₂_iff.mp (h phone)
  rw [hds.length_eq]
  exact hsub.length_le

theorem isFor_continues (h : c.Continues d) (phone : String) :
    Otp.isFor phone .login d = Otp.isFor phone .login c := by
  unfold Otp.isFor
  rw [h.phone, h.purpose]

/-- Challenges are changed, each into a later version. -/
theorem forall₂_challengesOf {f : Challenge → Challenge} (hf : ∀ c : Challenge, c.Continues (f c))
    (cs : List Challenge) (phone : String) :
    List.Forall₂ Challenge.Continues (cs.filter (Otp.isFor phone .login))
      ((cs.map f).filter (Otp.isFor phone .login)) := by
  induction cs with
  | nil => exact .nil
  | cons c cs ih =>
      rw [List.map_cons, List.filter_cons, List.filter_cons, isFor_continues (hf c)]
      split_ifs
      · exact .cons (hf c) ih
      · exact ih

theorem Otp.Later.of_map {f : Challenge → Challenge} (hf : ∀ c : Challenge, c.Continues (f c))
    (hT : T'.challenges = T.challenges.map f) : T.Later T' := fun phone => by
  refine List.sublistForall₂_iff.mpr ⟨_, forall₂_challengesOf hf T.challenges phone, ?_⟩
  unfold challengesOf
  rw [hT]

theorem challengesOf_map {f : Challenge → Challenge} (hf : ∀ c : Challenge, c.Continues (f c))
    (hT : T'.challenges = T.challenges.map f) (phone : String) :
    T'.challengesOf phone = (T.challengesOf phone).map f := by
  unfold Otp.challengesOf
  rw [hT, List.filter_map]
  congr 1
  refine List.filter_congr fun c _ => ?_
  exact isFor_continues (hf c) phone

theorem Recorded.continues (h : Recorded sends cs) (hds : List.Forall₂ Challenge.Continues cs ds) :
    Recorded sends ds := by
  induction h generalizing ds with
  | nil =>
      cases hds
      exact .nil
  | cons hle _ ih =>
      cases hds with
      | cons hcd hds => exact .cons (hcd.created ▸ hle) (ih hds)

theorem Pending.continues {sentAt : ℕ} (h : Pending sentAt sends cs)
    (hds : List.Forall₂ Challenge.Continues cs ds) : Pending sentAt sends ds := by
  obtain ⟨rest, hrest, hrecorded⟩ := h
  exact ⟨rest, hrest, hrecorded.continues hds⟩

/-- The challenge of a code is recorded. -/
theorem Recorded.exists (h : Recorded sends cs) {sentAt : ℕ} (hs : sentAt ∈ sends) :
    ∃ c ∈ cs, sentAt ≤ c.createdAt := by
  induction h with
  | nil => cases hs
  | @cons a c sends cs hle _ ih =>
      rcases List.mem_cons.mp hs with rfl | hs
      · exact ⟨c, List.mem_cons_self, hle⟩
      · obtain ⟨d, hd, hle'⟩ := ih hs
        exact ⟨d, List.mem_cons_of_mem _ hd, hle'⟩

/-- No more codes than challenges are recent. -/
theorem Recorded.count_le (h : Recorded sends cs) (now : ℕ) :
    (sends.filter fun sentAt => now < sentAt + window).length ≤
      ((cs.map (·.createdAt)).filter fun createdAt => now < createdAt + window).length := by
  induction h with
  | nil => exact le_rfl
  | @cons a c sends cs hle _ ih =>
      rw [List.map_cons, List.filter_cons, List.filter_cons]
      by_cases ha : now < a + window
      · rw [if_pos (by simpa using ha), if_pos (by simp only [decide_eq_true_eq]; omega)]
        exact Nat.succ_le_succ ih
      · rw [if_neg (by simpa using ha)]
        split_ifs
        · exact ih.trans (Nat.le_succ _)
        · exact ih

/-! ### The allowance -/

/-- A code that the allowance permits is apart from the earlier ones. -/
theorem gap_of_allowed {now sentAt : ℕ} (h : Recorded (T'.sends phone) (T.challengesOf phone))
    (hallowed : (T.sendCounts phone .login now).retryAfterSeconds = none)
    (hs : sentAt ∈ T'.sends phone) : sentAt + 60 * second ≤ now := by
  obtain ⟨c, hc, hle⟩ := h.exists hs
  unfold SendCounts.retryAfterSeconds at hallowed
  split_ifs at hallowed with hgap hcount
  have hmem : c.createdAt ∈ (T.challengesOf phone).map (·.createdAt) := List.mem_map_of_mem hc
  cases hmax : ((T.challengesOf phone).map (·.createdAt)).max? with
  | none =>
      rw [List.max?_eq_none_iff.mp hmax] at hmem
      cases hmem
  | some last =>
      have hlast : c.createdAt ≤ last := (List.max?_eq_some_iff.mp hmax).2 _ hmem
      have hsince : (T.sendCounts phone .login now).sinceLast = some (now - last) := by
        show ((T.challengesOf phone).map (·.createdAt)).max?.map (now - ·) = _
        rw [hmax]
        rfl
      rw [hsince] at hgap
      simp only [Option.any_some, decide_eq_true_eq, not_lt] at hgap
      have hpos : 0 < otpMinResendIntervalSeconds * second := by decide
      have hsecs : otpMinResendIntervalSeconds * second = 60 * second := rfl
      omega

/-- A code that the allowance permits is at most the third in a quarter of an hour. -/
theorem window_of_allowed {now later start : ℕ}
    (h : Recorded (T'.sends phone) (T.challengesOf phone))
    (hallowed : (T.sendCounts phone .login now).retryAfterSeconds = none) (hlater : now ≤ later)
    (hwindow : ((T'.sends phone).filter fun sentAt =>
      start ≤ sentAt ∧ sentAt < start + window).length ≤ 3) :
    ((later :: T'.sends phone).filter fun sentAt =>
      start ≤ sentAt ∧ sentAt < start + window).length ≤ 3 := by
  unfold SendCounts.retryAfterSeconds at hallowed
  split_ifs at hallowed with hgap hcount
  have hfew : (((T.challengesOf phone).map (·.createdAt)).filter
      fun createdAt => now < createdAt + window).length < 3 := not_le.mp hcount
  rw [List.filter_cons]
  split_ifs with hin
  · simp only [decide_eq_true_eq] at hin
    have hsub : ((T'.sends phone).filter fun sentAt =>
        start ≤ sentAt ∧ sentAt < start + window).length ≤
          ((T'.sends phone).filter fun sentAt => now < sentAt + window).length := by
      refine List.Sublist.length_le (List.monotone_filter_right _ fun sentAt hs => ?_)
      simp only [decide_eq_true_eq] at hs ⊢
      omega
    have hle := h.count_le now
    rw [List.length_cons]
    omega
  · exact hwindow

/-! ### The discipline -/

/-- What a process may count on: challenges stay, its own notes are its own, and while the
challenge of its code is pending, its number has no new one. -/
structure Counts (i : ℕ) (s t : Watched) : Prop where
  own : t.2 i = s.2 i
  time : s.1.1.time ≤ t.1.1.time
  later : s.1.2.Later t.1.2
  pending : ∀ phone sentAt, (s.2 i).pending = some (phone, sentAt) →
    (t.1.2.challengesOf phone).length = (s.1.2.challengesOf phone).length

theorem Counts.refl (i : ℕ) (s : Watched) : Counts i s s :=
  ⟨rfl, le_rfl, .refl _, fun _ _ _ => rfl⟩

theorem Counts.trans (h : Counts i s t) (h' : Counts i t u) : Counts i s u :=
  ⟨h'.own.trans h.own, h.time.trans h'.time, h.later.trans h'.later,
    fun phone sentAt hp => (h'.pending phone sentAt (h.own ▸ hp)).trans (h.pending phone sentAt hp)⟩

/-- The discipline of the codes. -/
def otpDiscipline :
    Discipline (Beside IdentitySql OtpSql) (Except FourError OtpOutside) Watched where
  inv s := OtpInv s.1.2 s.2
  rely := Counts
  cond := CarefulCodes
  good _ st o s b _ := UsesLive st o s.1 b
  rely_refl := Counts.refl
  rely_trans _ _ _ _ := Counts.trans

/-- What is known stays so while the others step. -/
def Stays (i : ℕ) (P : Watched → Prop) : Prop := ∀ s t, P s → Counts i s t → P t

theorem stays_true : Stays i fun _ => True := fun _ _ _ _ => trivial

/-! ### Steps -/

variable {N N' : ℕ → Seen} {id now : ℕ}

/-- Processes take note of what they read. -/
theorem OtpInv.notes (h : OtpInv T N) (hpending : ∀ j, (N' j).pending = (N j).pending)
    (hholds : ∀ j, (N' j).holds = (N j).holds) : OtpInv T N' :=
  { h with
    held := fun i id hi => h.held i id (hholds i ▸ hi)
    heldApart := fun i j id hi hj => h.heldApart i j id (hholds i ▸ hi) (hholds j ▸ hj)
    pending := fun i phone sentAt hi => h.pending i phone sentAt (hpending i ▸ hi)
    pendingApart := fun i j phone sentAt sentAt' hi hj =>
      h.pendingApart i j phone sentAt sentAt' (hpending i ▸ hi) (hpending j ▸ hj) }

theorem Otp.Spent.map {f : Challenge → Challenge} (hf : ∀ c : Challenge, c.Continues (f c))
    (h : T.Spent id) : ({ T with challenges := T.challenges.map f } : Otp).Spent id := by
  obtain ⟨c, hc, hid, hspent⟩ := h
  exact ⟨f c, List.mem_map_of_mem hc, (hf c).id.trans hid,
    fun hnone => hspent ((hf c).consumed hnone)⟩

/-- Challenges are changed, each into a later version. -/
theorem OtpInv.mapped (h : OtpInv T N) {f : Challenge → Challenge}
    (hf : ∀ c : Challenge, c.Continues (f c)) :
    OtpInv { T with challenges := T.challenges.map f } N := by
  have hof : ∀ phone, ({ T with challenges := T.challenges.map f } : Otp).challengesOf phone =
      (T.challengesOf phone).map f := challengesOf_map hf rfl
  have hsame : ∀ phone, List.Forall₂ Challenge.Continues (T.challengesOf phone)
      ((T.challengesOf phone).map f) := fun phone =>
    List.forall₂_map_right_iff.mpr (List.forall₂_same.mpr fun c _ => hf c)
  refine { h with
    lower := ?_
    ids := ?_
    login := ?_
    newest := ?_
    checked := ?_
    counts := ?_
    issued := ?_
    held := ?_
    aligned := ?_
    pending := ?_ }
  · intro d hd
    obtain ⟨c, hc, rfl⟩ := List.mem_map.mp hd
    rw [(hf c).id, List.length_map]
    exact h.lower c hc
  · rw [List.map_map, show (fun c : Challenge => c.id) ∘ f = fun c => c.id from
      funext fun c => (hf c).id]
    exact h.ids
  · intro d hd
    obtain ⟨c, hc, rfl⟩ := List.mem_map.mp hd
    exact (hf c).purpose.trans (h.login c hc)
  · intro d hd hnone
    obtain ⟨c, hc, rfl⟩ := List.mem_map.mp hd
    rw [hof, (hf c).phone, List.head?_map, h.newest c hc ((hf c).consumed hnone)]
    rfl
  · intro id hid
    rw [List.length_map]
    exact h.checked id hid
  · intro d hd
    obtain ⟨c, hc, rfl⟩ := List.mem_map.mp hd
    rw [(hf c).id, (hf c).maxAttempts]
    exact h.counts c hc
  · exact fun x hx => (h.issued x hx).map hf
  · exact fun i id hi => ⟨(h.held i id hi).1.map hf, (h.held i id hi).2⟩
  · intro phone
    rw [hof]
    rcases h.aligned phone with hrec | ⟨sentAt, hpend⟩
    · exact .inl (hrec.continues (hsame phone))
    · exact .inr ⟨sentAt, hpend.continues (hsame phone)⟩
  · intro i phone sentAt hi
    rw [hof]
    exact (h.pending i phone sentAt hi).continues (hsame phone)

/-- A challenge that is just consumed is its process's own. -/
theorem OtpInv.hold (h : OtpInv T N) (hspent : T.Spent id)
    (hsessions : ∀ x ∈ T.sessions, x.challengeId ≠ id) (hothers : ∀ j, (N j).holds ≠ some id) :
    OtpInv T (Function.update N i { N i with holds := some id }) := by
  set N' := Function.update N i { N i with holds := some id }
  have hown : N' i = { N i with holds := some id } := Function.update_self ..
  have hne : ∀ j, j ≠ i → N' j = N j := fun j hj => Function.update_of_ne hj ..
  have hpending : ∀ j, (N' j).pending = (N j).pending := by
    intro j
    by_cases hj : j = i
    · rw [hj, hown]
    · rw [hne j hj]
  refine { h with
    held := ?_
    heldApart := ?_
    pending := ?_
    pendingApart := ?_ }
  · intro j id' hj
    by_cases hji : j = i
    · rw [hji, hown] at hj
      obtain rfl : id = id' := Option.some.inj hj
      exact ⟨hspent, hsessions⟩
    · rw [hne j hji] at hj
      exact h.held j id' hj
  · intro j k id' hj hk
    by_cases hji : j = i
    · by_cases hki : k = i
      · rw [hji, hki]
      · rw [hji, hown] at hj
        rw [hne k hki] at hk
        exact absurd (hk.trans hj.symm) (hothers k)
    · rw [hne j hji] at hj
      by_cases hki : k = i
      · rw [hki, hown] at hk
        exact absurd (hj.trans hk.symm) (hothers j)
      · rw [hne k hki] at hk
        exact h.heldApart j k id' hj hk
  · exact fun j phone sentAt hj => h.pending j phone sentAt (hpending j ▸ hj)
  · exact fun j k phone sentAt sentAt' hj hk =>
      h.pendingApart j k phone sentAt sentAt' (hpending j ▸ hj) (hpending k ▸ hk)

/-- A session is issued for a challenge that is its process's own. -/
theorem OtpInv.session (h : OtpInv T N) {x : FourSession}
    (hown : (N i).holds = some x.challengeId) :
    OtpInv { T with sessions := x :: T.sessions }
      (Function.update N i { N i with holds := none }) := by
  set N' := Function.update N i { N i with holds := none }
  have hself : N' i = { N i with holds := none } := Function.update_self ..
  have hne : ∀ j, j ≠ i → N' j = N j := fun j hj => Function.update_of_ne hj ..
  have hpending : ∀ j, (N' j).pending = (N j).pending := by
    intro j
    by_cases hj : j = i
    · rw [hj, hself]
    · rw [hne j hj]
  have hholds : ∀ j id, (N' j).holds = some id → j ≠ i ∧ (N j).holds = some id := by
    intro j id hj
    by_cases hji : j = i
    · rw [hji, hself] at hj
      cases hj
    · exact ⟨hji, hne j hji ▸ hj⟩
  obtain ⟨hspent, hfresh⟩ := h.held i _ hown
  refine { h with
    issued := ?_
    once := ?_
    held := ?_
    heldApart := ?_
    pending := ?_
    pendingApart := ?_ }
  · intro y hy
    rcases List.mem_cons.mp hy with rfl | hy
    · exact hspent
    · exact h.issued y hy
  · refine List.nodup_cons.mpr ⟨fun hmem => ?_, h.once⟩
    obtain ⟨y, hy, hid⟩ := List.mem_map.mp hmem
    exact hfresh y hy hid
  · intro j id hj
    obtain ⟨hji, hj⟩ := hholds j id hj
    refine ⟨(h.held j id hj).1, fun y hy => ?_⟩
    rcases List.mem_cons.mp hy with rfl | hy
    · rintro rfl
      exact hji (h.heldApart j i _ hj hown)
    · exact (h.held j id hj).2 y hy
  · exact fun j k id hj hk => h.heldApart j k id (hholds j id hj).2 (hholds k id hk).2
  · exact fun j phone sentAt hj => h.pending j phone sentAt (hpending j ▸ hj)
  · exact fun j k phone sentAt sentAt' hj hk =>
      h.pendingApart j k phone sentAt sentAt' (hpending j ▸ hj) (hpending k ▸ hk)

/-- A code is checked against a challenge. -/
theorem OtpInv.check (h : OtpInv T N) (hc : c ∈ T.challenges)
    (hleft : T.checks.count c.id < c.maxAttempts) :
    OtpInv { T with checks := c.id :: T.checks } N := by
  refine { h with
    checked := fun id hid => ?_
    counts := fun d hd => ?_ }
  · rcases List.mem_cons.mp hid with rfl | hid
    · exact h.lower c hc
    · exact h.checked id hid
  · rw [List.count_cons]
    split_ifs with hcd
    · obtain rfl : c = d := List.inj_on_of_nodup_map h.ids hc hd (by simpa using hcd)
      exact hleft
    · exact h.counts d hd

theorem Recorded.length_eq (h : Recorded sends cs) : sends.length = cs.length :=
  List.Forall₂.length_eq h

theorem Pending.length_eq {sentAt : ℕ} (h : Pending sentAt sends cs) :
    sends.length = cs.length + 1 := by
  obtain ⟨rest, rfl, hrest⟩ := h
  rw [List.length_cons, hrest.length_eq]

/-- The codes of a number, once one is sent. -/
theorem sends_cons (T : Otp) (phone phone' : String) (now : ℕ) :
    ({ T with sent := ⟨phone', now⟩ :: T.sent } : Otp).sends phone =
      if phone' = phone then now :: T.sends phone else T.sends phone := by
  unfold Otp.sends
  rw [List.filter_cons]
  split_ifs with h h' h'
  · rfl
  · exact absurd (by simpa using h) h'
  · exact absurd (by simpa using h') h
  · rfl

/-- A code is sent. -/
theorem OtpInv.send (h : OtpInv T N)
    (hrec : Recorded (T.sends phone) (T.challengesOf phone))
    (hgap : ∀ sentAt ∈ T.sends phone, sentAt + 60 * second ≤ now)
    (hwindow : ∀ start, ((now :: T.sends phone).filter fun sentAt =>
      start ≤ sentAt ∧ sentAt < start + Four.window).length ≤ 3) :
    OtpInv { T with sent := ⟨phone, now⟩ :: T.sent }
      (Function.update N i { N i with pending := some (phone, now) }) := by
  set N' := Function.update N i { N i with pending := some (phone, now) }
  have hself : N' i = { N i with pending := some (phone, now) } := Function.update_self ..
  have hne : ∀ j, j ≠ i → N' j = N j := fun j hj => Function.update_of_ne hj ..
  have hholds : ∀ j, (N' j).holds = (N j).holds := by
    intro j
    by_cases hj : j = i
    · rw [hj, hself]
    · rw [hne j hj]
  -- nobody else has a code of this number pending
  have hnone : ∀ j sentAt, (N j).pending ≠ some (phone, sentAt) := by
    intro j sentAt hj
    have hpend := (h.pending j phone sentAt hj).length_eq
    rw [hrec.length_eq] at hpend
    omega
  have hpending : ∀ j phone' sentAt, (N' j).pending = some (phone', sentAt) →
      (j = i ∧ phone' = phone ∧ sentAt = now) ∨
        (j ≠ i ∧ phone ≠ phone' ∧ (N j).pending = some (phone', sentAt)) := by
    intro j phone' sentAt hj
    by_cases hji : j = i
    · rw [hji, hself] at hj
      obtain ⟨rfl, rfl⟩ := Prod.mk.inj (Option.some.inj hj)
      exact .inl ⟨hji, rfl, rfl⟩
    · rw [hne j hji] at hj
      refine .inr ⟨hji, ?_, hj⟩
      rintro rfl
      exact hnone j sentAt hj
  refine { h with
    held := fun j id hj => h.held j id (hholds j ▸ hj)
    heldApart := fun j k id hj hk => h.heldApart j k id (hholds j ▸ hj) (hholds k ▸ hk)
    aligned := fun phone' => ?_
    pending := fun j phone' sentAt hj => ?_
    pendingApart := fun j k phone' sentAt sentAt' hj hk => ?_
    window := fun phone' start => ?_
    gaps := fun phone' => ?_ }
  · rw [sends_cons]
    split_ifs with hphone
    · subst hphone
      exact .inr ⟨now, _, rfl, hrec⟩
    · exact h.aligned phone'
  · rw [sends_cons]
    rcases hpending j phone' sentAt hj with ⟨-, rfl, rfl⟩ | ⟨-, hphone, hj⟩
    · rw [if_pos rfl]
      exact ⟨_, rfl, hrec⟩
    · rw [if_neg hphone]
      exact h.pending j phone' sentAt hj
  · rcases hpending j phone' sentAt hj with ⟨rfl, rfl, -⟩ | ⟨-, hphone, hj⟩
    · rcases hpending k _ sentAt' hk with ⟨rfl, -, -⟩ | ⟨-, hphone, -⟩
      · rfl
      · exact absurd rfl hphone
    · rcases hpending k phone' sentAt' hk with ⟨-, rfl, -⟩ | ⟨-, -, hk⟩
      · exact absurd rfl hphone
      · exact h.pendingApart j k phone' sentAt sentAt' hj hk
  · rw [sends_cons]
    split_ifs with hphone
    · subst hphone
      exact hwindow start
    · exact h.window phone' start
  · rw [sends_cons]
    split_ifs with hphone
    · subst hphone
      exact List.pairwise_cons.mpr ⟨hgap, h.gaps phone⟩
    · exact h.gaps phone'

/-- The challenges of a number, once one is inserted. -/
theorem challengesOf_cons (T : Otp) (phone phone' : String) (now : ℕ) :
    ({ T with challenges := T.newChallenge phone' .login now :: T.challenges } : Otp).challengesOf
        phone =
      if phone' = phone then T.newChallenge phone' .login now :: T.challengesOf phone
      else T.challengesOf phone := by
  unfold Otp.challengesOf
  rw [List.filter_cons]
  have hfor : Otp.isFor phone .login (T.newChallenge phone' .login now) = decide (phone' = phone) :=
    Bool.and_true _
  rw [hfor]
  split_ifs with h h' h'
  · rfl
  · exact absurd (by simpa using h) h'
  · exact absurd (by simpa using h') h
  · rfl

theorem Otp.Later.insert (T : Otp) (phone : String) (now : ℕ) :
    T.Later { T with challenges := T.newChallenge phone .login now :: T.challenges } := by
  intro phone'
  refine List.sublistForall₂_iff.mpr ⟨_, List.forall₂_refl _, ?_⟩
  rw [challengesOf_cons]
  split_ifs
  · exact List.sublist_cons_self ..
  · exact List.Sublist.refl _

/-- The challenge of a code is created, the others of its number being consumed. -/
theorem OtpInv.insert (h : OtpInv T N) {sentAt : ℕ}
    (hown : (N i).pending = some (phone, sentAt)) (hle : sentAt ≤ now)
    (hconsumed : ∀ c ∈ T.challengesOf phone, c.consumedAt ≠ none) :
    OtpInv { T with challenges := T.newChallenge phone .login now :: T.challenges }
      (Function.update N i { N i with pending := none }) := by
  set N' := Function.update N i { N i with pending := none }
  have hself : N' i = { N i with pending := none } := Function.update_self ..
  have hne : ∀ j, j ≠ i → N' j = N j := fun j hj => Function.update_of_ne hj ..
  have hholds : ∀ j, (N' j).holds = (N j).holds := by
    intro j
    by_cases hj : j = i
    · rw [hj, hself]
    · rw [hne j hj]
  have hpending : ∀ j phone' sentAt, (N' j).pending = some (phone', sentAt) →
      phone ≠ phone' ∧ (N j).pending = some (phone', sentAt) := by
    intro j phone' sentAt' hj
    by_cases hji : j = i
    · rw [hji, hself] at hj
      cases hj
    · rw [hne j hji] at hj
      refine ⟨?_, hj⟩
      rintro rfl
      exact hji (h.pendingApart j i phone _ _ hj hown)
  have hspent : ∀ {id}, T.Spent id → ({ T with
      challenges := T.newChallenge phone .login now :: T.challenges } : Otp).Spent id := by
    rintro id ⟨c, hc, hid, hcons⟩
    exact ⟨c, List.mem_cons_of_mem _ hc, hid, hcons⟩
  refine { h with
    lower := fun c hc => ?_
    ids := ?_
    login := fun c hc => ?_
    newest := fun c hc hnone => ?_
    checked := fun id hid => (h.checked id hid).trans (Nat.lt_succ_self _)
    counts := fun c hc => ?_
    issued := fun x hx => hspent (h.issued x hx)
    held := fun j id hj => ?_
    heldApart := fun j k id hj hk => h.heldApart j k id (hholds j ▸ hj) (hholds k ▸ hk)
    aligned := fun phone' => ?_
    pending := fun j phone' sentAt' hj => ?_
    pendingApart := fun j k phone' _ _ hj hk =>
      h.pendingApart j k phone' _ _ (hpending j _ _ hj).2 (hpending k _ _ hk).2 }
  · rcases List.mem_cons.mp hc with rfl | hc
    · exact Nat.lt_succ_self _
    · exact (h.lower c hc).trans (Nat.lt_succ_self _)
  · refine List.nodup_cons.mpr ⟨fun hmem => ?_, h.ids⟩
    obtain ⟨c, hc, hid⟩ := List.mem_map.mp hmem
    exact (h.lower c hc).ne hid
  · rcases List.mem_cons.mp hc with rfl | hc
    · rfl
    · exact h.login c hc
  · rcases List.mem_cons.mp hc with rfl | hmem
    · have hhead : ({ T with challenges := T.newChallenge phone .login now :: T.challenges } :
          Otp).challengesOf phone = _ := challengesOf_cons T phone phone now
      rw [if_pos rfl] at hhead
      exact congrArg List.head? hhead
    · have hother : phone ≠ c.phoneE164 := by
        intro hphone
        refine hconsumed c (List.mem_filter.mpr ⟨hmem, ?_⟩) hnone
        simp [Otp.isFor, hphone, h.login c hmem]
      rw [challengesOf_cons, if_neg hother]
      exact h.newest c hmem hnone
  · rcases List.mem_cons.mp hc with rfl | hc
    · have hnone : T.checks.count T.challenges.length = 0 :=
        List.count_eq_zero_of_not_mem fun hid => (h.checked _ hid).ne rfl
      exact hnone.le.trans (Nat.zero_le _)
    · exact h.counts c hc
  · obtain ⟨hsp, hfresh⟩ := h.held j id (hholds j ▸ hj)
    exact ⟨hspent hsp, hfresh⟩
  · rw [challengesOf_cons]
    split_ifs with hphone
    · subst hphone
      obtain ⟨rest, hrest, hrec⟩ := h.pending i phone sentAt hown
      refine .inl ?_
      show Recorded (T.sends phone) _
      rw [hrest]
      exact .cons hle hrec
    · exact h.aligned phone'
  · obtain ⟨hphone, hj⟩ := hpending j phone' sentAt' hj
    rw [challengesOf_cons, if_neg hphone]
    exact h.pending j phone' sentAt' hj

/-! ### Rules -/

/-- What a call does under the discipline. -/
abbrev Codes (i : ℕ) {β : Type} (P : Watched → Prop) (call : AuthCall β)
    (Q : β → Watched → Prop) : Prop :=
  Triple watchedAuth otpDiscipline i P call Q fun _ _ => True

/-- What a process has noted, once a statement is answered. -/
def notedBy {β : Type} (i : ℕ) (st : OtpSql β) (b : β) (T : Otp) (now : ℕ) (N : ℕ → Seen) :
    ℕ → Seen :=
  Function.update N i (st.seen b T now (N i))

/-- What a statement has to keep. -/
structure Keeps {β : Type} (i : ℕ) (st : OtpSql β) (b : β) (now : ℕ) (T : Otp) (N : ℕ → Seen)
    (T' : Otp) : Prop where
  inv : OtpInv T' (notedBy i st b T now N)
  later : T.Later T'
  pending : ∀ j, j ≠ i → ∀ phone sentAt, (N j).pending = some (phone, sentAt) →
    (T'.challengesOf phone).length = (T.challengesOf phone).length
  live : st.UsesLive b T now

theorem OtpSql.act_directory {β : Type} (st : OtpSql β) (o : OtpOutside) (s : Store) :
    (st.act o s).2.1 = s.1 := by
  cases st with
  | incrementAttempts id =>
      unfold OtpSql.act
      dsimp only
      split <;> rfl
  | _ => rfl

/-- The rule of a statement of the service. -/
theorem triple_code {β : Type} {st : OtpSql (Ans β)} {P : Watched → Prop}
    {Q : β → Watched → Prop} (hst : ∀ e, st.fail e = .error e) (hP : Stays i P)
    (hstep : ∀ (D : Directory) T N o, P ((D, T), N) → OtpInv T N →
      st.Careful T D.time (N i) →
        Keeps i st (st.act o (D, T)).1 D.time T N (st.act o (D, T)).2.2 ∧
          ∀ b, (st.act o (D, T)).1 = .ok b →
            Q b ((D, (st.act o (D, T)).2.2), notedBy i st (.ok b) T D.time N)) :
    Codes i P (otpSql st) Q := by
  refine Triple.perform hP fun s hs hinv o hc r t he => ?_
  obtain ⟨hnote, ⟨e, rfl, rfl, ht⟩ | ⟨o, rfl, rfl, ht⟩⟩ := Backend.noted_cases he
  · have hsame : t = s := Prod.ext ht (hnote.trans (Function.update_eq_self _ _))
    subst hsame
    rw [show auth.fail (.own st) e = .error e from hst e]
    exact ⟨trivial, hinv, fun j _ => .refl j t, trivial⟩
  · set D := s.1.1.tick o.identity.elapsed
    have hticked : Counts i s ((D, s.1.2), s.2) :=
      ⟨rfl, Nat.le_add_right _ _, .refl _, fun _ _ _ => rfl⟩
    obtain ⟨hkeeps, hans⟩ := hstep D s.1.2 s.2 o (hP _ _ hs hticked) hinv hc
    have hrun : t.1 = (st.act o (D, s.1.2)).2 := ht
    have hdir : t.1.1 = D := by rw [hrun, OtpSql.act_directory]
    have htables : t.1.2 = (st.act o (D, s.1.2)).2.2 := by rw [hrun]
    have hnotes : t.2 = notedBy i st (st.act o (D, s.1.2)).1 s.1.2 D.time s.2 := by
      rw [hnote]
      show Function.update s.2 i (st.seen (st.act o (D, s.1.2)).1 s.1.2 t.1.1.time (s.2 i)) = _
      rw [hdir]
      rfl
    have hfull : t = ((D, (st.act o (D, s.1.2)).2.2),
        notedBy i st (st.act o (D, s.1.2)).1 s.1.2 D.time s.2) :=
      Prod.ext (Prod.ext hdir htables) hnotes
    subst hfull
    refine ⟨hkeeps.live, hkeeps.inv, fun j hj => ?_, ?_⟩
    · exact ⟨Function.update_of_ne hj .., Nat.le_add_right _ _, hkeeps.later,
        hkeeps.pending j hj⟩
    · cases hb : (auth.run i (.own st) o s.1).1 with
      | error e => trivial
      | ok b =>
          have hb' : (st.act o (D, s.1.2)).1 = .ok b := hb
          rw [hb']
          exact hans b hb'

/-- A statement that leaves the tables, and of which at most what was read is noted. -/
theorem Keeps.read {β : Type} {st : OtpSql β} {b : β} (h : OtpInv T N)
    (hpending : (st.seen b T now (N i)).pending = (N i).pending)
    (hholds : (st.seen b T now (N i)).holds = (N i).holds) (hlive : st.UsesLive b T now) :
    Keeps i st b now T N T := by
  have hnoted : ∀ {γ : Type} (f : Seen → γ), f (st.seen b T now (N i)) = f (N i) →
      ∀ j, f (notedBy i st b T now N j) = f (N j) := by
    intro γ f hf j
    unfold notedBy
    by_cases hj : j = i
    · rw [hj, Function.update_self, hf]
    · rw [Function.update_of_ne hj]
  exact ⟨h.notes (hnoted Seen.pending hpending) (hnoted Seen.holds hholds), .refl T,
    fun _ _ _ _ _ => rfl, hlive⟩

/-- A statement that changes challenges, each into a later version, and of which nothing is
noted. -/
theorem Keeps.map {β : Type} {st : OtpSql β} {b : β} (h : OtpInv T N)
    {f : Challenge → Challenge} (hf : ∀ c : Challenge, c.Continues (f c))
    (hseen : st.seen b T now (N i) = N i) (hlive : st.UsesLive b T now) :
    Keeps i st b now T N { T with challenges := T.challenges.map f } := by
  refine ⟨?_, .of_map hf rfl, fun _ _ phone _ _ => ?_, hlive⟩
  · unfold notedBy
    rw [hseen, Function.update_eq_self]
    exact h.mapped hf
  · rw [challengesOf_map hf rfl, List.length_map]

theorem continues_consumeOne (now : ℕ) (c : Challenge) : c.Continues (Otp.consumeOne now c) := by
  unfold Otp.consumeOne
  split_ifs with h
  · exact ⟨rfl, rfl, rfl, rfl, rfl, rfl, fun _ => by simpa using h⟩
  · exact .refl c

theorem continues_attempt (c : Challenge) : c.Continues (Otp.attempt c) :=
  ⟨rfl, rfl, rfl, rfl, rfl, rfl, fun h => h⟩

theorem continues_ite {p : Challenge → Prop} [DecidablePred p] {f : Challenge → Challenge}
    (hf : ∀ c : Challenge, c.Continues (f c)) (c : Challenge) :
    c.Continues (if p c then f c else c) := by
  split_ifs
  · exact hf c
  · exact .refl c

/-! ### Codes are sent -/

/-- What is known of a number whose allowance was read: some earlier tables, with as many
challenges of it as were noted, permitted a code. -/
def Allowed (phone : String) (i : ℕ) (s : Watched) : Prop :=
  ∃ (T₀ : Otp) (readAt : ℕ), T₀.Later s.1.2 ∧ readAt ≤ s.1.1.time ∧
    (T₀.challengesOf phone).length = (s.2 i).codes ∧
      (T₀.sendCounts phone .login readAt).retryAfterSeconds = none

theorem stays_allowed : Stays i (Allowed phone i) := by
  rintro s t ⟨T₀, readAt, hlater, hread, hlen, hnone⟩ h
  exact ⟨T₀, readAt, hlater.trans h.later, hread.trans h.time, h.own ▸ hlen, hnone⟩

/-- What is known of a number that a code was sent to. -/
def CodeSent (phone : String) (i : ℕ) (s : Watched) : Prop :=
  ∃ sentAt, (s.2 i).pending = some (phone, sentAt) ∧ sentAt ≤ s.1.1.time

theorem stays_codeSent : Stays i (CodeSent phone i) := by
  rintro s t ⟨sentAt, hp, hle⟩ h
  exact ⟨sentAt, h.own ▸ hp, hle.trans h.time⟩

/-- What is known once the challenges of a number are retired. -/
def Retired (phone : String) (i : ℕ) (r : ℕ × List ℕ) (s : Watched) : Prop :=
  ∃ sentAt, (s.2 i).pending = some (phone, sentAt) ∧ sentAt ≤ r.1 ∧
    ∀ c ∈ s.1.2.challengesOf phone, c.consumedAt = none → c.id ∈ r.2

/-- The challenges that are left are later versions of the ones there were. -/
theorem exists_of_forall₂ (h : List.Forall₂ Challenge.Continues cs ds) (hd : d ∈ ds) :
    ∃ c ∈ cs, c.Continues d := by
  induction h with
  | nil => cases hd
  | cons hcd _ ih =>
      rcases List.mem_cons.mp hd with rfl | hd
      · exact ⟨_, List.mem_cons_self, hcd⟩
      · obtain ⟨c, hc, hcd⟩ := ih hd
        exact ⟨c, List.mem_cons_of_mem _ hc, hcd⟩

theorem stays_retired (r : ℕ × List ℕ) : Stays i (Retired phone i r) := by
  rintro s t ⟨sentAt, hp, hle, hall⟩ h
  refine ⟨sentAt, h.own ▸ hp, hle, fun d hd hnone => ?_⟩
  obtain ⟨c, hc, hcd⟩ := exists_of_forall₂ (h.later.same (h.pending phone sentAt hp)) hd
  rw [hcd.id]
  exact hall c hc (hcd.consumed hnone)

theorem created_eq (h : List.Forall₂ Challenge.Continues cs ds) :
    ds.map (·.createdAt) = cs.map (·.createdAt) := by
  induction h with
  | nil => rfl
  | cons hcd _ ih => rw [List.map_cons, List.map_cons, ih, hcd.created]

/-- The allowance of a number is read. -/
theorem codes_allowance (phone : String) :
    Codes i (fun _ => True) (checkSendAllowance phone .login)
      fun r s => r = none → Allowed phone i s := by
  refine Triple.bind (triple_code (Q := fun counts s => counts.retryAfterSeconds = none →
    Allowed phone i s) (fun _ => rfl) stays_true fun D T N o _ h _ => ?_) fun counts =>
      Triple.pure fun s hs => hs
  refine ⟨.read h rfl rfl trivial, fun b hb hnone => ?_⟩
  obtain rfl : T.sendCounts phone .login D.time = b := Except.ok.inj hb
  refine ⟨T, D.time, .refl T, le_rfl, ?_, hnone⟩
  show _ = (notedBy i _ _ T D.time N i).codes
  unfold notedBy
  rw [Function.update_self]
  rfl

/-- The code is sent. -/
theorem codes_send (phone : String) :
    Codes i (Allowed phone i) (sendCode phone) fun _ => CodeSent phone i := by
  refine Triple.tryCatch (F := fun _ _ => True) (triple_code (fun _ => rfl) stays_allowed
    fun D T N o hs h hc => ?_) fun _ => Triple.throw fun _ _ => trivial
  obtain ⟨T₀, readAt, hlater, hread, hlen, hnone⟩ := hs
  have hcount : (T.sends phone).length = (N i).codes := hc
  have hrec : Recorded (T.sends phone) (T.challengesOf phone) := by
    rcases h.aligned phone with hrec | ⟨sentAt, hpend⟩
    · exact hrec
    · have hle : (T₀.challengesOf phone).length ≤ (T.challengesOf phone).length :=
        hlater.length_le phone
      have hmore := hpend.length_eq
      have hseen : (T₀.challengesOf phone).length = (N i).codes := hlen
      omega
  -- no challenge has come since the allowance was read
  have hsame : List.Forall₂ Challenge.Continues (T₀.challengesOf phone) (T.challengesOf phone) :=
    hlater.same (by rw [← hrec.length_eq, hcount, hlen])
  have hread' : (T.sendCounts phone .login readAt).retryAfterSeconds = none := by
    rw [← hnone]
    congr 1
    unfold Otp.sendCounts
    have hcreated : (T.challengesOf phone).map (·.createdAt) =
        (T₀.challengesOf phone).map (·.createdAt) := created_eq hsame
    unfold Otp.challengesOf at hcreated
    rw [hcreated]
  refine ⟨⟨?_, .refl T, fun _ _ _ _ _ => rfl, trivial⟩, fun b _ => ⟨D.time, ?_, le_rfl⟩⟩
  · refine h.send hrec (fun sentAt hs => (gap_of_allowed hrec hread' hs).trans hread)
      fun start => window_of_allowed hrec hread' hread (h.window phone start)
  · show (notedBy i _ _ T D.time N i).pending = _
    unfold notedBy
    rw [Function.update_self]
    rfl

/-- The challenges that a number has are retired. -/
theorem codes_retire (phone : String) :
    Codes i (CodeSent phone i) (otpSql (.retire phone .login)) (Retired phone i) := by
  refine triple_code (fun _ => rfl) stays_codeSent fun D T N o hs h _ => ?_
  obtain ⟨sentAt, hp, hle⟩ := hs
  refine ⟨.read h rfl rfl trivial, fun b hb => ⟨sentAt, ?_, ?_, fun c hc hnone => ?_⟩⟩
  · show (notedBy i _ _ T D.time N i).pending = _
    unfold notedBy
    rw [Function.update_self]
    exact hp
  · obtain rfl := Except.ok.inj hb
    exact hle
  · obtain rfl := Except.ok.inj hb
    obtain ⟨hmem, hfor⟩ := List.mem_filter.mp hc
    refine List.mem_map_of_mem (List.mem_filter.mpr ⟨hmem, ?_⟩)
    rw [hfor, hnone]
    rfl

/-- The commit of a challenge, as two changes of the tables. -/
theorem create_eq (T : Otp) (phone : String) (now : ℕ) (retired : List ℕ) :
    T.create phone .login now retired =
      let T' : Otp := { T with challenges := T.challenges.map fun c =>
        if c.id ∈ retired then Otp.consumeOne now c else c }
      { T' with challenges := T'.newChallenge phone .login now :: T'.challenges } := by
  simp [Otp.create, Otp.newChallenge]

/-- The challenge of a code is created. -/
theorem codes_create (phone : String) (r : ℕ × List ℕ) :
    Codes i (Retired phone i r) (otpSql (.create phone .login r.1 r.2)) fun _ _ => True := by
  refine triple_code (fun _ => rfl) (stays_retired r) fun D T N o hs h _ =>
    ⟨?_, fun _ _ => trivial⟩
  obtain ⟨sentAt, hp, hle, hall⟩ := hs
  have hf : ∀ c : Challenge, c.Continues (if c.id ∈ r.2 then Otp.consumeOne r.1 c else c) :=
    continues_ite (continues_consumeOne r.1)
  set T' : Otp := { T with challenges := T.challenges.map fun c =>
    if c.id ∈ r.2 then Otp.consumeOne r.1 c else c }
  have hcreate : T.create phone .login r.1 r.2 =
      { T' with challenges := T'.newChallenge phone .login r.1 :: T'.challenges } :=
    create_eq T phone r.1 r.2
  have hof : ∀ phone, T'.challengesOf phone = (T.challengesOf phone).map fun c =>
      if c.id ∈ r.2 then Otp.consumeOne r.1 c else c := challengesOf_map hf rfl
  have hconsumed : ∀ d ∈ T'.challengesOf phone, d.consumedAt ≠ none := by
    intro d hd hnone
    rw [hof] at hd
    obtain ⟨c, hc, rfl⟩ := List.mem_map.mp hd
    have hid := hall c hc ((hf c).consumed hnone)
    rw [if_pos hid] at hnone
    unfold Otp.consumeOne at hnone
    split_ifs at hnone with hc'
    simp [hnone] at hc'
  show Keeps i (.create phone .login r.1 r.2) (.ok ()) D.time T N (T.create phone .login r.1 r.2)
  rw [hcreate]
  have hlater : T.Later T' := Otp.Later.of_map hf rfl
  refine ⟨(h.mapped hf).insert hp hle hconsumed, hlater.trans (.insert T' phone r.1),
    fun j hj phone' sentAt' hj' => ?_, trivial⟩
  have hne : phone ≠ phone' := by
    rintro rfl
    exact hj (h.pendingApart j i phone _ _ hj' hp)
  rw [challengesOf_cons, if_neg hne, hof, List.length_map]

/-- A request for a code. -/
theorem codes_requestOtp (phone : String) :
    Codes i (fun _ => True) (requestOtp phone) fun _ _ => True := by
  unfold requestOtp
  have hvalid : Codes i (fun _ => True) (requireValidPhone phone) fun _ _ => True := by
    unfold requireValidPhone
    split
    · exact Triple.pure fun _ _ => trivial
    · exact Triple.throw fun _ _ => trivial
  refine Triple.bind hvalid fun phoneE164 => ?_
  refine Triple.bind (codes_allowance phoneE164) fun retry => ?_
  cases retry with
  | some seconds => exact Triple.throw fun _ _ => trivial
  | none =>
      refine Triple.bind ((codes_send phoneE164).mono (fun s hs => hs rfl) (fun _ _ h => h)
        fun _ _ h => h) fun _ => ?_
      refine Triple.bind (Triple.bind (codes_retire phoneE164) fun r => codes_create phoneE164 r)
        fun _ => Triple.pure fun _ _ => trivial

/-! ### Codes are checked -/

/-- What a process knows of the challenge it has found. -/
def FoundAt (c : Challenge) (i : ℕ) (s : Watched) : Prop :=
  (s.2 i).found = some c ∧ c.consumedAt = none

theorem stays_foundAt : Stays i (FoundAt c i) := fun _ _ hs h => ⟨h.own ▸ hs.1, hs.2⟩

/-- A process has a session to issue. -/
def Holds (id : ℕ) (i : ℕ) (s : Watched) : Prop := (s.2 i).holds = some id

theorem stays_holds : Stays i (Holds id i) := fun s t hs h => by
  unfold Holds
  rw [h.own]
  exact hs

/-- The live challenge of a number is found. -/
theorem codes_find (phone : String) :
    Codes i (fun _ => True) (findActiveChallenge phone .login)
      fun found s => ∀ c ∈ found, FoundAt c i s := by
  refine triple_code (fun _ => rfl) stays_true fun D T N o _ h _ =>
    ⟨.read h rfl rfl trivial, fun b hb c hc => ⟨?_, ?_⟩⟩
  · show (notedBy i _ _ T D.time N i).found = _
    unfold notedBy
    rw [Function.update_self]
    exact hc
  · obtain rfl : T.findActive phone .login D.time = b := Except.ok.inj hb
    have hmem := (List.mem_filter.mp (List.maxOn?_mem hc)).2
    simp only [Bool.and_eq_true, Option.isNone_iff_eq_none] at hmem
    exact hmem.1.2

/-- A code is checked against the challenge found. -/
theorem codes_check (phone code : String) (hleft : c.attempts < c.maxAttempts) :
    Codes i (FoundAt c i) (otpSql (.providerCheck c.id phone code)) fun _ _ => True := by
  refine triple_code (fun _ => rfl) stays_foundAt fun D T N o hs h hc =>
    ⟨?_, fun _ _ => trivial⟩
  obtain ⟨hfound, hnone⟩ := hs
  obtain ⟨hmem, hexpires, hrecorded⟩ := hc c hfound
  refine ⟨?_, .refl T, fun _ _ _ _ _ => rfl, c, hmem, rfl, hnone, hexpires,
    h.newest c hmem hnone⟩
  have hnoted : notedBy i (.providerCheck c.id phone code) (.ok o.approved) T D.time N = N :=
    Function.update_eq_self _ _
  show OtpInv _ (notedBy i (.providerCheck c.id phone code) (.ok o.approved) T D.time N)
  rw [hnoted]
  exact h.check hmem (hrecorded ▸ hleft)

/-- A failed attempt is recorded. -/
theorem codes_failed (id : ℕ) :
    Codes i (fun _ => True) (recordFailedAttempt id) fun _ _ => True := by
  have hburn : Codes i (fun _ => True) (otpSql (.burn id)) fun _ _ => True :=
    triple_code (fun _ => rfl) stays_true fun D T N o _ h _ =>
      ⟨.map h (continues_ite (continues_consumeOne D.time)) rfl trivial, fun _ _ => trivial⟩
  refine Triple.bind (triple_code (Q := fun _ _ => True) (fun _ => rfl) stays_true
    fun D T N o _ h _ => ⟨?_, fun _ _ => trivial⟩) fun row => Triple.ite
      (fun _ => Triple.bind hburn fun _ => Triple.pure fun _ h => h)
      fun _ => Triple.pure fun _ h => h
  unfold OtpSql.act
  dsimp only
  split
  · exact .map h (continues_ite continues_attempt) rfl trivial
  · exact .read h rfl rfl trivial

/-- A challenge is consumed. -/
theorem codes_consume (id : ℕ) :
    Codes i (fun _ => True) (consumeChallenge id) fun r s => r = true → Holds id i s := by
  refine triple_code (fun _ => rfl) stays_true fun D T N o _ h hc => ?_
  have hf : ∀ c : Challenge, c.Continues (if c.id = id then Otp.consumeOne D.time c else c) :=
    continues_ite (continues_consumeOne D.time)
  have hact : (OtpSql.consume id).act o (D, T) =
      (.ok (T.challenges.any fun c => c.id = id && c.consumedAt.isNone), D,
        T.update id (Otp.consumeOne D.time)) := rfl
  rw [hact]
  cases hany : T.challenges.any fun c => c.id = id && c.consumedAt.isNone with
  | false =>
      refine ⟨.map h hf rfl trivial, fun b hb htrue => ?_⟩
      rw [htrue] at hb
      cases hb
  | true =>
      obtain ⟨c, hmem, hcond⟩ := List.any_eq_true.mp hany
      simp only [Bool.and_eq_true, decide_eq_true_eq, Option.isNone_iff_eq_none] at hcond
      obtain ⟨hid, hnone⟩ := hcond
      -- a consumed challenge of this identifier would be this one
      have hfresh : ¬ T.Spent id := by
        rintro ⟨d, hd, hdid, hspent⟩
        obtain rfl : d = c := List.inj_on_of_nodup_map h.ids hd hmem (hdid.trans hid.symm)
        exact hspent hnone
      have hspent : ({ T with challenges := T.challenges.map fun c =>
          if c.id = id then Otp.consumeOne D.time c else c } : Otp).Spent id := by
        refine ⟨_, List.mem_map_of_mem hmem, (hf c).id.trans hid, ?_⟩
        rw [if_pos hid]
        unfold Otp.consumeOne
        rw [if_pos (by simp [hnone])]
        simp
      refine ⟨⟨?_, .of_map hf rfl, fun _ _ phone _ _ => ?_, c, hmem, hid, hnone, hc c hmem hid,
        h.newest c hmem hnone⟩, fun b _ _ => ?_⟩
      · refine (h.mapped hf).hold hspent (fun x hx hxid => hfresh (hxid ▸ h.issued x hx))
          fun j hj => hfresh (h.held j id hj).1
      · rw [challengesOf_map hf (T := T) rfl, List.length_map]
      · obtain rfl : true = b := Except.ok.inj ‹_›
        show (notedBy i (.consume id) (.ok true) T D.time N i).holds = some id
        unfold notedBy
        rw [Function.update_self]
        rfl

theorem IdentitySql.run_time {β : Type} (st : IdentitySql β) (o : Outside) (D : Directory) :
    (st.run o D).2.time = D.time + o.elapsed := by
  cases st <;> rfl

/-- What the identity service does leaves the codes as they are. -/
theorem codes_identity {β : Type} {P : Watched → Prop} (hP : Stays i P) (p : IdentityCall β) :
    Codes i P (identity p) fun _ => P := by
  refine Triple.mono (Triple.of_only (P := P) (φ := fun st => ∃ st', st = .inner st')
    (onlyE_embedCall_any fun st => ⟨st, rfl⟩) fun st hst s hs t hr hinv o hc b u he => ?_)
    (fun _ h => h) (fun _ _ h => h) fun _ _ _ => trivial
  obtain ⟨st, rfl⟩ := hst
  obtain ⟨hnote, hcases⟩ := Backend.noted_cases he
  have hnotes : u.2 = t.2 := hnote.trans (Function.update_eq_self _ _)
  have hcounts : ∀ j, Counts j t u := by
    intro j
    rcases hcases with ⟨e, rfl, rfl, hu⟩ | ⟨o, rfl, rfl, hu⟩
    · have hsame : u = t := Prod.ext hu hnotes
      rw [hsame]
      exact .refl j t
    · refine ⟨congrFun hnotes j, ?_, ?_, fun phone _ _ => ?_⟩
      · rw [hu]
        exact (Nat.le_add_right _ _).trans (st.run_time o.identity t.1.1).ge
      · rw [hu]
        exact .refl _
      · rw [hu]
        rfl
  have htables : u.1.2 = t.1.2 := by
    rcases hcases with ⟨e, -, -, hu⟩ | ⟨o, -, -, hu⟩
    · rw [hu]
    · rw [hu]
      rfl
  have hinv' : OtpInv u.1.2 u.2 := by
    rw [htables, hnotes]
    exact hinv
  exact ⟨trivial, hinv', fun j _ => hcounts j, hP _ _ (hP _ _ hs hr) (hcounts i)⟩

/-- The session of a consumed challenge is issued. -/
theorem codes_session (userId : String) (id : ℕ) :
    Codes i (Holds id i) (otpSql (.insertSession userId id)) fun _ _ => True :=
  triple_code (fun _ => rfl) stays_holds fun _ T _ _ hs h _ =>
    ⟨⟨h.session hs, .refl T, fun _ _ _ _ _ => rfl, trivial⟩, fun _ _ => trivial⟩

/-- A code that is verified. -/
theorem codes_verifyOtp (phone code : String) :
    Codes i (fun _ => True) (verifyOtp phone code) fun _ _ => True := by
  unfold verifyOtp
  have hvalid : Codes i (fun _ => True) (requireValidPhone phone) fun _ _ => True := by
    unfold requireValidPhone
    split
    · exact Triple.pure fun _ _ => trivial
    · exact Triple.throw fun _ _ => trivial
  refine Triple.bind hvalid fun phoneE164 => ?_
  refine Triple.ite (fun _ => Triple.throw fun _ _ => trivial) fun _ => ?_
  refine Triple.bind (codes_find phoneE164) fun found => ?_
  cases found with
  | none => exact Triple.throw fun _ _ => trivial
  | some c =>
      refine Triple.ite (fun _ => Triple.throw fun _ _ => trivial) fun hleft => ?_
      refine Triple.bind ((codes_check phoneE164 _ (not_le.mp hleft)).mono (fun s hs => hs c rfl)
        (fun _ _ h => h) fun _ _ h => h) fun approved => ?_
      refine Triple.ite (fun _ => ?_) fun _ => ?_
      · exact Triple.bind (codes_failed c.id) fun exhausted => Triple.throw fun _ _ => trivial
      refine Triple.bind (codes_consume c.id) fun consumed => ?_
      cases consumed with
      | false => exact Triple.throw fun _ _ => trivial
      | true =>
          refine Triple.bind ((codes_identity stays_holds _).mono (fun s hs => hs rfl)
            (fun _ _ h => h) fun _ _ h => h) fun user => ?_
          exact Triple.bind (codes_session _ c.id) fun session => Triple.pure fun _ h => h

/-- A request runs under the discipline. -/
theorem codes_call (r : Request) : Codes i (fun _ => True) r.call fun _ _ => True := by
  cases r with
  | requestOtp phone =>
      exact Triple.bind (codes_requestOtp phone) fun _ => Triple.pure fun _ h => h
  | verifyOtp phone code =>
      exact Triple.bind (codes_verifyOtp phone code) fun _ => Triple.pure fun _ h => h

end codes

/-! ### Every run -/

/-- No code was sent yet. -/
theorem OtpInv.empty : OtpInv {} fun _ => {} where
  lower _ h := (by cases h)
  ids := List.nodup_nil
  login _ h := (by cases h)
  newest _ h := (by cases h)
  checked _ h := (by cases h)
  counts _ h := (by cases h)
  issued _ h := (by cases h)
  once := List.nodup_nil
  held _ _ h := (by cases h)
  heldApart _ _ _ h := (by cases h)
  aligned _ := .inl .nil
  pending _ _ _ h := (by cases h)
  pendingApart _ _ _ _ _ h := (by cases h)
  window _ _ := Nat.zero_le _
  gaps _ := .nil

/-- **Codes are limited** in every run in which nothing has come between what a process reads and
what it does. -/
theorem codes_are_limited (U : Users) (requests : List Request)
    (sched : List (ℕ × Except FourError OtpOutside))
    (hc : Pool.Along watchedAuth (Pool.CondAt CarefulCodes) ((begun U requests).noted {}) sched) :
    CodesLimited U requests sched := by
  have hstart : Pool.Verified watchedAuth otpDiscipline (fun _ _ _ => True)
      ((begun U requests).noted {}) := by
    refine Pool.Verified.start OtpInv.empty fun i p hp => ?_
    obtain ⟨r, -, rfl⟩ := Option.map_eq_some_iff.mp ((List.getElem?_map ..).symm.trans hp)
    exact Prog.wp_mono (fun _ _ _ => trivial) _ _ (codes_call r _ trivial)
  obtain ⟨hend, hgood⟩ := Pool.run_sound hstart sched hc
  have hrun : (((begun U requests).noted ({} : Seen)).run watchedAuth sched).unnoted =
      (begun U requests).run auth.machine sched := Pool.noting_run _ sched
  refine ⟨?_, Pool.along_of_noting (fun P e hP => ?_) hgood⟩
  · rw [← hrun]
    exact hend.1.guarded
  · exact Pool.goodAt_of_noting P e hP

/-! ### Six guesses side by side -/

/-- There are no users. -/
def nobody : Users := ⟨[], by decide⟩

/-- The turns of a request. -/
def turnsOf (i n : ℕ) (o : OtpOutside) : List (ℕ × Except FourError OtpOutside) :=
  List.replicate n (i, .ok o)

/-- The provider does not approve the code. -/
def wrongCode : OtpOutside := { approved := false }

/-- A code is requested, and guessed six times. -/
def sixGuesses : List Request :=
  .requestOtp "08012345678" :: List.replicate 6 (.verifyOtp "08012345678" "000000")

/-- Each guess finds the challenge and checks its code before any is recorded. -/
def sideBySide : List (ℕ × Except FourError OtpOutside) :=
  turnsOf 0 4 {} ++ (List.range 6).flatMap fun k => turnsOf (k + 1) 2 wrongCode

/-- The challenge is checked six times, and may be checked five times. -/
theorem six_guesses_checked : ¬ CodesLimited nobody sixGuesses sideBySide := by
  intro h
  have hchecks : ∃ c ∈ ((begun nobody sixGuesses).run auth.machine sideBySide).store.2.challenges,
      c.maxAttempts <
        ((begun nobody sixGuesses).run auth.machine sideBySide).store.2.checks.count c.id := by
    decide +kernel
  obtain ⟨c, hc, hmore⟩ := hchecks
  exact (h.guarded.checks c hc).not_gt hmore

/-- Guesses one after the other: the challenge is burned after the fifth. -/
theorem codes_are_limited_in_turn :
    CodesLimited nobody sixGuesses
      (turnsOf 0 4 {} ++ (List.range 6).flatMap fun k => turnsOf (k + 1) 4 wrongCode) :=
  codes_are_limited nobody sixGuesses _ (by decide +kernel)

/-- The right code signs in, and a second code may be sent a minute after the first. -/
example :
    Pool.Along watchedAuth (Pool.CondAt CarefulCodes)
      ((begun nobody [.requestOtp "08012345678", .verifyOtp "08012345678" "123456",
        .requestOtp "+2348012345678"]).noted {})
      (turnsOf 0 4 {} ++ turnsOf 1 5 { identity := { newUserId := "DAYFI-1" } } ++
        turnsOf 2 4 { identity := { elapsed := 60 * second } }) := by
  decide +kernel

end DayfiBackend.Four
