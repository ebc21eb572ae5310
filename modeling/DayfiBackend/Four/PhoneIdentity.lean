import DayfiBackend.Four.Identity

/-!
# A sign-in keeps to its own user

`OneIdentity` says what sign-ins by phone leave of the users: no number is carried twice, nobody's
account becomes another's, and a sign-in neither returns nor changes a user who carries another
number. The users found by the free spelling of a number may carry another one; `one_identity` is
the result for the runs in which they do not (`Careful`).
-/

namespace DayfiBackend.Four

open DayfiBackend.Found DayfiBackend.Found.Prog

/-! ### The property -/

/-- A level is not lowered. -/
def NotLowered (a b : String) : Prop := b = a ∨ (a = "level-0" ∧ b = "level-1")

/-- A user is still there: with the same mail address and PIN, at no lower level, and with the
number it carries. -/
structure Remains (u v : User) : Prop where
  userId : v.userId = u.userId
  email : v.email = u.email
  pin : v.transactionPin = u.transactionPin
  level : NotLowered u.level v.level
  number : ∀ number, u.phoneE164 = some number → v.phoneE164 = some number

/-- A user carries no number but the one given. -/
def User.Free (u : User) (phone : String) : Prop :=
  u.phoneE164 = none ∨ u.phoneE164 = some phone

instance (u : User) (phone : String) : Decidable (u.Free phone) :=
  inferInstanceAs (Decidable (_ ∨ _))

/-- What a step of a sign-in does to the users: they remain, and those who carry another number
are not touched. -/
def Steps (phones : List String) (i : ℕ) (U V : Users) : Prop :=
  ∀ u ∈ U.rows, ∃ v ∈ V.rows, Remains u v ∧ ∀ phone ∈ phones[i]?, u.Free phone ∨ v = u

/-- What the sign-ins of a run do to the users there were. -/
structure OneIdentity (U : Users) (phones : List String)
    (sched : List (ℕ × Except FourError Outside)) : Prop where
  unique : (((signIns U phones).run identities.machine sched).store.users.rows.filterMap
    (·.phoneE164)).Nodup
  remain : ∀ u ∈ U.rows, ∃ v ∈ ((signIns U phones).run identities.machine sched).store.users.rows,
    Remains u v
  steps : Pool.Along identities.machine
    (Pool.GoodAt identities.machine fun i _ _ s _ t => Steps phones i s.users t.users)
    (signIns U phones) sched
  returned : ∀ (i : ℕ) (phone : String) (user : User) (isNewUser : Bool),
    phones[i]? = some phone →
      ((signIns U phones).run identities.machine sched).procs[i]? =
        some (.ret (.ok (user, isNewUser))) → user.Free phone

/-! ### The condition -/

/-- The one user of a list. -/
def sole : List User → Option User
  | [user] => some user
  | _ => none

/-- The user a sign-in has found. -/
def lastFound {β : Type} (st : IdentitySql β) (b : β) (found : Option User) : Option User :=
  match st, b with
  | .usersByPhone _, .ok users => sole users
  | _, _ => found

/-- The statements on the users, beside what each sign-in has found. -/
def recalledIdentities : Machine IdentitySql (Except FourError Outside)
    (Directory × Memory User) :=
  identities.machine.recalling lastFound

/-- The condition on the steps of a run: a number finds no user who carries another one, and when
a user's number is marked, the user carries the number it was found with, or this one. -/
def Careful {β : Type} (i : ℕ) (st : IdentitySql β) (_o : Except FourError Outside)
    (s : Directory × Memory User) : Prop :=
  match st with
  | .usersByPhone phone => ∀ u ∈ sole (s.1.users.found phone), u.Free phone
  | .markPhoneVerified userId phone => ∀ u ∈ s.1.users.rows, u.userId = userId →
      u.phoneE164 = some phone ∨ ∃ v ∈ s.2 i, u.phoneE164 = v.phoneE164
  | .insertUser _ => True

instance {β : Type} (i : ℕ) (st : IdentitySql β) (o : Except FourError Outside)
    (s : Directory × Memory User) : Decidable (Careful i st o s) := by
  unfold Careful
  split <;> infer_instance

section signIns

variable {phones : List String} {phone : String} {i : ℕ} {u v w : User} {U V W : Users}
  {s t : Directory × Memory User}

/-! ### Users -/

theorem NotLowered.refl (a : String) : NotLowered a a := .inl rfl

theorem NotLowered.trans {a b c : String} (h : NotLowered a b) (h' : NotLowered b c) :
    NotLowered a c := by
  rcases h' with rfl | ⟨rfl, rfl⟩
  · exact h
  · rcases h with h | ⟨-, h⟩
    · exact .inr ⟨h.symm, rfl⟩
    · simp at h

theorem Remains.refl (u : User) : Remains u u := ⟨rfl, rfl, rfl, .refl _, fun _ h => h⟩

theorem Remains.trans (h : Remains u v) (h' : Remains v w) : Remains u w :=
  ⟨h'.userId.trans h.userId, h'.email.trans h.email, h'.pin.trans h.pin, h.level.trans h'.level,
    fun number hu => h'.number number (h.number number hu)⟩

/-- A user whose number is marked remains, unless it carries another number. -/
theorem Remains.verified (hfree : u.Free phone) (now : ℕ) : Remains u (u.verified phone now) := by
  refine ⟨rfl, rfl, rfl, ?_, fun number hu => ?_⟩
  · show NotLowered u.level (if u.level = "level-0" then "level-1" else u.level)
    split_ifs with hlevel
    · exact .inr ⟨hlevel, rfl⟩
    · exact .refl _
  · rcases hfree with hnone | hphone
    · rw [hnone] at hu
      cases hu
    · rwa [hphone] at hu

theorem Steps.refl (i : ℕ) (U : Users) : Steps phones i U U :=
  fun u hu => ⟨u, hu, .refl u, fun _ _ => .inr rfl⟩

/-- The users there were remain. -/
def Remain (U V : Users) : Prop := ∀ u ∈ U.rows, ∃ v ∈ V.rows, Remains u v

theorem Remain.steps (h : Remain U V) (hs : Steps phones i V W) : Remain U W := by
  intro u hu
  obtain ⟨v, hv, huv⟩ := h u hu
  obtain ⟨w, hw, hvw, -⟩ := hs v hv
  exact ⟨w, hw, huv.trans hvw⟩

/-- What the update of a user's number does. -/
theorem Users.mark_cases (U : Users) (userId phone : String) (now : ℕ) :
    (∃ e, U.mark userId phone now = (.error e, U)) ∨
      ∃ u ∈ U.rows, u.userId = userId ∧ (U.mark userId phone now).1 = .ok (u.verified phone now) ∧
        (U.mark userId phone now).2.rows = U.marked userId phone now := by
  unfold Users.mark
  cases hfind : U.rows.find? (·.userId = userId) with
  | none => exact .inl ⟨_, rfl⟩
  | some u =>
      dsimp only
      split_ifs with hfits
      · exact .inl ⟨_, rfl⟩
      · unfold Users.write
        by_cases hunique : Unique (U.marked userId phone now)
        · rw [dif_pos hunique]
          exact .inr ⟨u, List.mem_of_find?_eq_some hfind, by simpa using List.find?_some hfind,
            rfl, rfl⟩
        · rw [dif_neg hunique]
          exact .inl ⟨_, rfl⟩

/-- What the insert of a user does. -/
theorem Users.insert_cases (U : Users) (userId phone : String) (now : ℕ) :
    (∃ e, U.insert userId phone now = (.error e, U)) ∨
      (U.insert userId phone now).1 = .ok (newUser userId phone now) ∧
        (U.insert userId phone now).2.rows = newUser userId phone now :: U.rows := by
  unfold Users.insert
  split_ifs with hfits
  · exact .inl ⟨_, rfl⟩
  · unfold Users.write
    by_cases hunique : Unique (newUser userId phone now :: U.rows)
    · rw [dif_pos hunique]
      exact .inr ⟨rfl, rfl⟩
    · rw [dif_neg hunique]
      exact .inl ⟨_, rfl⟩

/-- The update of a user who carries no other number. -/
theorem Steps.marked {userId : String} {now : ℕ} (hi : phones[i]? = some phone)
    (hfree : ∀ u ∈ U.rows, u.userId = userId → u.Free phone)
    (hV : V.rows = U.marked userId phone now) : Steps phones i U V := by
  intro u hu
  have hmem := List.mem_map_of_mem (f := fun u => if u.userId = userId then
    u.verified phone now else u) hu
  rw [hV]
  by_cases hid : u.userId = userId
  · refine ⟨_, hmem, ?_, fun p hp => .inl ?_⟩
    · rw [if_pos hid]
      exact .verified (hfree u hu hid) now
    · rw [hi] at hp
      cases hp
      exact hfree u hu hid
  · refine ⟨_, hmem, ?_, fun p hp => .inr (if_neg hid)⟩
    rw [if_neg hid]
    exact .refl u

/-! ### The discipline -/

/-- The discipline of the sign-ins: what one has found is its own. -/
def signInDiscipline (U : Users) (phones : List String) :
    Discipline IdentitySql (Except FourError Outside) (Directory × Memory User) where
  inv s := Remain U s.1.users
  rely i s t := t.2 i = s.2 i
  cond := Careful
  good i _ _ s _ t := Steps phones i s.1.users t.1.users
  rely_refl _ _ := rfl
  rely_trans _ _ _ _ h h' := h'.trans h

/-- What a call does under the discipline. -/
abbrev Signs (U : Users) (phones : List String) (i : ℕ) {β : Type}
    (P : Directory × Memory User → Prop) (call : IdentityCall β)
    (Q : β → Directory × Memory User → Prop) : Prop :=
  Triple recalledIdentities (signInDiscipline U phones) i P call Q fun _ _ => True

/-- What a step is, beside what was found. -/
theorem recalled_cases {β : Type} {st : IdentitySql β} {o : Except FourError Outside} {b : β}
    (h : recalledIdentities.exec i st o s = some (b, t)) :
    t.2 = Function.update s.2 i (lastFound st b (s.2 i)) ∧
      ((∃ e, o = .error e ∧ b = identities.fail st e ∧ t.1 = s.1) ∨
        ∃ o', o = .ok o' ∧ b = (st.run o' s.1).1 ∧ t.1 = (st.run o' s.1).2) := by
  obtain ⟨r, hr, he⟩ := Option.map_eq_some_iff.mp h
  cases he
  exact ⟨rfl, Backend.exec_cases hr⟩

/-- The rule of a statement, by what it does to the users. -/
theorem signs_perform {β : Type} {st : IdentitySql (Ans β)} {K : Option User → Prop}
    {Q : β → Option User → Prop}
    (hfail : ∀ e, identities.fail st e = .error e)
    (h : ∀ (s : Directory × Memory User) o, K (s.2 i) → Careful i st (.ok o) s →
      Steps phones i s.1.users (st.run o s.1).2.users ∧
        ∀ b, (st.run o s.1).1 = .ok b → Q b (lastFound st (.ok b) (s.2 i))) :
    Signs U phones i (fun s => K (s.2 i)) (sql st) fun b s => Q b (s.2 i) := by
  refine Triple.perform (fun s t hs (hr : t.2 i = s.2 i) => hr.symm ▸ hs)
    fun s hs hinv o hc r t he => ?_
  obtain ⟨hnote, ⟨e, rfl, rfl, ht⟩ | ⟨o, rfl, rfl, ht⟩⟩ := recalled_cases he
  · have hothers : ∀ j, j ≠ i → t.2 j = s.2 j := fun j hj => by
      rw [hnote, Function.update_of_ne hj]
    have hsteps : Steps phones i s.1.users t.1.users := by
      rw [ht]
      exact .refl i _
    rw [hfail]
    exact ⟨hsteps, hinv.steps hsteps, hothers, trivial⟩
  · have hothers : ∀ j, j ≠ i → t.2 j = s.2 j := fun j hj => by
      rw [hnote, Function.update_of_ne hj]
    obtain ⟨hsteps, hans⟩ := h s o hs hc
    rw [← ht] at hsteps
    refine ⟨hsteps, hinv.steps hsteps, hothers, ?_⟩
    cases hb : (st.run o s.1).1 with
    | error e => trivial
    | ok b =>
        show Q b (t.2 i)
        rw [hnote, Function.update_self, hb]
        exact hans b hb

theorem steps_of_same {s : Directory} {o : Outside} {β : Type} {st : IdentitySql β}
    (h : (st.run o s).2.users = s.users) : Steps phones i s.users (st.run o s).2.users := by
  rw [h]
  exact .refl i _

/-- The search by a number finds a user who carries no other. -/
theorem signs_find {K : Option User → Prop} :
    Signs U phones i (fun s => K (s.2 i)) (findUserByPhone phone)
      fun found s => ∀ u ∈ found, u.Free phone ∧ s.2 i = some u := by
  refine Triple.bind (signs_perform (Q := fun users found => ∀ u ∈ sole users,
    u.Free phone ∧ found = some u) (fun _ => rfl) fun s o _ hc => ?_) fun users => ?_
  · refine ⟨steps_of_same rfl, fun b hb u hu => ?_⟩
    obtain rfl : s.1.users.found phone = b := Except.ok.inj hb
    exact ⟨hc u hu, hu⟩
  · match users with
    | [] => exact Triple.pure fun s _ u hu => (by cases hu)
    | [user] => exact Triple.pure fun s hs u hu => hs u hu
    | _ :: _ :: _ => exact Triple.throw fun _ _ => trivial

theorem signs_assertUsable {P : Directory × Memory User → Prop} (user : User) :
    Signs U phones i P (assertUsable user) fun _ => P :=
  Triple.ite (fun _ => Triple.throw fun _ _ => trivial) fun _ => Triple.pure fun _ h => h

/-- A user's number is marked. -/
theorem signs_mark (hi : phones[i]? = some phone) (user : User) :
    Signs U phones i (fun s => user.Free phone ∧ s.2 i = some user)
      (markPhoneVerified user.userId phone) fun updated _ => updated.Free phone := by
  refine Triple.tryCatch (F := fun _ _ => True) (signs_perform
    (K := fun found => user.Free phone ∧ found = some user)
    (Q := fun (updated : User) _ => updated.Free phone) (fun _ => rfl)
    fun s o hs hc => ?_) fun e => Triple.throw fun _ _ => trivial
  obtain ⟨hfree, hfound⟩ := hs
  have hrows : ∀ u ∈ s.1.users.rows, u.userId = user.userId → u.Free phone := by
    intro u hu hid
    rcases hc u hu hid with hphone | ⟨v, hv, huv⟩
    · exact .inr hphone
    · obtain rfl : user = v := Option.some.inj (hfound.symm.trans hv)
      unfold User.Free
      rw [huv]
      exact hfree
  show Steps phones i s.1.users (s.1.users.mark user.userId phone (s.1.time + o.elapsed)).2 ∧
    ∀ b, (s.1.users.mark user.userId phone (s.1.time + o.elapsed)).1 = .ok b → b.Free phone
  rcases s.1.users.mark_cases user.userId phone (s.1.time + o.elapsed) with
    ⟨e, he⟩ | ⟨u, hu, hid, hans, hmarked⟩
  · rw [he]
    exact ⟨.refl i _, fun b hb => (by cases hb)⟩
  · rw [hans]
    refine ⟨.marked hi hrows hmarked, fun b hb => ?_⟩
    obtain rfl := Except.ok.inj hb
    exact .inr rfl

/-- A user is inserted. -/
theorem signs_insert {K : Option User → Prop} :
    Signs U phones i (fun s => K (s.2 i)) (createUser phone) fun r _ => r.1.Free phone := by
  refine Triple.bind (signs_perform (Q := fun user _ => user.Free phone) (fun _ => rfl)
    fun s o _ _ => ?_) fun user => Triple.pure fun _ h => h
  show Steps phones i s.1.users (s.1.users.insert o.newUserId phone (s.1.time + o.elapsed)).2 ∧
    ∀ b, (s.1.users.insert o.newUserId phone (s.1.time + o.elapsed)).1 = .ok b → b.Free phone
  rcases s.1.users.insert_cases o.newUserId phone (s.1.time + o.elapsed) with
    ⟨e, he⟩ | ⟨hans, hrows⟩
  · rw [he]
    exact ⟨.refl i _, fun b hb => (by cases hb)⟩
  · rw [hans]
    refine ⟨fun u hu => ⟨u, ?_, .refl u, fun _ _ => .inr rfl⟩, fun b hb => ?_⟩
    · rw [hrows]
      exact List.mem_cons_of_mem _ hu
    · obtain rfl := Except.ok.inj hb
      exact .inr rfl

/-- A sign-in runs under the discipline. -/
theorem signs_resolve (hi : phones[i]? = some phone) :
    Signs U phones i (fun _ => True) (resolveOrCreateUserByPhone phone)
      fun r _ => r.1.Free phone := by
  have hreturn : ∀ user : User, Signs U phones i (fun s => user.Free phone ∧ s.2 i = some user)
      (do assertUsable user; pure (user, false)) fun r _ => r.1.Free phone := fun user =>
    Triple.bind (signs_assertUsable user) fun _ => Triple.pure fun _ hs => hs.1
  refine Triple.bind (signs_find (K := fun _ => True)) fun existing => ?_
  cases existing with
  | some user =>
      refine Triple.bind ((signs_assertUsable user).mono (fun s hs => hs user rfl)
        (fun _ _ h => h) fun _ _ h => h) fun _ => ?_
      exact Triple.bind (signs_mark hi user) fun updated => Triple.pure fun _ hs => hs
  | none =>
      refine Triple.tryCatch ((signs_insert (K := fun _ => True)).mono (fun _ _ => trivial)
        (fun _ _ h => h) fun _ _ h => h) fun e => ?_
      refine Triple.ite (fun _ => ?_) fun _ => Triple.throw fun _ _ => trivial
      refine Triple.bind (signs_find (K := fun _ => True)) fun found => ?_
      cases found with
      | some user =>
          exact (hreturn user).mono (fun s hs => hs user rfl) (fun _ _ h => h) fun _ _ h => h
      | none => exact Triple.throw fun _ _ => trivial

end signIns

/-! ### Every run -/

/-- What a sign-in that went through returns carries no other number. -/
def Returns (phones : List String) (i : ℕ) (r : SignedIn) : Prop :=
  ∀ phone ∈ phones[i]?, ∀ user isNewUser, r = .ok (user, isNewUser) → user.Free phone

/-- **One phone number, one user**, in every run in which a number finds no user who carries
another one, and a user whose number is marked carries the one it was found with. -/
theorem one_identity (U : Users) (phones : List String)
    (sched : List (ℕ × Except FourError Outside))
    (hc : Pool.Along recalledIdentities (Pool.CondAt Careful) (signIns U phones).unread sched) :
    OneIdentity U phones sched := by
  have hstart : Pool.Verified recalledIdentities (signInDiscipline U phones)
      (fun i r _ => Returns phones i r) (signIns U phones).unread := by
    refine Pool.Verified.start (fun u hu => ⟨u, hu, .refl u⟩) fun i p hp => ?_
    obtain ⟨phone, hi, rfl⟩ := Option.map_eq_some_iff.mp ((List.getElem?_map ..).symm.trans hp)
    refine Prog.wp_mono (fun r s hr => ?_) _ _ (signs_resolve hi _ trivial)
    intro phone' hphone user isNewUser hok
    obtain rfl : phone = phone' := Option.some.inj (hi.symm.trans hphone)
    subst hok
    exact hr
  obtain ⟨hend, hgood⟩ := Pool.run_sound hstart sched hc
  have hrun : ((signIns U phones).unread.run recalledIdentities sched).forget =
      (signIns U phones).run identities.machine sched := Pool.recalling_run _ sched
  have hgood' : Pool.Along identities.machine (Pool.GoodAt identities.machine
      fun i _ _ s _ t => Steps phones i s.users t.users) (signIns U phones) sched := by
    refine Pool.along_of_recalling (fun P e hP => ?_) hgood
    exact Pool.goodAt_of_recalling P e hP
  refine ⟨?_, ?_, hgood', fun i phone user isNewUser hi hret => ?_⟩
  · exact ((signIns U phones).run identities.machine sched).store.users.unique.2.2.2
  · rw [← hrun]
    exact hend.1
  · rw [← hrun] at hret
    obtain ⟨s, hQ, -⟩ := hend.result hret
    exact hQ phone hi user isNewUser rfl

/-! ### A number that another user's is spelled as -/

/-- Ada's number was changed: she carries the one verified, and the old one is still spelled out. -/
def ada : User where
  userId := "DAYFI-1"
  phoneNumber := some "08012345678"
  phoneE164 := some "+2348099999999"
  level := "level-2"
  status := .active

/-- Only Ada is there. -/
def onlyAda : Users := ⟨[ada], by decide +kernel⟩

/-- Whoever holds her old number now signs in. -/
def oldNumber : List String := ["+2348012345678"]

/-- The turns of a sign-in. -/
def turns (i n : ℕ) : List (ℕ × Except FourError Outside) :=
  List.replicate n (i, .ok { newUserId := "DAYFI-2" })

/-- They are signed in as Ada, and her number is overwritten. -/
theorem signed_in_as_ada : ¬ OneIdentity onlyAda oldNumber (turns 0 2) := by
  intro h
  obtain ⟨v, hv, hremains⟩ := h.remain ada (List.mem_cons_self ..)
  have hrows : ((signIns onlyAda oldNumber).run identities.machine
      (turns 0 2)).store.users.rows.map (·.phoneE164) = [some "+2348012345678"] := by
    decide +kernel
  have hnumber : v.phoneE164 ∈ [some "+2348012345678"] :=
    hrows ▸ List.mem_map_of_mem hv
  rw [hremains.number _ rfl] at hnumber
  simp at hnumber

/-- Two first sign-ins of one number, side by side, and one of Ada's. -/
theorem one_identity_side_by_side :
    OneIdentity onlyAda ["+2348011111111", "+2348011111111", "+2348099999999"]
      (turns 0 1 ++ turns 1 1 ++ turns 0 1 ++ turns 1 2 ++ turns 2 2) :=
  one_identity onlyAda _ _ (by decide +kernel)

end DayfiBackend.Four
