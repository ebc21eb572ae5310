import DayfiBackend.Found.Alike
import DayfiBackend.Infra.Recipients

/-!
# What is needed to pay stays secret

Two runs are compared in which the same requests are made, but for the data of the destinations:
where a destination is added, the data of one run and of the other are both refused or have the same
hint (`CreateDestinationInput.Alike`). Whatever the order of the statements, every request of one
run is answered as that of the other (`secrets_kept`), the data that a payout gets set aside. So a
list, a search or an error tells nothing about an account that its hint does not.
-/

namespace DayfiBackend.Infra.Recipients

open DayfiBackend.Found DayfiBackend.Found.Keys

/-! ### What counts as alike -/

/-- The two inputs differ in the data at most, and in nothing that the hint shows. -/
structure CreateDestinationInput.Alike (L : Letters) (a b : CreateDestinationInput) : Prop where
  rest : { a with destinationData := b.destinationData } = b
  valid : ∀ rail, normalizeRail L a.rail = .ok rail →
    validateDestinationData rail a.destinationData = validateDestinationData rail b.destinationData
  mask : ∀ rail, normalizeRail L a.rail = .ok rail →
    validateDestinationData rail a.destinationData = .ok () →
      maskDestination L rail a.destinationData a.provider =
        maskDestination L rail b.destinationData a.provider

/-- The two requests differ in the data of a destination at most. -/
inductive Request.Alike (L : Letters) : Request → Request → Prop
  | same (r : Request) : Request.Alike L r r
  | createRecipient (input : CreateRecipientInput) {a b : CreateDestinationInput}
      (h : a.Alike L b) : Request.Alike L (.createRecipient { input with destination := some a })
        (.createRecipient { input with destination := some b })
  | addDestination (orgId recipientId environment : String) {a b : CreateDestinationInput}
      (h : a.Alike L b) : Request.Alike L (.addDestination orgId recipientId environment a)
        (.addDestination orgId recipientId environment b)

/-- The outcomes show the same. -/
inductive Outcome.Alike : Outcome → Outcome → Prop
  | same (o : Outcome) : Outcome.Alike o o
  | resolved (recipient : Recipient) {d e : Destination}
      (h : mapDestinationPublic d = mapDestinationPublic e) :
      Outcome.Alike (.resolved (.ok ⟨recipient, d⟩)) (.resolved (.ok ⟨recipient, e⟩))

/-- The tables show the same. -/
structure Tables.Alike (s t : Tables) : Prop where
  recipients : s.recipients = t.recipients
  destinations : s.destinations.map mapDestinationPublic = t.destinations.map mapDestinationPublic
  time : s.time = t.time

/-- The statements differ in the data of a row at most. -/
inductive RecipientSql.Alike : {β : Type} → RecipientSql β → RecipientSql β → Prop
  | same {β : Type} (st : RecipientSql β) : RecipientSql.Alike st st
  | insert {row row' : Destination} (h : mapDestinationPublic row = mapDestinationPublic row')
      (verificationStatus : String) :
      RecipientSql.Alike (.insertDestination row verificationStatus)
        (.insertDestination row' verificationStatus)

/-- The answers show the same. -/
def RecipientSql.Answers {β : Type} (st : RecipientSql β) (b c : β) : Prop :=
  match st, b, c with
  | .listDestinations .., b, c =>
      b.map (List.map mapDestinationPublic) = c.map (List.map mapDestinationPublic)
  | .insertDestination .., b, c => b.map mapDestinationPublic = c.map mapDestinationPublic
  | .archiveDestination .., b, c =>
      b.map (Option.map mapDestinationPublic) = c.map (Option.map mapDestinationPublic)
  | .findDestination .., b, c =>
      b.map (Option.map mapDestinationPublic) = c.map (Option.map mapDestinationPublic)
  | .firstDestination .., b, c =>
      b.map (Option.map mapDestinationPublic) = c.map (Option.map mapDestinationPublic)
  | _, b, c => b = c

/-- What the two runs are compared by. -/
def shown : Comparison RecipientSql Tables where
  store := Tables.Alike
  instr := RecipientSql.Alike
  answer st _ b c := st.Answers b c

/-! ### Statements -/

section statements

variable {C : Collation} {s t : Tables}

theorem unique_iff {rows rows' : List Destination}
    (h : rows.map mapDestinationPublic = rows'.map mapDestinationPublic) :
    UniqueDestinations rows ↔ UniqueDestinations rows' := by
  have hids : ∀ rows : List Destination,
      rows.map (·.id) = (rows.map mapDestinationPublic).map (·.id) := fun rows => by
    rw [List.map_map]
    rfl
  have hdefaults : ∀ rows : List Destination,
      (rows.filter (·.holdsDefault)).map (·.recipientId) =
        ((rows.map mapDestinationPublic).filter (·.holdsDefault)).map (·.recipientId) :=
    fun rows => by
      rw [List.filter_map, List.map_map]
      rfl
  unfold UniqueDestinations
  rw [hids rows, hids rows', hdefaults rows, hdefaults rows', h]

/-- Rows that show the same are changed alike. -/
theorem changed_alike (asked : Destination → Bool) (f : Destination → Destination)
    (asked' : DestinationPublic → Bool) (f' : DestinationPublic → DestinationPublic)
    (hasked : ∀ d, asked d = asked' (mapDestinationPublic d))
    (hf : ∀ d, mapDestinationPublic (f d) = f' (mapDestinationPublic d))
    (h : s.Alike t) :
    (s.changed asked f).map mapDestinationPublic =
      (t.changed asked f).map mapDestinationPublic := by
  have hmap : ∀ T : Tables, (T.changed asked f).map mapDestinationPublic =
      (T.destinations.map mapDestinationPublic).map fun p => if asked' p then f' p else p := by
    intro T
    unfold Tables.changed
    rw [List.map_map, List.map_map]
    refine List.map_congr_left fun d _ => ?_
    simp only [Function.comp_apply, ← hasked, ← hf]
    split_ifs <;> rfl
  rw [hmap, hmap, h.destinations]

theorem find_alike (asked : Destination → Bool) (asked' : DestinationPublic → Bool)
    (hasked : ∀ d, asked d = asked' (mapDestinationPublic d)) (h : s.Alike t) :
    (s.destinations.find? asked).map mapDestinationPublic =
      (t.destinations.find? asked).map mapDestinationPublic := by
  have hmap : ∀ T : Tables, (T.destinations.find? asked).map mapDestinationPublic =
      (T.destinations.map mapDestinationPublic).find? asked' := by
    intro T
    rw [List.find?_map]
    exact congrArg (fun p => (T.destinations.find? p).map mapDestinationPublic) (funext hasked)
  rw [hmap, hmap, h.destinations]

theorem list_alike (orgId recipientId : String) (h : s.Alike t) :
    (s.listDestinations orgId recipientId).map mapDestinationPublic =
      (t.listDestinations orgId recipientId).map mapDestinationPublic := by
  have hmap : ∀ T : Tables, (T.listDestinations orgId recipientId).map mapDestinationPublic =
      ((T.destinations.map mapDestinationPublic).filter fun d => d.orgId = orgId &&
        d.recipientId = recipientId && d.status = .active).insertionSort
          DestinationPublic.before := by
    intro T
    unfold Tables.listDestinations
    rw [List.map_insertionSort Destination.before DestinationPublic.before mapDestinationPublic _
      fun _ _ _ _ => Iff.rfl, List.filter_map]
    rfl
  rw [hmap, hmap, h.destinations]

theorem insertRecipient_alike (id : String) (row : Recipient) (h : s.Alike t) :
    (s.insertRecipient id row).1 = (t.insertRecipient id row).1 ∧
      (s.insertRecipient id row).2.Alike (t.insertRecipient id row).2 := by
  obtain ⟨rows, ds, time, hids, hds⟩ := s
  obtain ⟨rows', ds', time', hids', hds'⟩ := t
  obtain ⟨rfl, hshow, rfl⟩ := h
  unfold Tables.insertRecipient
  dsimp only
  split_ifs <;> exact ⟨rfl, rfl, hshow, rfl⟩

theorem updateRecipient_alike (recipientId orgId : String) (patch : RecipientPatch)
    (h : s.Alike t) :
    (s.updateRecipient recipientId orgId patch).1 = (t.updateRecipient recipientId orgId patch).1 ∧
      (s.updateRecipient recipientId orgId patch).2.Alike
        (t.updateRecipient recipientId orgId patch).2 := by
  obtain ⟨rows, ds, time, hids, hds⟩ := s
  obtain ⟨rows', ds', time', hids', hds'⟩ := t
  obtain ⟨rfl, hshow, rfl⟩ := h
  unfold Tables.updateRecipient Tables.findRecipient
  dsimp only
  cases rows.find? (fun r => r.id = recipientId && r.orgId = orgId && Option.all _ none) with
  | none => exact ⟨rfl, rfl, hshow, rfl⟩
  | some r =>
      dsimp only
      cases (patch.status.map Status.ofText).getD (some r.status) with
      | none => exact ⟨rfl, rfl, hshow, rfl⟩
      | some status =>
          dsimp only
          split_ifs <;> exact ⟨rfl, rfl, hshow, rfl⟩

theorem clearDefault_alike (recipientId orgId : String) (h : s.Alike t) :
    (s.clearDefault recipientId orgId).1 = (t.clearDefault recipientId orgId).1 ∧
      (s.clearDefault recipientId orgId).2.Alike (t.clearDefault recipientId orgId).2 := by
  have hrows := changed_alike
    (fun d => d.recipientId = recipientId && d.orgId = orgId && d.isDefault)
    (Tables.undefaulted s.time)
    (fun p => p.recipientId = recipientId && p.orgId = orgId && p.isDefault)
    (fun p => { p with isDefault := false, updatedAt := s.time }) (fun _ => rfl)
    (fun _ => rfl) h
  have hunique := unique_iff hrows
  unfold Tables.clearDefault
  rw [← h.time]
  dsimp only
  split_ifs with hs ht ht
  · exact ⟨rfl, h.recipients, hrows, rfl⟩
  · exact absurd (hunique.mp hs) ht
  · exact absurd (hunique.mpr ht) hs
  · exact ⟨rfl, h⟩

theorem archiveDestination_alike (destinationId orgId : String) (h : s.Alike t) :
    (s.archiveDestination destinationId orgId).1.map (Option.map mapDestinationPublic) =
        (t.archiveDestination destinationId orgId).1.map (Option.map mapDestinationPublic) ∧
      (s.archiveDestination destinationId orgId).2.Alike
        (t.archiveDestination destinationId orgId).2 := by
  have hrows := changed_alike
    (fun d => d.id = destinationId && d.orgId = orgId && d.status = .active)
    (Tables.archived s.time)
    (fun p => p.id = destinationId && p.orgId = orgId && p.status = .active)
    (fun p => { p with status := .archived, isDefault := false, updatedAt := s.time })
    (fun _ => rfl) (fun _ => rfl) h
  have hfound := find_alike
    (fun d => d.id = destinationId && d.orgId = orgId && d.status = .active)
    (fun p => p.id = destinationId && p.orgId = orgId && p.status = .active)
    (fun _ => rfl) h
  have hunique := unique_iff hrows
  unfold Tables.archiveDestination
  rw [← h.time]
  dsimp only
  split_ifs with hs ht ht
  · refine ⟨congrArg Except.ok ?_, h.recipients, hrows, rfl⟩
    have harchived : ∀ found : Option Destination,
        (found.map (Tables.archived s.time)).map mapDestinationPublic =
          (found.map mapDestinationPublic).map fun p =>
            { p with status := .archived, isDefault := false, updatedAt := s.time } := by
      intro found
      cases found <;> rfl
    rw [harchived, harchived, hfound]
  · exact absurd (hunique.mp hs) ht
  · exact absurd (hunique.mpr ht) hs
  · exact ⟨rfl, h⟩

theorem insertDestination_alike (id : String) (p : DestinationPublic) (data data' : DestinationData)
    (verificationStatus : String) (h : s.Alike t) :
    (s.insertDestination id ⟨p, data⟩ verificationStatus).1.map mapDestinationPublic =
        (t.insertDestination id ⟨p, data'⟩ verificationStatus).1.map mapDestinationPublic ∧
      (s.insertDestination id ⟨p, data⟩ verificationStatus).2.Alike
        (t.insertDestination id ⟨p, data'⟩ verificationStatus).2 := by
  obtain ⟨rows, ds, time, hids, hds⟩ := s
  obtain ⟨rows', ds', time', hids', hds'⟩ := t
  obtain ⟨rfl, hshow, rfl⟩ := h
  unfold Tables.insertDestination
  cases VerificationStatus.ofText verificationStatus with
  | none => exact ⟨rfl, rfl, hshow, rfl⟩
  | some status =>
      have hrows : ∀ new new' : Destination, mapDestinationPublic new = mapDestinationPublic new' →
          (new :: ds).map mapDestinationPublic = (new' :: ds').map mapDestinationPublic := by
        intro new new' hnew
        rw [List.map_cons, List.map_cons, hnew, hshow]
      dsimp only
      split_ifs with hfits hkey hs ht ht
      · exact ⟨rfl, rfl, hshow, rfl⟩
      · exact ⟨rfl, rfl, hshow, rfl⟩
      · exact ⟨rfl, rfl, hrows _ _ rfl, rfl⟩
      · refine absurd ((unique_iff ?_).mp hs) ht
        exact hrows _ _ rfl
      · refine absurd ((unique_iff ?_).mpr ht) hs
        exact hrows _ _ rfl
      · exact ⟨rfl, rfl, hshow, rfl⟩

/-- Statements that are alike do alike to tables that show the same. -/
theorem act_alike {β : Type} {st st' : RecipientSql β} (o : Outside) (hst : st.Alike st')
    (h : s.Alike t) :
    st.Answers (st.act C o s).1 (st'.act C o t).1 ∧ (st.act C o s).2.Alike (st'.act C o t).2 := by
  cases hst with
  | insert hrow verificationStatus =>
      rename_i row row'
      obtain ⟨p, data⟩ := row
      obtain ⟨p', data'⟩ := row'
      obtain rfl : p = p' := hrow
      exact insertDestination_alike o.newId p data data' verificationStatus h
  | same =>
      cases st with
      | insertRecipient row => exact insertRecipient_alike o.newId row h
      | updateRecipient recipientId orgId patch => exact updateRecipient_alike _ _ _ h
      | clearDefault recipientId orgId => exact clearDefault_alike _ _ h
      | insertDestination row verificationStatus =>
          exact insertDestination_alike o.newId row.toDestinationPublic _ _ verificationStatus h
      | archiveDestination destinationId orgId => exact archiveDestination_alike _ _ h
      | searchRecipients orgId environment includeArchived q =>
          refine ⟨?_, h⟩
          simp only [RecipientSql.act, RecipientSql.Answers, Tables.searchRecipients, h.recipients]
      | findRecipient recipientId orgId environment =>
          refine ⟨?_, h⟩
          simp only [RecipientSql.act, RecipientSql.Answers, Tables.findRecipient, h.recipients]
      | findActiveRecipient recipientId orgId environment =>
          refine ⟨?_, h⟩
          simp only [RecipientSql.act, RecipientSql.Answers, Tables.findRecipient, h.recipients]
      | listDestinations orgId recipientId =>
          exact ⟨congrArg Except.ok (list_alike orgId recipientId h), h⟩
      | findDestination destinationId recipientId orgId =>
          refine ⟨congrArg Except.ok ?_, h⟩
          exact find_alike _ (fun p => p.id = destinationId && p.recipientId = recipientId &&
            p.orgId = orgId && p.status = .active) (fun _ => rfl) h
      | firstDestination recipientId orgId =>
          refine ⟨congrArg Except.ok ?_, h⟩
          rw [← List.head?_map, ← List.head?_map, list_alike orgId recipientId h]

theorem answers_refl {β : Type} (st : RecipientSql β) (b : β) : st.Answers b b := by
  cases st <;> rfl

/-- The statements respect what is shown. -/
theorem recipients_respect (C : Collation) : (recipients C).machine.Respects shown := by
  refine Backend.respects (fun i j e hij => ?_) fun pid i j o s t hij hst => ?_
  · cases hij with
    | same => exact answers_refl _ _
    | insert hrow verificationStatus => rfl
  · exact act_alike o hij ⟨hst.recipients, hst.destinations, congrArg (· + o.elapsed) hst.time⟩

end statements

/-! ### Calls -/

section calls

variable {L : Letters}

theorem agree_of_eq {α : Type} {b c : Ans α} (h : b = c) : Agree (· = ·) b c := by
  subst h
  cases b with
  | ok a => exact .ok rfl
  | error e => exact .error e

theorem agree_of_map {α β : Type} {f : α → β} {b c : Ans α} (h : b.map f = c.map f) :
    Agree (fun x y => f x = f y) b c := by
  cases b with
  | ok x =>
      cases c with
      | ok y => exact .ok (Except.ok.inj h)
      | error e => cases h
  | error e =>
      cases c with
      | ok y => cases h
      | error e' =>
          obtain rfl := Except.error.inj h
          exact .error e

/-- A statement about recipients only. -/
theorem alike_sql {β : Type} {st : RecipientSql (Ans β)} (h : ∀ b c, st.Answers b c → b = c) :
    AlikeE shown (· = ·) (sql st) (sql st) :=
  .call (.same st) fun b c hbc => agree_of_eq (h b c hbc)

theorem alike_listDestinationsPublic (orgId recipientId : String) :
    AlikeE shown (· = ·) (listDestinationsPublic orgId recipientId)
      (listDestinationsPublic orgId recipientId) :=
  .bind (.call (.same _) fun _ _ h => agree_of_map h) fun _ _ h => .pure h

theorem alike_getRecipient (orgId recipientId : String) (environment : Option String) :
    AlikeE shown (· = ·) (getRecipient orgId recipientId environment)
      (getRecipient orgId recipientId environment) := by
  refine .bind (alike_sql fun _ _ h => h) fun found found' h => ?_
  subst h
  cases found with
  | none => exact .throw _
  | some row =>
      refine .bind (alike_listDestinationsPublic _ _) fun ds ds' h => ?_
      subst h
      exact .pure rfl

theorem alike_withDestinations (orgId : String) (rows : List Recipient) :
    AlikeE shown (· = ·) (withDestinations orgId rows) (withDestinations orgId rows) := by
  induction rows with
  | nil => exact .pure rfl
  | cons row rows ih =>
      refine .bind (alike_listDestinationsPublic _ _) fun ds ds' h =>
        .bind ih fun rest rest' h' => ?_
      subst h h'
      exact .pure rfl

theorem alike_updateRecipient (orgId recipientId : String) (patch : RecipientPatch) :
    AlikeE shown (· = ·) (updateRecipient L orgId recipientId patch)
      (updateRecipient L orgId recipientId patch) := by
  refine .bind (alike_getRecipient _ _ _) fun _ _ _ => .bind (alike_sql fun _ _ h => h) ?_
  intro row row' h
  subst h
  refine .bind (alike_listDestinationsPublic _ _) fun ds ds' h => ?_
  subst h
  exact .pure rfl

theorem alike_archiveDestination (orgId destinationId : String) :
    AlikeE shown (· = ·) (archiveDestination orgId destinationId)
      (archiveDestination orgId destinationId) := by
  refine .bind (.call (.same _) fun _ _ h => agree_of_map h) fun found found' h => ?_
  cases found with
  | none =>
      cases found' with
      | none => exact .throw _
      | some e => cases h
  | some d =>
      cases found' with
      | none => cases h
      | some e => exact .pure (Option.some.inj h)

/-- What was worked out is so. -/
theorem alike_worked {β : Type} {r r' : Ans β} (h : r = r') :
    AlikeE shown (fun b c => b = c ∧ r = .ok b) (worked r) (worked r') := by
  subst h
  cases r with
  | ok b => exact .pure ⟨rfl, rfl⟩
  | error e => exact .throw e

theorem alike_makeRoom (recipientId orgId : String) (isDefault : Bool) :
    AlikeE shown (· = ·) (makeRoom recipientId orgId isDefault)
      (makeRoom recipientId orgId isDefault) := by
  cases isDefault with
  | true => exact alike_sql fun _ _ h => h
  | false => exact .pure rfl

/-- Rows with the same hint show the same. -/
theorem newDestination_alike {orgId recipientId : String} {env : Environment}
    {country : Option String} {rail : Rail} {a : CreateDestinationInput} {data : DestinationData}
    (h : maskDestination L rail a.destinationData a.provider =
      maskDestination L rail data a.provider) :
    mapDestinationPublic (newDestination L orgId recipientId env country rail a) =
      mapDestinationPublic (newDestination L orgId recipientId env country rail
        { a with destinationData := data }) := by
  unfold mapDestinationPublic newDestination
  dsimp only
  rw [h]

/-- The data are refused alike, or make rows that show the same. -/
theorem alike_addDestination (orgId recipientId environment : String)
    {a b : CreateDestinationInput} (h : a.Alike L b) :
    AlikeE shown (· = ·) (addDestination L orgId recipientId environment a)
      (addDestination L orgId recipientId environment b) := by
  obtain ⟨data, rfl⟩ : ∃ data, b = { a with destinationData := data } :=
    ⟨b.destinationData, h.rest.symm⟩
  obtain ⟨-, hvalid, hmask⟩ := h
  refine .bind (alike_getRecipient _ _ _) fun view view' hview => ?_
  subst hview
  refine .bind (alike_worked rfl) fun rail rail' hrail => ?_
  obtain ⟨rfl, hrail⟩ := hrail
  refine .bind (alike_worked (hvalid rail hrail)) fun _ _ hdata => ?_
  refine .bind (alike_makeRoom _ _ _) fun _ _ _ => ?_
  refine .bind (.call (.insert ?_ _) fun _ _ h => agree_of_map h) fun _ _ h => .pure h
  exact newDestination_alike (hmask rail hrail hdata.2)

theorem alike_createRecipient (input : CreateRecipientInput) {a b : Option CreateDestinationInput}
    (h : Option.Rel (CreateDestinationInput.Alike L) a b) :
    AlikeE shown (· = ·) (createRecipient L { input with destination := a })
      (createRecipient L { input with destination := b }) := by
  unfold createRecipient
  dsimp only
  split_ifs
  · exact .throw _
  · refine .bind (alike_sql fun _ _ h => h) fun recipient recipient' hrecipient => ?_
    subst hrecipient
    refine .bind (Q := (· = ·)) ?_ fun ds ds' hds => .pure (by rw [hds])
    cases h with
    | none => exact .pure rfl
    | some h =>
        obtain ⟨hrest, hvalid, hmask⟩ := h
        refine .bind (alike_addDestination _ _ _ ⟨?_, hvalid, hmask⟩) fun d d' hd =>
          .pure (by rw [hd])
        rw [← hrest]

/-- Whether a payout may be made to a destination does not depend on its data. -/
theorem alike_resolve (input : ResolveInput) :
    AlikeE shown (fun r r' => r.recipient = r'.recipient ∧
        mapDestinationPublic r.destination = mapDestinationPublic r'.destination)
      (resolveDestinationForPayout input) (resolveDestinationForPayout input) := by
  refine .bind (alike_sql fun _ _ h => h) fun found found' h => ?_
  subst h
  cases found with
  | none => exact .throw _
  | some recipient =>
      refine .bind (Q := fun d d' => Option.map mapDestinationPublic d =
        Option.map mapDestinationPublic d') ?_ fun d d' h => ?_
      · refine .call (.same _) fun b c h => agree_of_map ?_
        revert h
        unfold destinationAsked
        cases orNull input.destinationId <;> exact id
      · cases d with
        | none =>
            cases d' with
            | none => exact .throw _
            | some d' => cases h
        | some d =>
            cases d' with
            | none => cases h
            | some d' => exact .pure ⟨rfl, Option.some.inj h⟩

end calls

/-! ### Every run -/

section runs

variable {L : Letters}

/-- A call of which everything is shown. -/
theorem alike_program {α : Type} {p q : RecipientCall α} (f : Ans α → Outcome)
    (h : AlikeE shown (· = ·) p q) :
    Prog.Alike shown Outcome.Alike (p.run >>= fun r => pure (f r))
      (q.run >>= fun r => pure (f r)) := by
  refine Prog.Alike.bind h fun r s hrs => .ret ?_
  cases hrs with
  | ok h =>
      subst h
      exact .same _
  | error e => exact .same _

theorem request_alike {r r' : Request} (h : r.Alike L r') :
    Prog.Alike shown Outcome.Alike (r.program L) (r'.program L) := by
  cases h with
  | createRecipient input h => exact alike_program _ (alike_createRecipient input (.some h))
  | addDestination orgId recipientId environment h =>
      exact alike_program _ (alike_addDestination _ _ _ h)
  | same =>
      cases r with
      | createRecipient input =>
          refine alike_program _ (alike_createRecipient input ?_)
          cases input.destination with
          | none => exact .none
          | some d => exact .some ⟨rfl, fun _ _ => rfl, fun _ _ _ => rfl⟩
      | listRecipients orgId environment q includeArchived =>
          refine alike_program _ (.bind (alike_sql fun _ _ h => h) fun rows rows' h => ?_)
          subst h
          exact alike_withDestinations _ _
      | getRecipient orgId recipientId environment =>
          exact alike_program _ (alike_getRecipient _ _ _)
      | updateRecipient orgId recipientId patch =>
          exact alike_program _ (alike_updateRecipient _ _ _)
      | archiveRecipient orgId recipientId => exact alike_program _ (alike_updateRecipient _ _ _)
      | addDestination orgId recipientId environment input =>
          exact alike_program _ (alike_addDestination _ _ _
            ⟨rfl, fun _ _ => rfl, fun _ _ _ => rfl⟩)
      | archiveDestination orgId destinationId =>
          exact alike_program _ (alike_archiveDestination _ _)
      | resolveDestinationForPayout input =>
          refine Prog.Alike.bind (alike_resolve input) fun r s hrs => .ret ?_
          cases hrs with
          | error e => exact .same _
          | ok h =>
              rename_i a b
              obtain ⟨recipient, d⟩ := a
              obtain ⟨recipient', e⟩ := b
              obtain ⟨rfl, hd⟩ := h
              exact .resolved recipient hd

/-- Whatever a request of the first run comes to shows what that of the second does. -/
def Hidden (L : Letters) (C : Collation) (requests requests' : List Request)
    (sched : List (ℕ × Except RecipientError Outside)) : Prop :=
  ∀ (i : ℕ) outcome, ((begun L {} requests).run (recipients C).machine sched).procs[i]? =
      some (.ret outcome) →
    ∃ outcome', ((begun L {} requests').run (recipients C).machine sched).procs[i]? =
      some (.ret outcome') ∧ outcome.Alike outcome'

/-- **What is needed to pay stays secret**: where requests differ in the data of destinations only,
and the data are refused alike or have the same hint, every request comes to what shows the same,
in every run. -/
theorem secrets_kept (L : Letters) (C : Collation) (requests requests' : List Request)
    (h : List.Forall₂ (Request.Alike L) requests requests')
    (sched : List (ℕ × Except RecipientError Outside)) : Hidden L C requests requests' sched := by
  have hstart : Pool.Abreast shown Outcome.Alike (begun L {} requests) (begun L {} requests') := by
    refine .start ⟨rfl, rfl, rfl⟩ ?_
    rw [List.forall₂_map_left_iff, List.forall₂_map_right_iff]
    exact h.imp fun _ _ hr => request_alike hr
  exact fun i outcome hret => (hstart.run (recipients_respect C) sched).result hret

/-- What a request has come to. -/
def outcomeOf : Prog RecipientSql Outcome → Option Outcome
  | .ret outcome => some outcome
  | .act .. => none

/-- Letters as those of ASCII. -/
def ascii : Letters := ⟨String.toLower, String.toUpper, fun _ _ => rfl⟩

/-- Names in the order of their letters, and no patterns. -/
def byLetters : Collation := ⟨fun a b => a ≤ b, fun a b => a = b⟩

/-- Ada's account at a bank. -/
def bankAccount (accountNumber : String) : CreateDestinationInput where
  rail := "bank"
  destinationData := { accountNumber := some accountNumber, accountName := some "Ada Obi",
                       bankCode := some "058", bankName := some "GTBank" }

/-- A recipient comes with an account. -/
def newAda (accountNumber : String) : Request :=
  .createRecipient { orgId := "org", environment := "test", displayName := some "Ada Obi",
                     destination := some (bankAccount accountNumber) }

/-- What the organisation is shown of Ada. -/
def adaShown : RecipientView where
  recipient := { id := "ada", orgId := "org", environment := .test, displayName := "Ada Obi",
                 country := none, email := none, phone := none, metadata := "\x7b\x7d",
                 createdAt := 0, updatedAt := 0 }
  destinations := [{ id := "gtb", recipientId := "ada", orgId := "org", environment := .test,
                     rail := .bank, country := none, currency := none, provider := none,
                     label := none, displayHint := "GTBank ···· 6789", lastFour := some "6789",
                     verificationStatus := .unverified, isDefault := true, createdAt := 0,
                     updatedAt := 0 }]

/-- The two accounts have the same hint. -/
theorem newAda_alike : Request.Alike ascii (newAda "0123456789") (newAda "5556789") := by
  have hbank : normalizeRail ascii "bank" = .ok .bank := by decide +kernel
  refine .createRecipient { orgId := "org", environment := "test", displayName := some "Ada Obi" }
    ⟨rfl, fun rail hrail => ?_, fun rail hrail _ => ?_⟩ <;>
  · obtain rfl := Except.ok.inj (hbank.symm.trans hrail)
    decide +kernel

/-- A recipient is added with an account, side by side with nobody. -/
def adding : List (ℕ × Except RecipientError Outside) :=
  [(0, .ok ⟨"ada", 0⟩), (0, .ok {}), (0, .ok {}), (0, .ok {}), (0, .ok ⟨"gtb", 0⟩)]

/-- Two accounts with the same last digits are not told from each other. -/
theorem hidden_digits :
    ((begun ascii {} [newAda "0123456789"]).run (recipients byLetters).machine adding).procs.map
        outcomeOf = [some (.recipient (.ok adaShown))] ∧
      Hidden ascii byLetters [newAda "0123456789"] [newAda "5556789"] adding :=
  ⟨by decide +kernel, secrets_kept ascii byLetters _ _ (.cons newAda_alike .nil) adding⟩

end runs

end DayfiBackend.Infra.Recipients
