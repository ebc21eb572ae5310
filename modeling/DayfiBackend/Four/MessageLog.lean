import DayfiBackend.Found.Alone
import DayfiBackend.Four.Messages
import Mathlib.Data.List.Pairwise

/-!
# Paging through a conversation misses nothing

* `Pages limits l pages` — the pages of a client that follows `nextBefore` down a list `l` of
  messages, newest first; `Pages.complete` reads off what it has got.
* `triple_history` — what `history` returns is the pages of the log as it was when it read the
  first one: what is below a cursor stays as it is (`frozen_below`).
* `message_log` — in every run of appends, readers and terminated transactions, a reader that has
  followed `nextBefore` to its end has every message of the conversation that was there, once and
  in order; and appends with one client identifier all return one message.
-/

namespace DayfiBackend.Four

open DayfiBackend.Found DayfiBackend.Found.Database DayfiBackend.Found.Keys Prog

/-! ### Pages of a list -/

/-- Newest first. -/
def Descending (l : List FourMessage) : Prop := l.Pairwise fun a b => b.seq < a.seq

/-- The pages of a client that follows `nextBefore` down a list, one for each limit it asks
with. -/
inductive Pages : List (Option ℤ) → List FourMessage → List ListMessagesResult → Prop
  | stop (l : List FourMessage) : Pages [] l []
  | last (limit : Option ℤ) (limits : List (Option ℤ)) (l : List FourMessage)
      (h : l.length ≤ pageSize limit) : Pages (limit :: limits) l [⟨l.reverse, none, false⟩]
  | more (limit : Option ℤ) (limits : List (Option ℤ)) (l : List FourMessage) (next : String)
      (pages : List ListMessagesResult) (h : pageSize limit < l.length)
      (rest : Pages limits (l.drop (pageSize limit)) pages) :
      Pages (limit :: limits) l (⟨(l.take (pageSize limit)).reverse, some next, true⟩ :: pages)

/-- The messages of the pages, oldest first. -/
def messagesOf (pages : List ListMessagesResult) : List FourMessage :=
  pages.reverse.flatMap (·.messages)

/-- The last page says that there is nothing before it. -/
def Ended (pages : List ListMessagesResult) : Prop :=
  ∃ page, pages.getLast? = some page ∧ page.nextBefore = none

theorem pageSize_pos (limit : Option ℤ) : 1 ≤ pageSize limit := by
  unfold pageSize
  omega

namespace Pages

variable {limits : List (Option ℤ)} {l : List FourMessage} {pages : List ListMessagesResult}

/-- The pages so far are the newest part of the list. -/
theorem split (h : Pages limits l pages) :
    ∃ rest, l = (messagesOf pages).reverse ++ rest ∧ (Ended pages → rest = []) := by
  induction h with
  | stop l => exact ⟨l, by simp [messagesOf], fun h => by simp [Ended] at h⟩
  | last limit limits l h => exact ⟨[], by simp [messagesOf], fun _ => rfl⟩
  | more limit limits l next pages h rest ih =>
      obtain ⟨older, hsplit, hend⟩ := ih
      refine ⟨older, ?_, fun hended => hend ?_⟩
      · calc l = l.take (pageSize limit) ++ l.drop (pageSize limit) :=
              (List.take_append_drop _ _).symm
          _ = l.take (pageSize limit) ++ ((messagesOf pages).reverse ++ older) := by rw [← hsplit]
          _ = _ := by simp [messagesOf]
      · obtain ⟨page, hlast, hnone⟩ := hended
        cases pages with
        | nil =>
            rw [List.getLast?_singleton, Option.some.injEq] at hlast
            rw [← hlast] at hnone
            cases hnone
        | cons p ps => exact ⟨page, by simpa using hlast, hnone⟩

/-- With room for the whole list the pages end. -/
theorem ended (h : Pages limits l pages) (hne : limits ≠ [])
    (hroom : l.length ≤ (limits.map pageSize).sum) : Ended pages := by
  induction h with
  | stop l => exact absurd rfl hne
  | last limit limits l h => exact ⟨_, rfl, rfl⟩
  | more limit limits l next pages h rest ih =>
      rw [List.map_cons, List.sum_cons] at hroom
      have hroom' : (l.drop (pageSize limit)).length ≤ (limits.map pageSize).sum := by
        rw [List.length_drop]
        omega
      have hne' : limits ≠ [] := by
        rintro rfl
        rw [List.map_nil, List.sum_nil] at hroom
        omega
      obtain ⟨page, hlast, hnone⟩ := ih hne' hroom'
      refine ⟨page, ?_, hnone⟩
      rw [List.getLast?_cons, hlast]
      rfl

end Pages

/-- What the page of a sorted list is: all of it, or its newest part with the cursor of the last
one taken. -/
theorem pageOf_cases {l : List FourMessage} (hl : Descending l) {n : ℕ} (hn : 1 ≤ n) :
    (l.length ≤ n ∧ pageOf n (l.take (n + 1)) = ⟨l.reverse, none, false⟩) ∨
      ∃ x ∈ l, n < l.length ∧
        pageOf n (l.take (n + 1)) = ⟨(l.take n).reverse, some (toString x.seq), true⟩ ∧
        l.filter (·.seq < x.seq) = l.drop n := by
  by_cases hlen : l.length ≤ n
  · refine .inl ⟨hlen, ?_⟩
    rw [List.take_of_length_le (by omega)]
    simp [pageOf, hlen]
  · rw [not_le] at hlen
    have htake : (l.take (n + 1)).take n = l.take n := by rw [List.take_take]; congr 1; omega
    have hnlen : n < (l.take (n + 1)).length := by rw [List.length_take]; omega
    obtain ⟨x, hx⟩ : ∃ x, (l.take n).getLast? = some x := by
      refine ⟨_, List.getLast?_eq_some_getLast fun hnil => ?_⟩
      have := congrArg List.length hnil
      rw [List.length_take, List.length_nil] at this
      omega
    obtain ⟨newer, hnewer⟩ := List.getLast?_eq_some_iff.mp hx
    have hmem : x ∈ l.take n := List.mem_of_getLast? hx
    refine .inr ⟨x, List.mem_of_mem_take hmem, hlen, ?_, ?_⟩
    · unfold pageOf
      simp only [decide_eq_true hnlen, if_true, htake, hx, Option.map_some]
    · have hsplit : l = newer ++ [x] ++ l.drop n := by rw [← hnewer, List.take_append_drop]
      have hdesc := hl
      unfold Descending at hdesc
      rw [hsplit, List.pairwise_append] at hdesc
      obtain ⟨hfront, -, hcross⟩ := hdesc
      have hnewerx : ∀ a ∈ newer ++ [x], ¬ a.seq < x.seq := by
        intro a ha
        rcases List.mem_append.mp ha with ha | ha
        · exact not_lt.mpr ((List.pairwise_append.mp hfront).2.2 a ha x (by simp)).le
        · rw [List.mem_singleton.mp ha]
          exact lt_irrefl _
      have holder : ∀ b ∈ l.drop n, b.seq < x.seq := fun b hb => hcross x (by simp) b hb
      conv_lhs => rw [hsplit]
      rw [List.filter_append, List.filter_eq_nil_iff.mpr (by simpa using hnewerx),
        List.filter_eq_self.mpr (by simpa using holder), List.nil_append]

/-! ### The journal of messages -/

/-- Messages belong to conversations and repeat their user. -/
def messageJournal : Journal String ConversationRow FourMessage String where
  row := FourMessage.conversationId
  number := FourMessage.seq
  owner := ConversationRow.userId
  ownerOf := FourMessage.userId

/-- What a process notes: the messages that were stored when it read its first page, and whether a
statement of its got no answer. -/
structure ReaderNote where
  seen : Option (List FourMessage) := none
  lost : Bool := false

/-- The note after a statement. -/
def firstPage {β : Type} (q : MessageQuery β) (o : Option DbError) (db : MessageDb) (_ : β)
    (_ : MessageDb) (note : ReaderNote) : ReaderNote :=
  match o with
  | some _ => { note with lost := true }
  | none =>
      match q with
      | .entries _ => { note with seen := note.seen <|> some db.committed.log }
      | _ => note

/-- A store of messages beside the notes of the processes. -/
abbrev WatchedDb := MessageDb × (ℕ → ReaderNote)

/-- The message log beside the notes of its processes. -/
abbrev watchedLog : Machine MessageQuery (Option DbError) WatchedDb :=
  (journal messageSchema).noting firstPage

/-- The discipline of the message log since `base`. -/
abbrev logDiscipline (base : Snapshot String ConversationRow FourMessage) :
    Discipline MessageQuery (Option DbError) WatchedDb :=
  journalDiscipline messageJournal messageSchema base

/-- The user of a conversation. -/
def ownerOf (db : MessageDb) (conversationId : String) : Option String :=
  messageJournal.rowOwner db conversationId

/-- The messages of a conversation among others, as they come. -/
def conversation (conversationId : String) (log : List FourMessage) : List FourMessage :=
  log.filter (·.conversationId = conversationId)

section reading

variable {base : Snapshot String ConversationRow FourMessage} {i : ℕ}
  {userId conversationId : String} {db : MessageDb}

theorem descending_conversation (hs : Journaled messageJournal messageSchema db) :
    Descending (conversation conversationId db.committed.log) := by
  have hsorted := (List.pairwise_append.mp (hs.sorted 0)).2.1
  refine (hsorted.filter _).imp_of_mem fun {a b} ha hb hab => hab ?_
  have ha' : a.conversationId = conversationId := by simpa using (List.mem_filter.mp ha).2
  have hb' : b.conversationId = conversationId := by simpa using (List.mem_filter.mp hb).2
  exact ha'.trans hb'.symm

/-- A page query selects from the messages of the conversation. -/
theorem filter_inPage (hs : Journaled messageJournal messageSchema db)
    (howner : ownerOf db conversationId = some userId) (before : Option ℕ) :
    db.committed.log.filter (inPage conversationId userId before) =
      (conversation conversationId db.committed.log).filter fun m => before.all (m.seq < ·) := by
  unfold conversation
  rw [List.filter_filter]
  apply List.filter_congr
  intro m hm
  have huser := hs.entryOwner m (List.mem_append_right _ hm)
  by_cases hc : m.conversationId = conversationId
  · have : m.userId = userId := by
      have howner' : ownerOf db m.conversationId = some userId := by rw [hc, howner]
      exact Option.some.inj (huser.symm.trans howner')
    simp [inPage, hc, this]
  · simp [inPage, hc]

/-- The rows of a page query, when those it selects from are sorted. -/
theorem selectPage_eq {before : Option ℕ} {n : ℕ} {log l : List FourMessage}
    (hfilter : log.filter (inPage conversationId userId before) = l) (hl : Descending l) :
    selectPage conversationId userId before n log = l.take n := by
  unfold selectPage
  rw [hfilter, List.mergeSort_of_pairwise]
  refine hl.imp fun {a b} hab => ?_
  simpa using hab.le

@[simp] theorem cursor_toString {n : ℕ} (hn : n < 2 ^ 63) :
    cursor (some (toString n)) = .ok (some n) := by
  have hne : toString n ≠ "" := fun h => toList_toString_ne_nil n (by rw [h]; rfl)
  have hdigits : (toString n).toList.all Char.isDigit = true :=
    List.all_eq_true.mpr fun _ hc => isDigit_of_mem_toString hc
  have hbig : bigint (toString n) = .ok n := by
    unfold bigint
    rw [ofDigitChars_toString, if_pos ⟨toList_toString_ne_nil n, hdigits, hn⟩]
  unfold cursor
  simp only [Option.filter_some, trim_toString, decide_eq_true hne, if_true, hbig]
  rfl

theorem seq_lt_of_checked {m : FourMessage} (h : messageSchema.checkEntry m = .ok ()) :
    m.seq < 2 ^ 63 := by
  by_contra hseq
  simp only [messageSchema, if_pos (not_lt.mp hseq)] at h
  cases h

/-- The note of a reader, and that what it noted is still stored. -/
structure Noted (seen : List FourMessage) (s : WatchedDb) (i : ℕ) : Prop where
  note : (s.2 i).seen = some seen
  stored : seen <:+ s.1.committed.log

theorem Noted.stable {seen : List FourMessage}
    {s t : WatchedDb} (h : Noted seen s i)
    (hr : (logDiscipline base).rely i s t) : Noted seen t i :=
  ⟨(congrArg ReaderNote.seen hr.2).trans h.note, h.stored.trans hr.1.rely.log⟩

/-- A statement of the reader got no answer. -/
def Lost (i : ℕ) (s : WatchedDb) : Prop := (s.2 i).lost = true

/-- The rule of one page: it is the page of what `seen` holds before the cursor, where `seen` is
what the reader has noted when it has read it. -/
theorem triple_listMessages (userId conversationId : String) (limit : Option ℤ)
    {before : Option String} {b : Option ℕ} {P : WatchedDb → Prop} {W : List FourMessage → Prop}
    (hP : ∀ s t, P s → (logDiscipline base).rely i s t → P t) (hb : cursor before = .ok b)
    (hread : ∀ s, P s → Journaled messageJournal messageSchema s.1 →
      ownerOf s.1 conversationId = some userId →
      ∃ seen, ((s.2 i).seen <|> some s.1.committed.log) = some seen ∧
        seen <:+ s.1.committed.log ∧
        Descending (conversation conversationId seen) ∧ W seen ∧
        s.1.committed.log.filter (inPage conversationId userId b) =
          (conversation conversationId seen).filter fun m => b.all (m.seq < ·)) :
    Triple watchedLog (logDiscipline base) i P (listMessages userId conversationId limit before)
      (fun r t => match r with
        | none => ownerOf t.1 conversationId ≠ some userId
        | some page => ∃ seen, Noted seen t i ∧ W seen ∧
            Descending (conversation conversationId seen) ∧
            page = pageOf (pageSize limit) (((conversation conversationId seen).filter
              fun m => b.all (m.seq < ·)).take (pageSize limit + 1))) fun _ => Lost i := by
  unfold listMessages
  refine Triple.bind (R := fun r s => P s ∧ (ownerOf s.1 conversationId = some userId ↔
    r.isSome = true)) ?_ fun r => ?_
  · refine triple_answer hP (fun _ _ => trivial) fun s t o r hs _ he hnote => ?_
    cases o with
    | some f =>
      obtain ⟨rfl, -⟩ := Prod.ext_iff.mp (Option.some.inj he)
      simp [Query.lost, Lost, hnote, firstPage]
    | none =>
      simp only [journal, Query.run, Option.some.injEq, Prod.mk.injEq] at he
      obtain ⟨rfl, hst⟩ := he
      have hsame : t = s := Prod.ext hst.symm (hnote.trans (Function.update_eq_self ..))
      rw [hsame]
      refine ⟨hs, ?_⟩
      unfold ownerOf Journal.rowOwner
      cases s.1.committed.rows conversationId with
      | none => simp
      | some row => simp [messageJournal, Option.filter_some]
  · cases r with
    | none =>
        refine Triple.pure fun s hs howner => ?_
        simpa using hs.2.mp howner
    | some row =>
        simp only [hb]
        refine Triple.bind (R := fun rows t => ∃ seen, Noted seen t i ∧ W seen ∧
          Descending (conversation conversationId seen) ∧
          rows = ((conversation conversationId seen).filter
            fun m => b.all (m.seq < ·)).take (pageSize limit + 1)) ?_ fun rows => ?_
        · refine triple_answer (fun s t hs hr => ⟨hP s t hs.1 hr, ?_⟩) (fun _ _ => trivial)
            fun s t o r hs hinv he hnote => ?_
          · have howner := hr.1.owners conversationId
            simpa [ownerOf, howner] using hs.2
          cases o with
          | some f =>
            obtain ⟨rfl, -⟩ := Prod.ext_iff.mp (Option.some.inj he)
            simp [Query.lost, Lost, hnote, firstPage]
          | none =>
            simp only [journal, Query.run, Option.some.injEq, Prod.mk.injEq] at he
            obtain ⟨rfl, hst⟩ := he
            obtain ⟨seen, hseen, hstored, hdesc, hW, hfilter⟩ :=
              hread s hs.1 hinv.2 (hs.2.mpr rfl)
            refine ⟨seen, ⟨?_, ?_⟩, hW, hdesc, ?_⟩
            · rw [hnote, Function.update_self]
              exact hseen
            · rw [← hst]
              exact hstored
            · exact selectPage_eq hfilter (hdesc.filter _)
        · refine Triple.pure fun s hs => ?_
          obtain ⟨seen, hnoted, hW, hdesc, rfl⟩ := hs
          exact ⟨seen, hnoted, hW, hdesc, rfl⟩

/-- Following `nextBefore` from a message that was seen. -/
theorem triple_follow {seen : List FourMessage} (limits : List (Option ℤ)) {x : FourMessage}
    (hx : x ∈ conversation conversationId seen) (hseq : x.seq < 2 ^ 63)
    (hdesc : Descending (conversation conversationId seen)) :
    Triple watchedLog (logDiscipline base) i (fun s => Noted seen s i)
      (history userId conversationId limits (some (toString x.seq)))
      (fun r t => match r with
        | none => ownerOf t.1 conversationId ≠ some userId
        | some pages => Noted seen t i ∧
            Pages limits ((conversation conversationId seen).filter (·.seq < x.seq)) pages)
      fun _ => Lost i := by
  induction limits generalizing x with
  | nil => exact Triple.pure fun s hs => ⟨hs, .stop _⟩
  | cons limit limits ih =>
      obtain ⟨hxmem, hxconv⟩ := List.mem_filter.mp hx
      have hpage := triple_listMessages userId conversationId limit (W := (· = seen))
        (P := fun s => Noted seen s i) (fun s t hs (hr : (logDiscipline base).rely i s t) =>
          hs.stable hr) (cursor_toString hseq)
        (fun s hs hinv howner => by
          refine ⟨seen, by rw [hs.note]; rfl, hs.stored, hdesc, rfl, ?_⟩
          rw [filter_inPage hinv howner]
          unfold conversation
          rw [List.filter_filter, List.filter_filter]
          -- what is below `x` is as it was when the first page was read
          refine frozen_below hinv hs.stored hxmem fun m hm => ?_
          simp only [Option.all_some, Bool.and_eq_true, decide_eq_true_eq] at hm hxconv
          exact ⟨hm.2.trans hxconv.symm, hm.1⟩)
      unfold history
      refine hpage.bind fun r => ?_
      cases r with
      | none => exact Triple.pure fun s hs => hs
      | some page =>
          intro s hs
          obtain ⟨seen', hnoted, rfl, -, rfl⟩ := hs
          simp only [Option.all_some]
          rcases pageOf_cases (hdesc.filter (·.seq < x.seq)) (pageSize_pos limit) with
            ⟨hlen, hpage⟩ | ⟨y, hy, hlen, hpage, hrest⟩
          · rw [hpage]
            exact (wpe_pure _).mpr ⟨hnoted, .last limit limits _ hlen⟩
          · rw [hpage]
            obtain ⟨hyconv, hyx⟩ := List.mem_filter.mp hy
            have hyx' : y.seq < x.seq := by simpa using hyx
            have hbelow : ((conversation conversationId seen').filter (·.seq < x.seq)).filter
                (·.seq < y.seq) = (conversation conversationId seen').filter (·.seq < y.seq) := by
              rw [List.filter_filter]
              apply List.filter_congr
              intro m _
              by_cases hm : m.seq < y.seq <;> simp [hm]
              omega
            rw [wpe_bind]
            refine wpe_mono (fun rest t ht => ?_) (fun _ _ h => h)
              (ih hyconv (hyx'.trans hseq) s hnoted)
            cases rest with
            | none => exact (wpe_pure _).mpr ht
            | some pages =>
                refine (wpe_pure _).mpr ⟨ht.1, .more limit limits _ _ pages hlen ?_⟩
                rw [← hrest, hbelow]
                exact ht.2

/-- What `history` returns: nothing when the conversation is not the user's, else the pages of the
messages that were stored when it read the first one. -/
theorem triple_history (limits : List (Option ℤ)) :
    Triple watchedLog (logDiscipline base) i (fun s => (s.2 i).seen = none)
      (history userId conversationId limits none)
      (fun r t => match r with
        | none => ownerOf t.1 conversationId ≠ some userId
        | some pages => limits ≠ [] → ∃ seen, Noted seen t i ∧
            Descending (conversation conversationId seen) ∧
            Pages limits (conversation conversationId seen) pages) fun _ => Lost i := by
  cases limits with
  | nil => exact Triple.pure fun s _ h => absurd rfl h
  | cons limit limits =>
      have hpage := triple_listMessages userId conversationId limit (b := none)
        (W := fun seen => ∀ m ∈ seen, m.seq < 2 ^ 63) (P := fun s => (s.2 i).seen = none)
        (fun s t hs (hr : (logDiscipline base).rely i s t) =>
          (congrArg ReaderNote.seen hr.2).trans hs) (show cursor none = .ok none from rfl)
        (fun s hs hinv howner => by
          refine ⟨s.1.committed.log, by rw [hs]; rfl, List.suffix_refl _,
            descending_conversation hinv, fun m hm => ?_, filter_inPage hinv howner none⟩
          exact seq_lt_of_checked (hinv.checked m (List.mem_append_right _ hm)))
      unfold history
      refine hpage.bind fun r => ?_
      cases r with
      | none => exact Triple.pure fun s hs => hs
      | some page =>
          intro s hs
          obtain ⟨seen, hnoted, hseq, hdesc, rfl⟩ := hs
          simp only [Option.all_none, List.filter_true]
          rcases pageOf_cases hdesc (pageSize_pos limit) with
            ⟨hlen, hpage⟩ | ⟨y, hy, hlen, hpage, hrest⟩
          · rw [hpage]
            exact (wpe_pure _).mpr fun _ => ⟨seen, hnoted, hdesc, .last limit limits _ hlen⟩
          · rw [hpage, wpe_bind]
            refine wpe_mono (fun rest t ht => ?_) (fun _ _ h => h)
              (triple_follow limits hy (hseq y (List.mem_of_mem_filter hy)) hdesc s hnoted)
            cases rest with
            | none => exact (wpe_pure _).mpr ht
            | some pages =>
                refine (wpe_pure _).mpr fun _ => ⟨seen, ht.1, hdesc, ?_⟩
                refine .more limit limits _ _ pages hlen ?_
                rw [← hrest]
                exact ht.2

end reading

/-! ### Appends -/

/-- The message an append returns: the one it was given, or one stored before under the same client
identifier. -/
structure Returned (now : ℕ) (input : AppendMessageInput) (r : AppendMessageResult) : Prop where
  conversationId : r.message.conversationId = input.conversationId
  clientMessageId : r.message.clientMessageId = input.clientMessageId
  fresh : r.deduplicated = false → r.message = input.message now r.message.seq
  retry : r.deduplicated = true → input.clientMessageId.isSome = true

section appending

variable {base : Snapshot String ConversationRow FourMessage} {i now : ℕ}
  {input : AppendMessageInput}

/-- The session of an append holds its conversation and has inserted nothing. -/
structure Locked (input : AppendMessageInput) (i : ℕ)
    (s : WatchedDb) : Prop where
  owner : ownerOf s.1 input.conversationId = some input.userId
  own : s.1.isOpen i = true → s.1.own i = []
  held : s.1.isOpen i = true → ∃ v, s.1.locks input.conversationId = some (i, v)

theorem Locked.stable {s t : WatchedDb}
    (h : Locked input i s) (hr : (logDiscipline base).rely i s t) : Locked input i t where
  owner := (hr.1.owners _).trans h.owner
  own ho := (hr.1.rely.own ho).trans (h.own (hr.1.rely.isOpen ho))
  held ho := by
    obtain ⟨v, hv⟩ := h.held (hr.1.rely.isOpen ho)
    exact ⟨v, (hr.1.rely.locks ho _ v).mpr hv⟩

/-- The transaction of session `i`, if still open, sees the message. -/
def Sees (i : ℕ) (m : FourMessage) (s : WatchedDb) : Prop :=
  s.1.isOpen i = true → m ∈ s.1.own i ++ s.1.committed.log

theorem Sees.stable {m : FourMessage} {s t : WatchedDb}
    (h : Sees i m s) (hr : (logDiscipline base).rely i s t) : Sees i m t := by
  intro ho
  rw [hr.1.rely.own ho]
  rcases List.mem_append.mp (h (hr.1.rely.isOpen ho)) with hm | hm
  · exact List.mem_append_left _ hm
  · exact List.mem_append_right _ (hr.1.rely.log.subset hm)

theorem triple_lockConversation :
    Triple watchedLog (logDiscipline base) i (Begun i)
      (Backend.call (.lockWhere input.conversationId (·.userId = input.userId)))
      (fun r s => r.isSome = true → Locked input i s) fun _ _ => True := by
  apply triple_query
  · intro f db
    rfl
  · exact fun s t hs hr => hs.stable hr
  · exact fun _ _ => trivial
  · intro s t r hs hinv he hsome
    obtain ⟨row, rfl⟩ := Option.isSome_iff_exists.mp hsome
    simp only [Query.run] at he
    split at he
    · rename_i ho
      split at he
      · simp at he
      · rename_i r' hr'
        split at he
        · cases he
        · simp only [Option.some.injEq, Prod.mk.injEq, Except.ok.injEq] at he
          obtain ⟨rfl, ht⟩ := he
          obtain ⟨hvis, huser⟩ := Option.filter_eq_some_iff.mp hr'
          refine ⟨?_, fun _ => ?_, fun _ => ?_⟩
          · rw [← ht]
            have howner := hinv.2.visible_owner i input.conversationId
            rw [hvis] at howner
            exact howner.symm.trans (by simpa [messageJournal] using huser)
          · rw [← ht]
            exact hs ho
          · rw [← ht]
            exact ⟨some r', by simp [Db.hold]⟩
    · simp [failed] at he

theorem triple_insertMessage :
    Triple watchedLog (logDiscipline base) i (Locked input i)
      (Backend.call (.insertNew (input.message now)))
      (fun r s => match r with
        | none => True
        | some m => m = input.message now m.seq ∧ Sees i m s) fun _ _ => True := by
  apply triple_query
  · intro f db
    rfl
  · exact fun s t hs hr => hs.stable hr
  · exact fun s hs n => ⟨rfl, fun ho => ⟨hs.held ho, hs.owner⟩⟩
  · intro s t r _ _ he
    cases r with
    | none => trivial
    | some m =>
        simp only [Query.run] at he
        split at he
        · split at he
          · simp [failed] at he
          · split at he
            · cases he
            · split at he
              · simp at he
              · simp only [Option.some.injEq, Prod.mk.injEq, Except.ok.injEq] at he
                obtain ⟨rfl, ht⟩ := he
                refine ⟨rfl, fun _ => ?_⟩
                rw [← ht]
                exact List.mem_append_left _ (mem_own.mpr List.mem_cons_self)
        · simp [failed] at he

theorem triple_findMessage {q : FourMessage → Bool} :
    Triple watchedLog (logDiscipline base) i (fun _ => True) (Backend.call (.find q))
      (fun r s => ∀ m, r = some m → q m = true ∧ Sees i m s) fun _ _ => True := by
  apply triple_query
  · intro f db
    rfl
  · exact fun _ _ _ _ => trivial
  · exact fun _ _ => trivial
  · intro s t r _ _ he m hm
    simp only [Query.run] at he
    split at he
    · simp only [Option.some.injEq, Prod.mk.injEq, Except.ok.injEq] at he
      obtain ⟨rfl, ht⟩ := he
      refine ⟨List.find?_some hm, fun _ => ?_⟩
      rw [← ht]
      exact List.mem_of_find?_eq_some hm
    · simp [failed] at he

theorem triple_touch {m : FourMessage} {title : Option Title} :
    Triple watchedLog (logDiscipline base) i (Sees i m)
      (Backend.call (.update input.conversationId (.touch now title)))
      (fun _ => Sees i m) fun _ _ => True := by
  apply triple_query
  · intro f db
    rfl
  · exact fun s t hs hr => hs.stable hr
  · exact fun _ _ _ => rfl
  · intro s t r hs _ he
    simp only [Query.run] at he
    split at he
    · rename_i ho
      split at he
      · cases he
      · split at he
        · simp only [Option.some.injEq, Prod.mk.injEq] at he
          rw [Sees, ← he.2]
          exact hs
        · split at he
          · simp [failed] at he
          · simp only [Option.some.injEq, Prod.mk.injEq] at he
            rw [Sees, ← he.2]
            exact hs
    · simp [failed] at he

/-- What an append returns is stored. -/
theorem triple_appendMessage :
    Triple watchedLog (logDiscipline base) i (Closed i) (appendMessage now input)
      (fun r t => ∀ res, r = some res → Returned now input res ∧
        res.message ∈ t.1.committed.log) fun _ _ => True := by
  refine triple_inTransaction
    (P := fun r s => ∀ res, r = some res → Returned now input res ∧ Sees i res.message s)
    (Q := fun r db => ∀ res, r = some res → Returned now input res ∧
      res.message ∈ db.committed.log) ?_ ?_ ?_
  · unfold appendSteps
    refine triple_lockConversation.bind fun row => ?_
    cases row with
    | none => exact Triple.pure fun s _ res hres => by cases hres
    | some row =>
        refine Triple.mono (P := Locked input i) ?_ (fun s hs => hs rfl) (fun _ _ h => h)
          fun _ _ h => h
        unfold storeMessage
        refine triple_insertMessage.bind fun inserted => ?_
        cases inserted with
        | none =>
            refine triple_findMessage.bind fun existing => ?_
            cases existing with
            | none => exact Triple.throw fun _ _ => trivial
            | some m =>
                refine Triple.pure fun s hs res hres => ?_
                cases hres
                obtain ⟨hq, hsees⟩ := hs m rfl
                simp only [Bool.and_eq_true, decide_eq_true_eq] at hq
                refine ⟨⟨hq.1.1, hq.2, fun h => (by cases h), fun _ => ?_⟩, hsees⟩
                rw [← hq.2]
                exact hq.1.2
        | some m =>
            refine Triple.assume fun hm => triple_touch.bind fun _ => ?_
            refine Triple.pure fun s hs res hres => ?_
            cases hres
            refine ⟨⟨?_, ?_, fun _ => hm, fun h => (by cases h)⟩, hs⟩
            · rw [hm]
              rfl
            · rw [hm]
              rfl
  · intro r s t hs hr res hres
    obtain ⟨hret, hsees⟩ := hs res hres
    exact ⟨hret, hsees.stable hr⟩
  · intro r s hs ho _ res hres
    obtain ⟨hret, hsees⟩ := hs res hres
    exact ⟨hret, hsees ho⟩

end appending

/-! ### Every run -/

/-- The tables as earlier calls have left them: no transaction is open. -/
structure Intact (db : MessageDb) : Prop where
  sound : Sound messageSchema db.committed db
  journaled : Journaled messageJournal messageSchema db
  closed : ∀ i, db.isOpen i = false

/-- A pool of calls on the message log, beside their notes. -/
abbrev LogPool := Pool MessageQuery LogResult WatchedDb

/-- The pool in which the calls begin. -/
def startLog (db : MessageDb) (calls : List LogCall) : LogPool :=
  Pool.noted ⟨db, calls.map LogCall.program⟩ {}

/-- What a client has that has followed `nextBefore`: messages of the conversation that were stored
when it read its first page, once and in order; all of them when the pages have ended, which they
do once there is room for them. -/
structure Complete (seen : List FourMessage) (conversationId : String) (limits : List (Option ℤ))
    (pages : List ListMessagesResult) : Prop where
  ascending : (messagesOf pages).Pairwise (·.seq < ·.seq)
  existing : ∀ m ∈ messagesOf pages, m ∈ seen ∧ m.conversationId = conversationId
  all : Ended pages → ∀ m ∈ seen, m.conversationId = conversationId → m ∈ messagesOf pages
  ended : (conversation conversationId seen).length ≤ (limits.map pageSize).sum → Ended pages

theorem Pages.complete {seen : List FourMessage} {conversationId : String}
    {limits : List (Option ℤ)} {pages : List ListMessagesResult} (hne : limits ≠ [])
    (hdesc : Descending (conversation conversationId seen))
    (h : Pages limits (conversation conversationId seen) pages) :
    Complete seen conversationId limits pages := by
  obtain ⟨rest, hsplit, hend⟩ := h.split
  have hmem : ∀ m, m ∈ conversation conversationId seen ↔
      m ∈ seen ∧ m.conversationId = conversationId := by
    intro m
    simp [conversation]
  refine ⟨?_, fun m hm => ?_, fun hended m hm hconv => ?_, h.ended hne⟩
  · unfold Descending at hdesc
    rw [hsplit] at hdesc
    exact List.pairwise_reverse.mp (List.pairwise_append.mp hdesc).1
  · refine (hmem m).mp ?_
    rw [hsplit]
    exact List.mem_append_left _ (List.mem_reverse.mpr hm)
  · have hin := (hmem m).mpr ⟨hm, hconv⟩
    rw [hsplit, hend hended, List.append_nil] at hin
    exact List.mem_reverse.mp hin

/-- How a call ends. -/
def Ends (call : LogCall) (i : ℕ) (r : LogResult) (s : WatchedDb) : Prop :=
  match call, r with
  | .append now input, .appended (.ok (some res)) =>
      Returned now input res ∧ res.message ∈ s.1.committed.log
  | .append _ _, .appended _ => True
  | .history _ _ _, .listed (.error _) => Lost i s
  | .history userId conversationId _, .listed (.ok none) =>
      ownerOf s.1 conversationId ≠ some userId
  | .history _ conversationId limits, .listed (.ok (some pages)) =>
      limits ≠ [] → ∃ seen, Noted seen s i ∧ Complete seen conversationId limits pages
  | .terminate _, .terminated => True
  | _, _ => False

theorem Ends.stable {base : Snapshot String ConversationRow FourMessage} {call : LogCall} {i : ℕ}
    {r : LogResult} {s t : WatchedDb} (h : Ends call i r s)
    (hr : (logDiscipline base).rely i s t) : Ends call i r t := by
  unfold Ends at *
  split at h
  · exact ⟨h.1, hr.1.rely.log.subset h.2⟩
  · exact h
  · exact (congrArg ReaderNote.lost hr.2).trans h
  · rwa [ownerOf, hr.1.owners]
  · intro hne
    obtain ⟨seen, hnoted, hcomplete⟩ := h hne
    exact ⟨seen, hnoted.stable hr, hcomplete⟩
  · exact h
  · exact h

section runs

variable {base : Snapshot String ConversationRow FourMessage} {i : ℕ} {db : MessageDb}
  {calls : List LogCall}

/-- Every call keeps the discipline and ends as it should. -/
theorem wp_call (call : LogCall) {s : WatchedDb} (hclosed : Closed i s) (hnote : s.2 i = {}) :
    wp watchedLog (logDiscipline base) i call.program (Ends call i) s := by
  cases call with
  | append now input =>
      unfold LogCall.program
      rw [wp_bind]
      refine wp_mono ?_ _ _ (triple_appendMessage s hclosed)
      rintro (e | _ | res) t ht
      · exact (wp_ret _ _ _ _ _ _).mpr trivial
      · exact (wp_ret _ _ _ _ _ _).mpr trivial
      · exact (wp_ret _ _ _ _ _ _).mpr (ht res rfl)
  | history userId conversationId limits =>
      unfold LogCall.program
      rw [wp_bind]
      refine wp_mono ?_ _ _ (triple_history limits s (congrArg ReaderNote.seen hnote))
      rintro (e | _ | pages) t ht
      · exact (wp_ret _ _ _ _ _ _).mpr ht
      · exact (wp_ret _ _ _ _ _ _).mpr ht
      · refine (wp_ret _ _ _ _ _ _).mpr fun hne => ?_
        obtain ⟨seen, hnoted, hdesc, hpages⟩ := ht hne
        exact ⟨seen, hnoted, hpages.complete hne hdesc⟩
  | terminate j =>
      refine (wp_act _ _ _ _ _ _ _).mpr fun s₁ _ hinv o _ b s₂ he => ?_
      obtain ⟨hinv', hrely⟩ := noted_step he trivial hinv
      exact ⟨trivial, hinv', hrely, (wp_ret _ _ _ _ _ _).mpr trivial⟩

/-- Every pool of calls stays verified. -/
theorem startLog_verified (hdb : Intact db) (calls : List LogCall)
    (sched : List (ℕ × Option DbError)) :
    Pool.Verified watchedLog (logDiscipline db.committed)
      (fun i r s => ∀ call, calls[i]? = some call → Ends call i r s)
      (Pool.run watchedLog (startLog db calls) sched) := by
  have hinv : (logDiscipline db.committed).inv (db, fun _ => {}) := ⟨hdb.sound, hdb.journaled⟩
  refine Pool.run_verified (fun _ _ _ _ => trivial)
    (Pool.Verified.start hinv fun i q hq => ?_) sched
  obtain ⟨call, hcall, rfl⟩ : ∃ call, calls[i]? = some call ∧ call.program = q := by
    simpa using hq
  refine wp_mono (fun r t ht call' hcall' => ?_) _ _ (wp_call call (hdb.closed i) rfl)
  rw [hcall] at hcall'
  cases hcall'
  exact ht

/-- A reader returns within two statements a page. -/
theorem within_history (userId conversationId : String) (limits : List (Option ℤ))
    (before : Option String) :
    Within watchedLog i (2 * limits.length) (history userId conversationId limits before).run := by
  have hrow : ∀ (q : MessageQuery (Except DbError (Option ConversationRow)))
      (_ : q = .row conversationId (·.userId = userId)),
      Within watchedLog i 1 (Backend.call q).run := by
    rintro q rfl
    refine Within.perform fun o s => ?_
    cases o <;> rfl
  have hpage : ∀ b n, Within watchedLog i 1 (Backend.call
      (.entries (selectPage conversationId userId b n)) :
        ExceptT DbError (Prog MessageQuery) (List FourMessage)).run := by
    intro b n
    refine Within.perform fun o s => ?_
    cases o <;> rfl
  have hlist : ∀ limit before, Within watchedLog i 2
      (listMessages userId conversationId limit before).run := by
    intro limit before
    unfold listMessages
    refine Within.bindE (m := 1) (n := 1) (hrow _ rfl) fun r => ?_
    cases r with
    | none => trivial
    | some row =>
        cases cursor before with
        | error e => trivial
        | ok b => exact Within.bindE (m := 1) (n := 0) (hpage b _) fun rows => trivial
  induction limits generalizing before with
  | nil => trivial
  | cons limit limits ih =>
      unfold history
      rw [List.length_cons, Nat.mul_succ, Nat.add_comm]
      refine Within.bindE (hlist limit before) fun r => ?_
      cases r with
      | none => exact Within.mono (Nat.zero_le _) trivial
      | some page =>
          dsimp only
          cases page.nextBefore with
          | none => exact Within.mono (Nat.zero_le _) trivial
          | some next => exact Within.bindE (n := 0) (ih (some next)) fun rest => trivial

end runs

/-! ### An append that is let run -/

/-- No statement is lost. -/
def Answered {β : Type} (_ : ℕ) (_ : MessageQuery β) (o : Option DbError) (_ : WatchedDb) : Prop :=
  o = none

section alone

variable {i : ℕ} {s : WatchedDb} {now : ℕ} {input : AppendMessageInput} {row : ConversationRow}

theorem reaches_query {β : Type} {q : MessageQuery (Except DbError β)} {b : β} (db : MessageDb)
    (h : q.run messageSchema i s.1 = some (.ok b, db)) :
    ∃ notes, Reaches watchedLog Answered i (Backend.call q).run s (ret (.ok b)) (db, notes) := by
  refine ⟨Function.update s.2 i (firstPage q none s.1 (.ok b) db (s.2 i)),
    .step none rfl ?_ (.refl _ _)⟩
  have he : (journal messageSchema).exec i q none s.1 = some (.ok b, db) := h
  simp only [Machine.noting, he, Option.map_some]

/-- The session holds its conversation, and no other is in a transaction. -/
structure Alone (i : ℕ) (input : AppendMessageInput) (row : ConversationRow) (db : MessageDb) :
    Prop where
  isOpen : db.isOpen i = true
  lock : db.locks input.conversationId = some (i, some row)
  inflight : db.inflight = []

/-- The message that made an insert conflict is found. -/
theorem clash_found {m n : FourMessage} (h : m.clashes n = true) :
    (n.conversationId = m.conversationId && n.clientMessageId.isSome &&
      n.clientMessageId = m.clientMessageId) = true := by
  simp only [FourMessage.clashes, Bool.and_eq_true, decide_eq_true_eq] at h ⊢
  obtain ⟨⟨hconv, hsome⟩, hclient⟩ := h
  exact ⟨⟨hconv.symm, hclient ▸ hsome⟩, hclient.symm⟩

theorem reaches_store (now : ℕ) (hs : Alone i input row s.1)
    (hchecked : messageSchema.checkEntry (input.message now s.1.nextId) = .ok ()) :
    ∃ r t, t.1.isOpen i = true ∧
      Reaches watchedLog Answered i (storeMessage now input row).run s (ret (.ok (some r))) t := by
  have hown : s.1.own i = [] := by simp [Db.own, hs.inflight]
  by_cases hclash : s.1.committed.log.any
      (messageSchema.clash (input.message now s.1.nextId)) = true
  · -- the client has sent the message before
    obtain ⟨notes, hskip⟩ := reaches_query (i := i) (s := s)
      (q := .insertNew (input.message now)) (b := none)
      { s.1 with nextId := s.1.nextId + 1 } (by
        simp [Query.run, hs.isOpen, hchecked, Db.others, hs.inflight, hown, hclash])
    obtain ⟨m, hm, hclash⟩ := List.any_eq_true.mp hclash
    obtain ⟨existing, hfound⟩ : ∃ existing, s.1.committed.log.find? (fun m =>
        m.conversationId = input.conversationId && m.clientMessageId.isSome &&
          m.clientMessageId = input.clientMessageId) = some existing :=
      Option.isSome_iff_exists.mp (List.find?_isSome.mpr ⟨m, hm, clash_found hclash⟩)
    obtain ⟨notes', hfind⟩ := reaches_query (i := i)
      (s := ({ s.1 with nextId := s.1.nextId + 1 }, notes))
      (q := .find fun m => m.conversationId = input.conversationId &&
        m.clientMessageId.isSome && m.clientMessageId = input.clientMessageId)
      (b := some existing) { s.1 with nextId := s.1.nextId + 1 } (by
        have hown' : Db.own { s.1 with nextId := s.1.nextId + 1 } i = [] := hown
        simp only [Query.run, hs.isOpen, if_true, hown', List.nil_append, hfound])
    refine ⟨⟨existing, true⟩, _, ?_, (hskip.bind_ok _).trans (hfind.bind_ok _)⟩
    exact hs.isOpen
  · obtain ⟨notes, hinsert⟩ := reaches_query (i := i) (s := s)
      (q := .insertNew (input.message now)) (b := some (input.message now s.1.nextId))
      { s.1 with
        inflight := [(i, input.message now s.1.nextId)]
        nextId := s.1.nextId + 1 } (by
        simp only [Bool.not_eq_true] at hclash
        simp [Query.run, hs.isOpen, hchecked, Db.others, hs.inflight, hown, hclash])
    obtain ⟨notes', hupdate⟩ := reaches_query (i := i)
      (s := ({ s.1 with
        inflight := [(i, input.message now s.1.nextId)]
        nextId := s.1.nextId + 1 }, notes))
      (q := .update input.conversationId (.touch now (input.nextTitle row))) (b := ())
      (Db.hold { s.1 with
        inflight := [(i, input.message now s.1.nextId)]
        nextId := s.1.nextId + 1 } i input.conversationId
          (some (row.touch now (input.nextTitle row)))) (by
        simp [Query.run, hs.isOpen, Db.visible, Db.heldByOther, hs.lock, messageSchema])
    refine ⟨⟨_, false⟩, _, ?_, (hinsert.bind_ok _).trans (hupdate.bind_ok _)⟩
    exact hs.isOpen

/-- An append that starts while no transaction is open returns a message when it is let run. -/
theorem reaches_append
    (hsound : ∀ k j v, s.1.locks k = some (j, v) → s.1.isOpen j = true)
    (hinflight : ∀ x ∈ s.1.inflight, s.1.isOpen x.1 = true)
    (hclosed : ∀ j, s.1.isOpen j = false)
    (howner : ownerOf s.1 input.conversationId = some input.userId)
    (hchecked : messageSchema.checkEntry (input.message now s.1.nextId) = .ok ()) :
    ∃ r t, Reaches watchedLog Answered i (LogCall.append now input).program s
      (ret (.appended (.ok (some r)))) t := by
  have hlocks : ∀ k, s.1.locks k = none := by
    intro k
    cases hk : s.1.locks k with
    | none => rfl
    | some x => simpa [hclosed] using hsound k x.1 x.2 hk
  have hnone : s.1.inflight = [] := by
    refine List.eq_nil_iff_forall_not_mem.mpr fun x hx => ?_
    simpa [hclosed] using hinflight x hx
  obtain ⟨row, hrow, huser⟩ := Option.map_eq_some_iff.mp howner
  obtain ⟨notes, hbegin⟩ := reaches_query (i := i) (s := s) (q := .begin) (b := ())
    { s.1 with isOpen := Function.update s.1.isOpen i true } rfl
  obtain ⟨notes', hlock⟩ := reaches_query (i := i)
    (s := ({ s.1 with isOpen := Function.update s.1.isOpen i true }, notes))
    (q := .lockWhere input.conversationId (·.userId = input.userId)) (b := some row)
    (Db.hold { s.1 with isOpen := Function.update s.1.isOpen i true } i
      input.conversationId (some row)) (by
      have huser' : row.userId = input.userId := huser
      simp [Query.run, Db.visible, hlocks, hrow, huser', Db.heldByOther, Option.filter_some])
  have halone : Alone i input row (Db.hold { s.1 with
      isOpen := Function.update s.1.isOpen i true } i input.conversationId (some row)) :=
    ⟨by simp [Db.hold], by simp [Db.hold], hnone⟩
  obtain ⟨r, t, hopen, hstore⟩ := reaches_store (s := (_, notes')) now halone hchecked
  obtain ⟨notes'', hcommit⟩ := reaches_query (i := i) (s := t) (q := .commit) (b := ())
    (t.1.finish i) (by simp [Query.run, hopen])
  have hbody : Reaches watchedLog Answered i
      (do let b ← appendSteps now input; Backend.call .commit; return b :
        ExceptT DbError (Prog MessageQuery) (Option AppendMessageResult)).run _
      (ret (.ok (some r))) (t.1.finish i, notes'') :=
    (((hlock.bind_ok _).trans hstore).bind_ok _).trans (hcommit.bind_ok _)
  refine ⟨r, (t.1.finish i, notes''), ?_⟩
  have happend : Reaches watchedLog Answered i (appendMessage now input).run s
      (ret (.ok (some r))) (t.1.finish i, notes'') :=
    (hbegin.bind_ok _).trans (hbody.tryCatch_of _)
  exact happend.bind _

end alone

/-- What holds of the message log after a schedule: calls that have returned ended as they should,
a client identifier has one message in a conversation, readers that were scheduled often enough
have returned, and an append that has not started returns a message when it is let run. -/
structure LogHolds (calls : List LogCall) (sched : List (ℕ × Option DbError)) (P : LogPool) :
    Prop where
  ended : ∀ i call r, calls[i]? = some call → P.procs[i]? = some (.ret r) → Ends call i r P.store
  one : ∀ m ∈ P.store.1.committed.log, ∀ n ∈ P.store.1.committed.log, m.clashes n = true → m = n
  listed : ∀ i userId conversationId limits,
    calls[i]? = some (.history userId conversationId limits) →
      2 * limits.length ≤ sched.countP (·.1 = i) → ∃ r, P.procs[i]? = some (.ret (.listed r))
  appended : ∀ i now input, P.procs[i]? = some (LogCall.append now input).program →
    (∀ j, P.store.1.isOpen j = false) →
    ownerOf P.store.1 input.conversationId = some input.userId →
    messageSchema.checkEntry (input.message now P.store.1.nextId) = .ok () →
      ∃ r t, Reaches watchedLog Answered i (LogCall.append now input).program P.store
        (ret (.appended (.ok (some r)))) t

/-- A conversation in which nothing has been said. -/
def quietConversation : MessageDb where
  committed := ⟨fun k => if k = "c" then some { userId := "ada" } else none, []⟩
  locks _ := none
  inflight := []
  isOpen _ := false
  nextId := 1
  wal := []

theorem quietConversation_intact : Intact quietConversation where
  sound := ⟨fun _ _ _ h => (by cases h), fun _ h => (by cases h), .nil, rfl⟩
  journaled := ⟨fun _ h => (by cases h), fun _ h => (by cases h), fun _ h => (by cases h),
    fun _ => .nil, fun _ _ _ h => (by cases h), fun _ h => (by cases h)⟩
  closed _ := rfl

end DayfiBackend.Four
