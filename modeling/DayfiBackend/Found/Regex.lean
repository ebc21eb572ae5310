import DayfiBackend.Found.Keys

/-!
# Regular expressions

The regular expressions of ECMAScript, over characters: sequence, ordered choice, greedy and lazy
repetition, groups that capture, and assertions about the characters next to a position. `run` is
the backtracking matcher: it hands what follows a continuation, and takes the first way to match
that the continuation accepts.

* What a repetition of one character does is said by three rules: it takes all it can when the rest
  accepts that (`run_star_full`), it fails when the rest accepts no part of it (`run_star_none`),
  and a lazy one stops at the first place that the rest accepts (`run_lazy_first`).
* A match is one of the relation `Matches` (`matches_of_run`); so a text without the characters
  that an expression needs has no match (`search_eq_none`).
-/

namespace DayfiBackend.Found.Regex

open DayfiBackend.Found.Keys

/-- Where a match stands: what is before it, backwards, what is left, and what is captured. -/
structure At where
  before : List Char
  rest : List Char
  groups : List (ℕ × List Char) := []
  deriving DecidableEq, Repr

namespace At

/-- One character further. -/
def next (s : At) (c : Char) (cs : List Char) : At := { s with before := c :: s.before, rest := cs }

/-- Some characters further. -/
def skip (s : At) (u v : List Char) : At := { s with before := u.reverse ++ s.before, rest := v }

/-- What is between two places. -/
def upTo (s t : At) : List Char := s.rest.take (s.rest.length - t.rest.length)

/-- A group is captured. -/
def capture (s : At) (n : ℕ) (text : List Char) : At := { s with groups := (n, text) :: s.groups }

/-- What a group has captured last. -/
def group (s : At) (n : ℕ) : Option (List Char) := s.groups.lookup n

end At

/-- A regular expression. -/
inductive Re where
  | empty
  | one (p : Char → Bool)
  | seq (a b : Re)
  | alt (a b : Re)
  | star (a : Re)
  | lazy (a : Re)
  | group (n : ℕ) (a : Re)
  | look (p : Option Char → Option Char → Bool)

variable {α : Type}

/-- As often as possible, no iteration being empty. -/
def loop (m : (At → Option α) → At → Option α) (k : At → Option α) : ℕ → At → Option α
  | 0, s => k s
  | n + 1, s =>
      (m (fun t => if t.rest.length < s.rest.length then loop m k n t else none) s).or (k s)

/-- As seldom as possible. -/
def lazyLoop (m : (At → Option α) → At → Option α) (k : At → Option α) : ℕ → At → Option α
  | 0, s => k s
  | n + 1, s =>
      (k s).or (m (fun t => if t.rest.length < s.rest.length then lazyLoop m k n t else none) s)

namespace Re

/-- The first way to match from a place that the continuation accepts. -/
def run : Re → (At → Option α) → At → Option α
  | empty, k, s => k s
  | one p, k, s =>
      match s.rest with
      | [] => none
      | c :: cs => if p c then k (s.next c cs) else none
  | seq a b, k, s => a.run (b.run k) s
  | alt a b, k, s => (a.run k s).or (b.run k s)
  | star a, k, s => loop a.run k s.rest.length s
  | lazy a, k, s => lazyLoop a.run k s.rest.length s
  | group n a, k, s => a.run (fun t => k (t.capture n (s.upTo t))) s
  | look p, k, s => if p s.before.head? s.rest.head? then k s else none

/-! ### Abbreviations -/

/-- `a?`. -/
def opt (a : Re) : Re := alt a empty

/-- `a+`. -/
def plus (a : Re) : Re := seq a (star a)

/-- `a+?`. -/
def lazyPlus (a : Re) : Re := seq a (lazy a)

/-- `a{n}`. -/
def rep (a : Re) : ℕ → Re
  | 0 => empty
  | n + 1 => seq a (rep a n)

/-- `a{0,n}`. -/
def atMost (a : Re) : ℕ → Re
  | 0 => empty
  | n + 1 => opt (seq a (atMost a n))

/-- `a{0,n}?`. -/
def lazyAtMost (a : Re) : ℕ → Re
  | 0 => empty
  | n + 1 => alt empty (seq a (lazyAtMost a n))

/-- `a{m,n}`. -/
def between (a : Re) (m n : ℕ) : Re := seq (rep a m) (atMost a (n - m))

/-- `a{n,}`. -/
def atLeast (a : Re) (n : ℕ) : Re := seq (rep a n) (star a)

/-- One of several. -/
def anyOf : List Re → Re
  | [] => one fun _ => false
  | [a] => a
  | a :: as => alt a (anyOf as)

/-- One after the other. -/
def all : List Re → Re
  | [] => empty
  | [a] => a
  | a :: as => seq a (all as)

/-- A text, in upper or lower case; the text given is in lower case. -/
def text (w : String) : Re := all (w.toList.map fun c => one fun d => d.toLower = c)

end Re

/-- `\w`. -/
def isWord (c : Char) : Bool := c.isAlphanum || c = '_'

/-- What `.` matches. -/
def isPlain (c : Char) : Bool := c.toNat ∉ [0xA, 0xD, 0x2028, 0x2029]

/-- `\b`. -/
def boundary : Re := .look fun a b => a.any isWord != b.any isWord

/-- `^`. -/
def first : Re := .look fun a _ => a.isNone

/-- `$`. -/
def last : Re := .look fun _ b => b.isNone

/-- `\d`. -/
def digit : Re := .one Char.isDigit

/-- `\s`. -/
def space : Re := .one isSpace

/-- `.`. -/
def any : Re := .one isPlain

/-! ### Searching -/

/-- The first place from which there is a match, and the place where that ends. -/
def search (r : Re) (before : List Char) : List Char → Option (At × At)
  | [] => (r.run some ⟨before, [], []⟩).map (⟨before, [], []⟩, ·)
  | c :: cs =>
      match r.run some ⟨before, c :: cs, []⟩ with
      | some t => some (⟨before, c :: cs, []⟩, t)
      | none => search r (c :: before) cs

/-- `text.match(r)`: the end of the first match. -/
def exec (r : Re) (text : List Char) : Option At := (search r [] text).map Prod.snd

/-- `r.test(text)`. -/
def test (r : Re) (text : List Char) : Bool := (exec r text).isSome

/-- `text.replace(r, by)` with the flag `g`; every match is replaced, up to as many as the text has
characters. -/
def replaceFrom (r : Re) (by' : List Char) : ℕ → List Char → List Char → List Char
  | 0, _, rest => rest
  | n + 1, before, rest =>
      match search r before rest with
      | none => rest
      | some (s, t) =>
          let front := rest.take (rest.length - s.rest.length)
          if t.rest.length < s.rest.length then
            front ++ by' ++ replaceFrom r by' n t.before t.rest
          else
            match t.rest with
            | [] => front ++ by'
            | c :: cs => front ++ by' ++ c :: replaceFrom r by' n (c :: t.before) cs

/-- `text.replace(r, by)` with the flag `g`. -/
def replaceAll (r : Re) (by' : List Char) (text : List Char) : List Char :=
  replaceFrom r by' (text.length + 1) [] text

/-! ### One step -/

section run

variable {r a b : Re} {p : Char → Bool} {k : At → Option α} {s t : At} {x : α}
  {u v before : List Char} {c : Char} {g : List (ℕ × List Char)} {n : ℕ}

@[simp] theorem run_empty : Re.empty.run k s = k s := rfl

@[simp] theorem run_seq : (Re.seq a b).run k s = a.run (b.run k) s := rfl

@[simp] theorem run_alt : (Re.alt a b).run k s = (a.run k s).or (b.run k s) := rfl

@[simp] theorem run_opt : a.opt.run k s = (a.run k s).or (k s) := rfl

@[simp] theorem run_group :
    (Re.group n a).run k s = a.run (fun t => k (t.capture n (s.upTo t))) s := rfl

@[simp] theorem run_plus : a.plus.run k s = a.run (a.star.run k) s := rfl

@[simp] theorem run_lazyPlus : a.lazyPlus.run k s = a.run (a.lazy.run k) s := rfl

@[simp] theorem run_look {q : Option Char → Option Char → Bool} :
    (Re.look q).run k s = if q s.before.head? s.rest.head? then k s else none := rfl

@[simp] theorem run_one_nil : (Re.one p).run k ⟨before, [], g⟩ = none := rfl

@[simp] theorem run_one_cons :
    (Re.one p).run k ⟨before, c :: v, g⟩ = if p c then k ⟨c :: before, v, g⟩ else none := rfl

/-- What is between a place and one some characters further. -/
@[simp] theorem upTo_skip (h : List (ℕ × List Char)) :
    At.upTo ⟨before, u ++ v, g⟩ ⟨u.reverse ++ before, v, h⟩ = u := by
  simp [At.upTo]

/-! ### Repetitions of a character -/

theorem run_star_nil : (Re.star a).run k ⟨before, [], g⟩ = k ⟨before, [], g⟩ := rfl

theorem run_star_cons : (Re.star (.one p)).run k ⟨before, c :: v, g⟩ =
    (if p c then (Re.star (.one p)).run k ⟨c :: before, v, g⟩ else none).or
      (k ⟨before, c :: v, g⟩) := by
  show (if p c then _ else none).or _ = _
  simp [At.next, Re.run]

theorem run_lazy_nil : (Re.lazy a).run k ⟨before, [], g⟩ = k ⟨before, [], g⟩ := rfl

theorem run_lazy_cons : (Re.lazy (.one p)).run k ⟨before, c :: v, g⟩ =
    (k ⟨before, c :: v, g⟩).or
      (if p c then (Re.lazy (.one p)).run k ⟨c :: before, v, g⟩ else none) := by
  show (k _).or (if p c then _ else none) = _
  simp [At.next, Re.run]

/-- It takes all it can when the rest accepts that. -/
theorem run_star_full (hu : ∀ c ∈ u, p c = true) (hv : ∀ c ∈ v.head?, p c = false)
    (hk : k ⟨u.reverse ++ before, v, g⟩ = some x) :
    (Re.star (.one p)).run k ⟨before, u ++ v, g⟩ = some x := by
  induction u generalizing before with
  | nil =>
      cases v with
      | nil => exact hk
      | cons c v =>
          have hk : k ⟨before, c :: v, g⟩ = some x := hk
          rw [List.nil_append, run_star_cons, hv c rfl, hk]
          rfl
  | cons c u ih =>
      have hk : k ⟨u.reverse ++ c :: before, v, g⟩ = some x := by simpa using hk
      rw [List.cons_append, run_star_cons, if_pos (hu c List.mem_cons_self),
        ih (fun d hd => hu d (List.mem_cons_of_mem c hd)) hk]
      rfl

/-- It fails when the rest accepts no part of it. -/
theorem run_star_none (hv : ∀ c ∈ v.head?, p c = false)
    (hk : ∀ u₁ u₂, u = u₁ ++ u₂ → k ⟨u₁.reverse ++ before, u₂ ++ v, g⟩ = none) :
    (Re.star (.one p)).run k ⟨before, u ++ v, g⟩ = none := by
  induction u generalizing before with
  | nil =>
      have hnone : k ⟨before, v, g⟩ = none := hk [] [] rfl
      cases v with
      | nil => exact hnone
      | cons c v =>
          rw [List.nil_append, run_star_cons, hv c rfl, hnone]
          rfl
  | cons c u ih =>
      have hnone : k ⟨before, c :: (u ++ v), g⟩ = none := hk [] (c :: u) rfl
      have hrest : (Re.star (.one p)).run k ⟨c :: before, u ++ v, g⟩ = none := by
        refine ih fun u₁ u₂ hu => ?_
        simpa using hk (c :: u₁) u₂ (by rw [hu]; rfl)
      rw [List.cons_append, run_star_cons, hnone, hrest]
      split_ifs <;> rfl

/-- A lazy one stops at the first place that the rest accepts. -/
theorem run_lazy_first (hu : ∀ c ∈ u, p c = true)
    (hnone : ∀ u₁ u₂, u = u₁ ++ u₂ → u₂ ≠ [] → k ⟨u₁.reverse ++ before, u₂ ++ v, g⟩ = none)
    (hk : k ⟨u.reverse ++ before, v, g⟩ = some x) :
    (Re.lazy (.one p)).run k ⟨before, u ++ v, g⟩ = some x := by
  induction u generalizing before with
  | nil =>
      have hk : k ⟨before, v, g⟩ = some x := hk
      cases v with
      | nil => exact hk
      | cons c v =>
          rw [List.nil_append, run_lazy_cons, hk]
          rfl
  | cons c u ih =>
      have hfirst : k ⟨before, c :: (u ++ v), g⟩ = none :=
        hnone [] (c :: u) rfl (List.cons_ne_nil c u)
      rw [List.cons_append, run_lazy_cons, hfirst, if_pos (hu c List.mem_cons_self)]
      refine ih (fun d hd => hu d (List.mem_cons_of_mem c hd)) (fun u₁ u₂ hu₂ hne => ?_) ?_
      · simpa using hnone (c :: u₁) u₂ (by rw [hu₂]; rfl) hne
      · simpa using hk

/-- So many characters. -/
theorem run_rep (hu : ∀ c ∈ u, p c = true) :
    ((Re.one p).rep u.length).run k ⟨before, u ++ v, g⟩ = k ⟨u.reverse ++ before, v, g⟩ := by
  induction u generalizing before with
  | nil => rfl
  | cons c u ih =>
      have hstep : ((Re.one p).rep (u.length + 1)).run k ⟨before, c :: (u ++ v), g⟩ =
          if p c then ((Re.one p).rep u.length).run k ⟨c :: before, u ++ v, g⟩ else none := rfl
      rw [List.length_cons, List.cons_append, hstep, if_pos (hu c List.mem_cons_self),
        ih fun d hd => hu d (List.mem_cons_of_mem c hd)]
      simp

end run

/-! ### What a match is -/

/-- The expression matches from one place to another. -/
inductive Matches : Re → At → At → Prop
  | empty (s : At) : Matches .empty s s
  | one {p : Char → Bool} {c : Char} {before cs : List Char} {g : List (ℕ × List Char)} :
      p c = true → Matches (.one p) ⟨before, c :: cs, g⟩ ⟨c :: before, cs, g⟩
  | seq {a b : Re} {s t u : At} : Matches a s t → Matches b t u → Matches (.seq a b) s u
  | altLeft {a b : Re} {s t : At} : Matches a s t → Matches (.alt a b) s t
  | altRight {a b : Re} {s t : At} : Matches b s t → Matches (.alt a b) s t
  | starNil {a : Re} (s : At) : Matches (.star a) s s
  | starStep {a : Re} {s t u : At} :
      Matches a s t → Matches (.star a) t u → Matches (.star a) s u
  | lazyNil {a : Re} (s : At) : Matches (.lazy a) s s
  | lazyStep {a : Re} {s t u : At} :
      Matches a s t → Matches (.lazy a) t u → Matches (.lazy a) s u
  | group {n : ℕ} {a : Re} {s t : At} :
      Matches a s t → Matches (.group n a) s (t.capture n (s.upTo t))
  | look {p : Option Char → Option Char → Bool} {s : At} :
      p s.before.head? s.rest.head? = true → Matches (.look p) s s

/-- What the matcher finds is a match, with which the continuation goes on. -/
theorem matches_of_run {r : Re} {k : At → Option α} {s : At} {x : α} (h : r.run k s = some x) :
    ∃ t, Matches r s t ∧ k t = some x := by
  induction r generalizing k s with
  | empty => exact ⟨s, .empty s, h⟩
  | one p =>
      obtain ⟨before, rest, g⟩ := s
      cases rest with
      | nil => cases h
      | cons c cs =>
          rw [run_one_cons] at h
          split_ifs at h with hp
          exact ⟨_, .one hp, h⟩
  | seq a b iha ihb =>
      obtain ⟨t, hst, ht⟩ := iha h
      obtain ⟨u, htu, hu⟩ := ihb ht
      exact ⟨u, .seq hst htu, hu⟩
  | alt a b iha ihb =>
      rcases Option.or_eq_some_iff.mp h with h | ⟨-, h⟩
      · obtain ⟨t, hst, ht⟩ := iha h
        exact ⟨t, .altLeft hst, ht⟩
      · obtain ⟨t, hst, ht⟩ := ihb h
        exact ⟨t, .altRight hst, ht⟩
  | star a ih =>
      have hloop : ∀ (n : ℕ) (s : At), loop a.run k n s = some x →
          ∃ t, Matches (.star a) s t ∧ k t = some x := by
        intro n
        induction n with
        | zero => exact fun s h => ⟨s, .starNil s, h⟩
        | succ n ihn =>
            intro s h
            rcases Option.or_eq_some_iff.mp h with h | ⟨-, h⟩
            · obtain ⟨t, hst, ht⟩ := ih h
              split_ifs at ht
              obtain ⟨u, htu, hu⟩ := ihn t ht
              exact ⟨u, .starStep hst htu, hu⟩
            · exact ⟨s, .starNil s, h⟩
      exact hloop _ s h
  | lazy a ih =>
      have hloop : ∀ (n : ℕ) (s : At), lazyLoop a.run k n s = some x →
          ∃ t, Matches (.lazy a) s t ∧ k t = some x := by
        intro n
        induction n with
        | zero => exact fun s h => ⟨s, .lazyNil s, h⟩
        | succ n ihn =>
            intro s h
            rcases Option.or_eq_some_iff.mp h with h | ⟨-, h⟩
            · exact ⟨s, .lazyNil s, h⟩
            · obtain ⟨t, hst, ht⟩ := ih h
              split_ifs at ht
              obtain ⟨u, htu, hu⟩ := ihn t ht
              exact ⟨u, .lazyStep hst htu, hu⟩
      exact hloop _ s h
  | group n a ih =>
      obtain ⟨t, hst, ht⟩ := ih h
      exact ⟨_, .group hst, ht⟩
  | look p =>
      rw [run_look] at h
      split_ifs at h with hp
      exact ⟨s, .look hp, h⟩

section matches_

variable {r : Re} {s t : At} {q : Char → Prop} {text before rest : List Char}

/-- A match goes forward. -/
theorem Matches.consumed (h : Matches r s t) :
    ∃ u, s.rest = u ++ t.rest ∧ t.before = u.reverse ++ s.before := by
  induction h with
  | empty s | starNil s | lazyNil s | look => exact ⟨[], rfl, rfl⟩
  | one => exact ⟨[_], rfl, rfl⟩
  | altLeft _ ih | altRight _ ih | group _ ih => exact ih
  | seq _ _ ih ih' | starStep _ _ ih ih' | lazyStep _ _ ih ih' =>
      obtain ⟨u, hu, hub⟩ := ih
      obtain ⟨v, hv, hvb⟩ := ih'
      exact ⟨u ++ v, by rw [hu, hv, List.append_assoc], by
        rw [hvb, hub, List.reverse_append, List.append_assoc]⟩

/-- Every match takes a character of a kind. -/
def Re.Needs (q : Char → Prop) : Re → Prop
  | one p => ∀ c, p c = true → q c
  | seq a b => a.Needs q ∨ b.Needs q
  | alt a b => a.Needs q ∧ b.Needs q
  | group _ a => a.Needs q
  | empty | star _ | lazy _ | look _ => False

theorem Matches.needs (h : Matches r s t) (hr : r.Needs q) : ∃ c ∈ s.rest, q c := by
  induction h with
  | empty s | starNil s | lazyNil s | look => exact hr.elim
  | starStep | lazyStep => exact hr.elim
  | @one p c before cs g hp => exact ⟨c, List.mem_cons_self, hr c hp⟩
  | altLeft _ ih => exact ih hr.1
  | altRight _ ih => exact ih hr.2
  | group _ ih => exact ih hr
  | seq h h' ih ih' =>
      rcases hr with hr | hr
      · exact ih hr
      · obtain ⟨c, hc, hq⟩ := ih' hr
        obtain ⟨u, hu, -⟩ := h.consumed
        exact ⟨c, hu ▸ List.mem_append_right u hc, hq⟩

/-- The first match is a match, somewhere. -/
theorem matches_of_search (h : search r before rest = some (s, t)) :
    Matches r s t ∧ ∃ front, rest = front ++ s.rest ∧ s.before = front.reverse ++ before := by
  induction rest generalizing before with
  | nil =>
      obtain ⟨u, hu, he⟩ := Option.map_eq_some_iff.mp h
      obtain ⟨rfl, rfl⟩ := Prod.mk.inj he
      obtain ⟨v, hv, hsome⟩ := matches_of_run hu
      exact ⟨Option.some.inj hsome ▸ hv, [], rfl, rfl⟩
  | cons c cs ih =>
      unfold search at h
      split at h
      · rename_i u hu
        obtain ⟨rfl, rfl⟩ := Prod.mk.inj (Option.some.inj h)
        obtain ⟨v, hv, hsome⟩ := matches_of_run hu
        exact ⟨Option.some.inj hsome ▸ hv, [], rfl, rfl⟩
      · obtain ⟨hm, front, hrest, hbefore⟩ := ih h
        exact ⟨hm, c :: front, by rw [hrest]; rfl, by simp [hbefore]⟩

/-- There is no match in a text that has no character of a kind the expression needs. -/
theorem search_eq_none (hr : r.Needs q) (hrest : ∀ c ∈ rest, ¬ q c) :
    search r before rest = none := by
  cases h : search r before rest with
  | none => rfl
  | some st =>
      obtain ⟨hm, front, hfront, -⟩ := matches_of_search h
      obtain ⟨c, hc, hq⟩ := hm.needs hr
      exact absurd hq (hrest c (hfront ▸ List.mem_append_right front hc))

theorem exec_eq_none (hr : r.Needs q) (htext : ∀ c ∈ text, ¬ q c) : exec r text = none := by
  rw [exec, search_eq_none hr htext]
  rfl

/-- The search goes on behind a place from which there is no match. -/
theorem search_skip {u v : List Char}
    (h : ∀ u₁ u₂, u = u₁ ++ u₂ → u₂ ≠ [] →
      r.run some ⟨u₁.reverse ++ before, u₂ ++ v, []⟩ = none) :
    search r before (u ++ v) = search r (u.reverse ++ before) v := by
  induction u generalizing before with
  | nil => rfl
  | cons c u ih =>
      have hfirst : r.run some ⟨before, c :: (u ++ v), []⟩ = none :=
        h [] (c :: u) rfl (List.cons_ne_nil c u)
      rw [List.cons_append, search, hfirst]
      dsimp only
      rw [ih fun u₁ u₂ hu hne => by simpa using h (c :: u₁) u₂ (by rw [hu]; rfl) hne]
      simp

/-- A match from the very place. -/
theorem search_of_run (h : r.run some ⟨before, rest, []⟩ = some t) :
    search r before rest = some (⟨before, rest, []⟩, t) := by
  cases rest with
  | nil => rw [search, h, Option.map_some]
  | cons c cs => rw [search, h]

/-- A text whose matches are what they are replaced by stays as it is. -/
theorem replaceAll_eq_self {by' : List Char} (hne : by' ≠ [])
    (h : ∀ s t, Matches r s t → s.before.reverse ++ s.rest = text →
      s.rest = by' ++ t.rest) : replaceAll r by' text = text := by
  have hfrom : ∀ (n : ℕ) (before rest : List Char), before.reverse ++ rest = text →
      replaceFrom r by' n before rest = rest := by
    intro n
    induction n with
    | zero => exact fun _ _ _ => rfl
    | succ n ih =>
        intro before rest htext
        unfold replaceFrom
        split
        · rfl
        · rename_i s t hsearch
          obtain ⟨hm, front, hrest, hbefore⟩ := matches_of_search hsearch
          have hwhole : s.before.reverse ++ s.rest = text := by
            rw [hbefore, ← htext, hrest]
            simp
          have hs := h s t hm hwhole
          obtain ⟨u, hu, htb⟩ := hm.consumed
          have hlt : t.rest.length < s.rest.length := by
            have := List.length_pos_iff.mpr hne
            rw [hs, List.length_append]
            omega
          have hfront : rest.take (rest.length - s.rest.length) = front := by
            rw [hrest]
            simp
          have htext' : t.before.reverse ++ t.rest = text := by
            rw [← hwhole, hu, htb]
            simp
          dsimp only
          rw [if_pos hlt, hfront, ih _ _ htext', hrest, hs, List.append_assoc]
  exact hfrom _ [] text rfl

/-- A text without matches stays as it is. -/
theorem replaceAll_of_none {by' : List Char} (h : search r [] text = none) :
    replaceAll r by' text = text := by
  rw [replaceAll, replaceFrom, h]

/-- A search finds nothing where there is no match. -/
theorem search_none_of_not_matches
    (h : ∀ s t, s.before.reverse ++ s.rest = text → ¬ Matches r s t) : search r [] text = none := by
  cases hs : search r [] text with
  | none => rfl
  | some st =>
      obtain ⟨hm, front, hfront, hbefore⟩ := matches_of_search hs
      refine absurd hm (h _ _ ?_)
      rw [hbefore, hfront]
      simp

end matches_

/-! ### Texts and ends -/

section ends

variable {α : Type} {r a b : Re} {k : At → Option α} {s t : At} {q : Char → Prop}
  {u v before : List Char} {c : Char} {g : List (ℕ × List Char)}

/-- A text is matched by a text with the same letters. -/
theorem run_text {w : String} (h : u.map Char.toLower = w.toList) :
    (Re.text w).run k ⟨before, u ++ v, g⟩ = k ⟨u.reverse ++ before, v, g⟩ := by
  have hall : ∀ (cs u before : List Char), u.map Char.toLower = cs →
      (Re.all (cs.map fun c => .one fun d => d.toLower = c)).run k ⟨before, u ++ v, g⟩ =
        k ⟨u.reverse ++ before, v, g⟩ := by
    intro cs
    induction cs with
    | nil =>
        intro u before hu
        obtain rfl := List.map_eq_nil_iff.mp hu
        rfl
    | cons c cs ih =>
        intro u before hu
        obtain ⟨d, u, rfl, rfl, hmap⟩ := List.map_eq_cons_iff.mp hu
        cases cs with
        | nil =>
            obtain rfl := List.map_eq_nil_iff.mp hmap
            simp [Re.all]
        | cons e es =>
            have hrest := ih u (d :: before) hmap
            simp only [List.map_cons, Re.all, run_seq, List.cons_append, run_one_cons,
              decide_true, if_true] at hrest ⊢
            rw [hrest]
            simp
  exact hall _ u before h

/-- What a text matches begins with its letters. -/
theorem prefix_of_run_text {w : String} {s : At} {x : α} (h : (Re.text w).run k s = some x) :
    w.toList <+: s.rest.map Char.toLower := by
  have hall : ∀ (cs : List Char) (s : At),
      (Re.all (cs.map fun c => .one fun d => d.toLower = c)).run k s = some x →
        cs <+: s.rest.map Char.toLower := by
    intro cs
    induction cs with
    | nil => exact fun s _ => ⟨_, rfl⟩
    | cons c cs ih =>
        rintro ⟨before, rest, g⟩ h
        cases rest with
        | nil => cases cs <;> simp [Re.all] at h
        | cons d rest =>
            cases cs with
            | nil =>
                simp only [List.map_cons, List.map_nil, Re.all, run_one_cons] at h
                split_ifs at h with hd
                simpa using (of_decide_eq_true hd).symm
            | cons e es =>
                simp only [List.map_cons, Re.all, run_seq, run_one_cons] at h
                split_ifs at h with hd
                have hrest := ih _ (by simpa only [List.map_cons] using h)
                rw [List.map_cons, of_decide_eq_true hd]
                exact (List.prefix_cons_inj c).mpr hrest
  exact hall _ s h

/-- A text that begins nowhere in a part of what is left is not matched there. -/
theorem run_text_none_of_tails {w : String} {a u₁ u₂ : List Char} (hu : u = u₁ ++ u₂)
    (hne : u₂ ≠ []) (h : ∀ r ∈ (u ++ a).tails, a.length < r.length →
      ¬ w.toList.take (a.length + 1) <+: r.map Char.toLower) :
    (Re.text w).run k ⟨before, u₂ ++ (a ++ v), g⟩ = none := by
  by_contra hsome
  obtain ⟨x, hx⟩ := Option.ne_none_iff_exists'.mp hsome
  have hbegin := prefix_of_run_text hx
  rw [← List.append_assoc, List.map_append] at hbegin
  have hlength : a.length < (u₂ ++ a).length := by
    rw [List.length_append]
    have hpos := List.length_pos_iff.mpr hne
    omega
  refine h (u₂ ++ a) ?_ hlength ?_
  · rw [List.mem_tails, hu, List.append_assoc]
    exact List.suffix_append u₁ _
  · refine List.prefix_of_prefix_length_le ((List.take_prefix _ _).trans hbegin)
      (List.prefix_append _ _) ((List.length_take_le _ _).trans ?_)
    rwa [List.length_map]

/-- A text is not matched by one with another first letter. -/
theorem run_text_none {w : String} (h : ∀ e ∈ w.toList.head?, c.toLower ≠ e)
    (hne : w.toList ≠ []) : (Re.text w).run k ⟨before, c :: v, g⟩ = none := by
  by_contra hsome
  obtain ⟨x, hx⟩ := Option.ne_none_iff_exists'.mp hsome
  have hbegin := prefix_of_run_text hx
  obtain ⟨e, es, hw⟩ := List.exists_cons_of_ne_nil hne
  rw [hw, List.map_cons, List.cons_prefix_cons] at hbegin
  exact h e (by rw [hw]; rfl) hbegin.1.symm

/-- One or more characters, all that there are. -/
theorem run_plus_full {p : Char → Bool} {x : α} (hu : ∀ c ∈ u, p c = true) (hne : u ≠ [])
    (hv : ∀ c ∈ v.head?, p c = false) (hk : k ⟨u.reverse ++ before, v, g⟩ = some x) :
    (Re.plus (.one p)).run k ⟨before, u ++ v, g⟩ = some x := by
  obtain ⟨c, w, rfl⟩ := List.exists_cons_of_ne_nil hne
  have hstar : (Re.star (.one p)).run k ⟨c :: before, w ++ v, g⟩ = some x :=
    run_star_full (fun d hd => hu d (List.mem_cons_of_mem c hd)) hv (by simpa using hk)
  rw [run_plus, List.cons_append, run_one_cons, if_pos (hu c List.mem_cons_self)]
  exact hstar

/-- At most so many characters, none of which the rest accepts to stop at. -/
theorem run_atMost_none {p : Char → Bool} {n : ℕ}
    (hk : ∀ u₁ u₂, v = u₁ ++ u₂ → k ⟨u₁.reverse ++ before, u₂, g⟩ = none) :
    ((Re.one p).atMost n).run k ⟨before, v, g⟩ = none := by
  induction n generalizing before v with
  | zero => exact hk [] v rfl
  | succ n ih =>
      have hnone : k ⟨before, v, g⟩ = none := hk [] v rfl
      rw [Re.atMost, run_opt, hnone, Option.or_none, run_seq]
      cases v with
      | nil => rfl
      | cons c v =>
          rw [run_one_cons, ih fun u₁ u₂ hu => by simpa using hk (c :: u₁) u₂ (by rw [hu]; rfl)]
          split_ifs <;> rfl

/-- At most so many characters, up to the last place that the rest accepts. -/
theorem run_atMost_last {p : Char → Bool} {n : ℕ} {x : α} (hu : ∀ c ∈ u, p c = true)
    (hn : u.length ≤ n) (hk : k ⟨u.reverse ++ before, v, g⟩ = some x)
    (hnone : ∀ c v₁ v₂, v = c :: v₁ ++ v₂ →
      k ⟨(c :: v₁).reverse ++ (u.reverse ++ before), v₂, g⟩ = none) :
    ((Re.one p).atMost n).run k ⟨before, u ++ v, g⟩ = some x := by
  induction u generalizing before n with
  | nil =>
      have hk : k ⟨before, v, g⟩ = some x := hk
      cases n with
      | zero => exact hk
      | succ n =>
          rw [List.nil_append, Re.atMost, run_opt, hk, run_seq]
          cases v with
          | nil => rfl
          | cons c v =>
              rw [run_one_cons, run_atMost_none fun u₁ u₂ hu => by
                simpa using hnone c u₁ u₂ (by rw [hu]; rfl)]
              split_ifs <;> rfl
  | cons c u ih =>
      cases n with
      | zero => simp at hn
      | succ n =>
          have hrest : ((Re.one p).atMost n).run k ⟨c :: before, u ++ v, g⟩ = some x :=
            ih (fun d hd => hu d (List.mem_cons_of_mem c hd)) (by simpa using hn)
              (by simpa using hk) (fun d v₁ v₂ hv => by simpa using hnone d v₁ v₂ hv)
          rw [List.cons_append, Re.atMost, run_opt, run_seq, run_one_cons,
            if_pos (hu c List.mem_cons_self), hrest]
          rfl

/-- What a match takes last, if it takes anything, is of a kind. -/
def Re.Ends (q : Char → Prop) : Re → Prop
  | one p => ∀ c, p c = true → q c
  | seq a b => b.Ends q ∧ (b.Needs (fun _ => True) ∨ a.Ends q)
  | alt a b => a.Ends q ∧ b.Ends q
  | star a | lazy a | group _ a => a.Ends q
  | empty | look _ => True

/-- A match takes a character of a kind. -/
theorem Matches.takes (h : Matches r s t) (hr : r.Needs q) :
    ∃ u, s.rest = u ++ t.rest ∧ ∃ c ∈ u, q c := by
  induction h with
  | empty s | starNil s | lazyNil s | look => exact hr.elim
  | starStep | lazyStep => exact hr.elim
  | @one p c before cs g hp => exact ⟨[c], rfl, c, List.mem_singleton_self c, hr c hp⟩
  | altLeft _ ih => exact ih hr.1
  | altRight _ ih => exact ih hr.2
  | group _ ih => exact ih hr
  | seq h h' ih ih' =>
      obtain ⟨u, hu, -⟩ := h.consumed
      obtain ⟨v, hv, -⟩ := h'.consumed
      rcases hr with hr | hr
      · obtain ⟨u, hu, c, hc, hq⟩ := ih hr
        exact ⟨u ++ v, by rw [hu, hv, List.append_assoc], c, List.mem_append_left v hc, hq⟩
      · obtain ⟨v, hv, c, hc, hq⟩ := ih' hr
        exact ⟨u ++ v, by rw [hu, hv, List.append_assoc], c, List.mem_append_right u hc, hq⟩

theorem Re.ends_text {w : String} (h : ∀ e ∈ w.toList, ∀ d : Char, d.toLower = e → q d) :
    (Re.text w).Ends q := by
  have hall : ∀ cs : List Char, (∀ e ∈ cs, ∀ d : Char, d.toLower = e → q d) →
      (Re.all (cs.map fun c => .one fun d => d.toLower = c)).Ends q := by
    intro cs
    induction cs with
    | nil => exact fun _ => trivial
    | cons c cs ih =>
        intro h
        have hone : (Re.one fun d => d.toLower = c).Ends q := fun d hd =>
          h c List.mem_cons_self d (by simpa using hd)
        cases cs with
        | nil => exact hone
        | cons e es => exact ⟨ih fun e he => h e (List.mem_cons_of_mem c he), .inr hone⟩
  exact hall _ h

theorem Re.needs_text {w : String} {e : Char} (he : e ∈ w.toList)
    (h : ∀ d : Char, d.toLower = e → q d) : (Re.text w).Needs q := by
  have hall : ∀ cs : List Char, e ∈ cs →
      (Re.all (cs.map fun c => .one fun d => d.toLower = c)).Needs q := by
    intro cs
    induction cs with
    | nil => exact fun hmem => (by cases hmem)
    | cons c cs ih =>
        intro hmem
        have hone : e = c → (Re.one fun d => d.toLower = c).Needs q := by
          rintro rfl
          exact fun d hd => h d (by simpa using hd)
        rcases List.mem_cons.mp hmem with hc | hmem
        · cases cs with
          | nil => exact hone hc
          | cons e' es => exact .inl (hone hc)
        · cases cs with
          | nil => cases hmem
          | cons e' es => exact .inr (ih hmem)
  exact hall _ he

theorem Matches.ends (h : Matches r s t) (hr : r.Ends q) :
    s.rest = t.rest ∧ s.before = t.before ∨ ∃ c before, t.before = c :: before ∧ q c := by
  induction h with
  | empty s | starNil s | lazyNil s | look => exact .inl ⟨rfl, rfl⟩
  | one hp => exact .inr ⟨_, _, rfl, hr _ hp⟩
  | altLeft _ ih => exact ih hr.1
  | altRight _ ih => exact ih hr.2
  | group _ ih => exact ih hr
  | seq h h' ih ih' =>
      rcases ih' hr.1 with hsame | hend
      · rcases hr.2 with hneeds | hends
        · obtain ⟨w, hw, c, hc, -⟩ := h'.takes hneeds
          rw [hsame.1, List.self_eq_append_left] at hw
          subst hw
          cases hc
        · rcases ih hends with hsame' | ⟨c, before, hc, hq⟩
          · exact .inl ⟨hsame'.1.trans hsame.1, hsame'.2.trans hsame.2⟩
          · exact .inr ⟨c, before, hsame.2 ▸ hc, hq⟩
      · exact .inr hend
  | starStep _ _ ih ih' | lazyStep _ _ ih ih' =>
      rcases ih' hr with hsame | hend
      · rcases ih hr with hsame' | ⟨c, before, hc, hq⟩
        · exact .inl ⟨hsame'.1.trans hsame.1, hsame'.2.trans hsame.2⟩
        · exact .inr ⟨c, before, hsame.2 ▸ hc, hq⟩
      · exact .inr hend

/-- A match leaves the text as it is. -/
theorem Matches.whole (h : Matches r s t) :
    t.before.reverse ++ t.rest = s.before.reverse ++ s.rest := by
  obtain ⟨u, hu, hb⟩ := h.consumed
  rw [hu, hb]
  simp

/-- What a repetition of a character takes. -/
theorem Matches.star_one {p : Char → Bool} (h : Matches (.star (.one p)) s t) :
    ∃ u, s.rest = u ++ t.rest ∧ ∀ c ∈ u, p c = true := by
  generalize hr : Re.star (.one p) = r at h
  induction h with
  | starNil s => exact ⟨[], rfl, fun c hc => (by cases hc)⟩
  | starStep hone _ _ ih =>
      cases hr
      cases hone with
      | @one _ c before cs g hc =>
          obtain ⟨u, hu, hall⟩ := ih rfl
          refine ⟨c :: u, by rw [List.cons_append, ← hu], fun d hd => ?_⟩
          rcases List.mem_cons.mp hd with rfl | hd
          · exact hc
          · exact hall d hd
  | _ => cases hr

/-- A match from somewhere in the text. -/
theorem test_of_run {u v : List Char} (h : (r.run some ⟨u.reverse, v, []⟩).isSome) :
    test r (u ++ v) = true := by
  have hsearch : ∀ (u before : List Char), (r.run some ⟨u.reverse ++ before, v, []⟩).isSome →
      (search r before (u ++ v)).isSome := by
    intro u
    induction u with
    | nil =>
        intro before h
        obtain ⟨t, ht⟩ := Option.isSome_iff_exists.mp h
        have ht : r.run some ⟨before, v, []⟩ = some t := ht
        rw [List.nil_append, search_of_run ht]
        rfl
    | cons c u ih =>
        intro before h
        rw [List.cons_append, search]
        split
        · rfl
        · exact ih (c :: before) (by simpa using h)
  rw [test, exec, Option.isSome_map]
  exact hsearch u [] (by simpa using h)

/-- What the search finds, there is. -/
theorem matches_of_test {text : List Char} (h : test r text = true) :
    ∃ s t, s.before.reverse ++ s.rest = text ∧ Matches r s t := by
  rw [test, exec, Option.isSome_map] at h
  obtain ⟨⟨s, t⟩, hst⟩ := Option.isSome_iff_exists.mp h
  obtain ⟨hm, front, hfront, hbefore⟩ := matches_of_search hst
  exact ⟨s, t, by rw [hbefore, hfront]; simp, hm⟩

end ends

end DayfiBackend.Found.Regex
