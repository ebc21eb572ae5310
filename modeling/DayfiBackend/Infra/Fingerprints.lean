import DayfiBackend.Found.CodeUnits
import DayfiBackend.Found.NumberText
import Mathlib.Tactic.IntervalCases

/-!
# Fingerprints of requests

A request that is retried under its key must be the same request, which is told by a digest of its
fields: `stableJson` writes them with the keys of every object in order. Two JSON values have one
text exactly when they are the same up to the order of keys (`stableJson_eq_iff`), so that requests
that differ share a fingerprint only where the digest collides.
-/

namespace DayfiBackend.Infra.Fingerprints

open DayfiBackend.Found.CodeUnits DayfiBackend.Found.NumberText

/-! ### Values -/

/-- A value of the language, as far as requests are made of them. -/
inductive Value where
  | undefined
  | null
  | bool (b : Bool)
  | number (x : Number)
  | string (s : Units)
  | array (vs : List Value)
  | object (ms : List (Units × Value))

/-- `join(',')`. -/
def join (texts : List Units) : Units := [sign ','].intercalate texts

/-- The braces of an object. -/
def opening : CodeUnit := 0x7B

@[inherit_doc opening]
def closing : CodeUnit := 0x7D

mutual

/-- Source: `infraMoneyService.ts` and `infraInternalTransferService.ts` `stableJson`. -/
def stableJson : Value → Units
  | .undefined | .null => ofChars ['n', 'u', 'l', 'l']
  | .bool true => ofChars ['t', 'r', 'u', 'e']
  | .bool false => ofChars ['f', 'a', 'l', 's', 'e']
  | .number x => ofChars x.text
  | .string s => quote s
  | .array vs => sign '[' :: (join (stableAll vs) ++ [sign ']'])
  | .object ms =>
      let keys := (ms.map (·.1)).insertionSort (· ≤ ·)
      let texts := stableMembers ms
      opening :: (join (keys.map fun k => quote k ++ sign ':' :: (texts.lookup k).getD []) ++
        [closing])

/-- The texts of the elements. -/
def stableAll : List Value → List Units
  | [] => []
  | v :: vs => stableJson v :: stableAll vs

/-- The text of every member, under its key. -/
def stableMembers : List (Units × Value) → List (Units × Units)
  | [] => []
  | (k, v) :: ms => (k, stableJson v) :: stableMembers ms

end

/-- Source: `infraMoneyService.ts` and `infraInternalTransferService.ts` `fingerprintPayload`, over
the hexadecimal digest of a text. -/
def fingerprintPayload (digest : Units → String) (parts : Value) : String :=
  digest (stableJson parts)

mutual

/-- Nothing is undefined, which is printed like `null`, and the keys of an object are distinct. -/
def Value.IsJson : Value → Prop
  | .undefined => False
  | .null | .bool _ | .number _ | .string _ => True
  | .array vs => AllJson vs
  | .object ms => (ms.map (·.1)).Nodup ∧ MembersJson ms

/-- The elements of an array. -/
def AllJson : List Value → Prop
  | [] => True
  | v :: vs => v.IsJson ∧ AllJson vs

/-- The members of an object. -/
def MembersJson : List (Units × Value) → Prop
  | [] => True
  | (_, v) :: ms => v.IsJson ∧ MembersJson ms

end

/-- A JSON value. -/
structure Json where
  value : Value
  isJson : value.IsJson

/-- The same value, whatever the order of the keys of its objects. -/
inductive Same : Value → Value → Prop
  | null : Same .null .null
  | bool (b : Bool) : Same (.bool b) (.bool b)
  | number (x : Number) : Same (.number x) (.number x)
  | string (s : Units) : Same (.string s) (.string s)
  | array {vs ws : List Value} (length : vs.length = ws.length)
      (elements : ∀ (i : ℕ) (v w : Value), vs[i]? = some v → ws[i]? = some w → Same v w) :
      Same (.array vs) (.array ws)
  | object {ms ns : List (Units × Value)} (keys : (ms.map (·.1)).Perm (ns.map (·.1)))
      (values : ∀ k v w, (k, v) ∈ ms → (k, w) ∈ ns → Same v w) : Same (.object ms) (.object ns)

/-! ### Elements and members -/

/-- Induction over values. -/
theorem Value.induct {P : Value → Prop} (undefined : P .undefined) (null : P .null)
    (bool : ∀ b, P (.bool b)) (number : ∀ x, P (.number x)) (string : ∀ s, P (.string s))
    (array : ∀ vs, (∀ v ∈ vs, P v) → P (.array vs))
    (object : ∀ ms, (∀ m ∈ ms, P m.2) → P (.object ms)) (v : Value) : P v := by
  refine Value.rec (motive_1 := P) (motive_2 := fun vs => ∀ v ∈ vs, P v)
    (motive_3 := fun ms => ∀ m ∈ ms, P m.2) (motive_4 := fun m => P m.2)
    undefined null bool number string array object ?_ ?_ ?_ ?_ ?_ v
  · simp
  · simp_all
  · simp
  · simp_all
  · simp

theorem stableAll_eq (vs : List Value) : stableAll vs = vs.map stableJson := by
  induction vs with
  | nil => rfl
  | cons v vs ih => rw [stableAll, ih, List.map_cons]

theorem allJson_iff (vs : List Value) : AllJson vs ↔ ∀ v ∈ vs, v.IsJson := by
  induction vs with
  | nil => simp [AllJson]
  | cons v vs ih => simp [AllJson, ih]

theorem membersJson_iff (ms : List (Units × Value)) :
    MembersJson ms ↔ ∀ m ∈ ms, m.2.IsJson := by
  induction ms with
  | nil => simp [MembersJson]
  | cons m ms ih => simp [MembersJson, ih]

/-- The text of a member is found under its key. -/
theorem lookup_stableMembers {ms : List (Units × Value)} {k : Units} {v : Value}
    (hnodup : (ms.map (·.1)).Nodup) (h : (k, v) ∈ ms) :
    (stableMembers ms).lookup k = some (stableJson v) := by
  induction ms with
  | nil => cases h
  | cons m ms ih =>
      obtain ⟨l, w⟩ := m
      rw [List.map_cons, List.nodup_cons] at hnodup
      rcases List.mem_cons.mp h with heq | hmem
      · obtain ⟨rfl, rfl⟩ := Prod.mk.inj heq
        rw [stableMembers, List.lookup_cons, beq_self_eq_true]
      · have hne : k ≠ l := by
          rintro rfl
          exact hnodup.1 (List.mem_map.mpr ⟨_, hmem, rfl⟩)
        rw [stableMembers, List.lookup_cons, beq_false_of_ne hne]
        exact ih hnodup.2 hmem

/-! ### Texts that end -/

/-- What may follow the text of a value. -/
def Delimited (r : Units) : Prop := ∀ u ∈ r.head?, u ∈ [sign ',', sign ']', closing]

section join

variable {α β : Type} {f : α → Units} {g : β → Units} {R : α → β → Prop} {e : CodeUnit}
  {as : List α} {bs : List β} {r s : Units}

theorem delimited_cons {u : CodeUnit} (h : u ∈ [sign ',', sign ']', closing]) :
    Delimited (u :: r) := by
  intro v hv
  obtain rfl : u = v := Option.some.inj hv
  exact h

/-- The texts behind the first one. -/
def rest (texts : List Units) : Units := texts.flatMap (sign ',' :: ·)

theorem rest_cons (t : Units) (ts : List Units) :
    rest (t :: ts) = sign ',' :: (t ++ rest ts) := rfl

theorem join_cons (t : Units) (ts : List Units) : join (t :: ts) = t ++ rest ts := by
  induction ts generalizing t with
  | nil => simp [join, rest]
  | cons u ts ih =>
      have hstep : join (t :: u :: ts) = t ++ sign ',' :: join (u :: ts) := by simp [join]
      rw [hstep, ih]
      simp [rest]

theorem delimited_rest (ts : List Units) (hend : e ∈ [sign ',', sign ']', closing]) :
    Delimited (rest ts ++ e :: r) := by
  cases ts with
  | nil => exact delimited_cons hend
  | cons t ts => exact delimited_cons (by simp)

/-- Texts with commas between them are told apart, where each of them is. -/
theorem rest_append_inj (hend : e ∈ [sign ']', closing])
    (hread : ∀ a ∈ as, ∀ b ∈ bs, ∀ r s, Delimited r → Delimited s → f a ++ r = g b ++ s →
      R a b ∧ r = s)
    (h : rest (as.map f) ++ e :: r = rest (bs.map g) ++ e :: s) :
    List.Forall₂ R as bs ∧ r = s := by
  have hcomma : sign ',' ≠ e := by
    rintro rfl
    exact absurd hend (by decide)
  have hend' : e ∈ [sign ',', sign ']', closing] := List.mem_cons_of_mem _ hend
  induction as generalizing bs with
  | nil =>
      cases bs with
      | nil => exact ⟨.nil, (List.cons.inj h).2⟩
      | cons b bs => exact absurd (List.cons.inj h).1.symm hcomma
  | cons a as ih =>
      cases bs with
      | nil => exact absurd (List.cons.inj h).1 hcomma
      | cons b bs =>
          rw [List.map_cons, List.map_cons, rest_cons, rest_cons, List.cons_append,
            List.cons_append] at h
          have htail := (List.cons.inj h).2
          rw [List.append_assoc, List.append_assoc] at htail
          obtain ⟨hab, hrest⟩ := hread a List.mem_cons_self b List.mem_cons_self _ _
            (delimited_rest _ hend') (delimited_rest _ hend') htail
          obtain ⟨hall, hrs⟩ := ih (fun a ha b hb =>
            hread a (List.mem_cons_of_mem _ ha) b (List.mem_cons_of_mem _ hb)) hrest
          exact ⟨.cons hab hall, hrs⟩

/-- The same of all the texts between two brackets. -/
theorem join_append_inj (hend : e ∈ [sign ']', closing])
    (hf : ∀ a, ∀ r, ¬ Delimited (f a ++ r)) (hg : ∀ b, ∀ r, ¬ Delimited (g b ++ r))
    (hread : ∀ a ∈ as, ∀ b ∈ bs, ∀ r s, Delimited r → Delimited s → f a ++ r = g b ++ s →
      R a b ∧ r = s)
    (h : join (as.map f) ++ e :: r = join (bs.map g) ++ e :: s) :
    List.Forall₂ R as bs ∧ r = s := by
  have hend' : e ∈ [sign ',', sign ']', closing] := List.mem_cons_of_mem _ hend
  cases as with
  | nil =>
      cases bs with
      | nil => exact ⟨.nil, (List.cons.inj h).2⟩
      | cons b bs =>
          rw [List.map_cons, join_cons, List.append_assoc] at h
          have hdelimited : Delimited (join ([].map f) ++ e :: r) := delimited_cons hend'
          rw [h] at hdelimited
          exact absurd hdelimited (hg b _)
  | cons a as =>
      cases bs with
      | nil =>
          rw [List.map_cons, join_cons, List.append_assoc] at h
          have hdelimited : Delimited (join ([].map g) ++ e :: s) := delimited_cons hend'
          rw [← h] at hdelimited
          exact absurd hdelimited (hf a _)
      | cons b bs =>
          rw [List.map_cons, List.map_cons, join_cons, join_cons, List.append_assoc,
            List.append_assoc] at h
          obtain ⟨hab, hrest⟩ := hread a List.mem_cons_self b List.mem_cons_self _ _
            (delimited_rest _ hend') (delimited_rest _ hend') h
          obtain ⟨hall, hrs⟩ := rest_append_inj hend (fun a ha b hb =>
            hread a (List.mem_cons_of_mem _ ha) b (List.mem_cons_of_mem _ hb)) hrest
          exact ⟨.cons hab hall, hrs⟩

end join

/-! ### How a text begins -/

/-- The kind of value that begins with a code unit. -/
def kindOf (u : CodeUnit) : ℕ :=
  if u = sign 'n' then 0
  else if u = sign 't' then 1
  else if u = sign 'f' then 2
  else if u = mark then 3
  else if u = sign '[' then 4
  else if u = opening then 5
  else if u ∈ [sign ',', sign ']', closing] then 7
  else 6

/-- The kind of a value. -/
def Value.kind : Value → ℕ
  | .undefined | .null => 0
  | .bool true => 1
  | .bool false => 2
  | .string _ => 3
  | .array _ => 4
  | .object _ => 5
  | .number _ => 6

/-- The signs of numbers, one by one. -/
theorem mem_of_isNumeric {c : Char} (h : isNumeric c = true) :
    c ∈ ['0', '1', '2', '3', '4', '5', '6', '7', '8', '9', '-', '.', 'e', '+'] := by
  rcases Bool.or_eq_true_iff.mp h with h | h
  · have hrange := Char.isDigit_iff_toNat.mp h
    have hlow : 48 ≤ c.toNat := hrange.1
    have hhigh : c.toNat ≤ 57 := hrange.2
    rw [← Char.ofNat_toNat c]
    interval_cases c.toNat <;> decide
  · have hsub : ∀ d ∈ ['-', '.', 'e', '+'],
        d ∈ ['0', '1', '2', '3', '4', '5', '6', '7', '8', '9', '-', '.', 'e', '+'] :=
      Found.Keys.forall_mem_of_all (by decide)
    exact hsub c (of_decide_eq_true h)

theorem kindOf_isNumeric {c : Char} (h : isNumeric c = true) : kindOf (sign c) = 6 := by
  have hall : ∀ d ∈ ['0', '1', '2', '3', '4', '5', '6', '7', '8', '9', '-', '.', 'e', '+'],
      kindOf (sign d) = 6 := Found.Keys.forall_mem_of_all (by decide)
  exact hall c (mem_of_isNumeric h)

/-- The character of a code unit. -/
def toChar (u : CodeUnit) : Char := Char.ofNat u.val

theorem toChar_isNumeric {c : Char} (h : isNumeric c = true) : toChar (sign c) = c := by
  have hall : ∀ d ∈ ['0', '1', '2', '3', '4', '5', '6', '7', '8', '9', '-', '.', 'e', '+'],
      toChar (sign d) = d := Found.Keys.forall_mem_of_all (by decide)
  exact hall c (mem_of_isNumeric h)

/-- The kind of a value is seen from where its text begins. -/
theorem stableJson_cons (v : Value) :
    ∃ u us, stableJson v = u :: us ∧ kindOf u = v.kind := by
  cases v with
  | undefined => exact ⟨sign 'n', _, by rw [stableJson]; rfl, by decide⟩
  | null => exact ⟨sign 'n', _, by rw [stableJson]; rfl, by decide⟩
  | bool b =>
      cases b with
      | true => exact ⟨sign 't', _, by rw [stableJson]; rfl, by decide⟩
      | false => exact ⟨sign 'f', _, by rw [stableJson]; rfl, by decide⟩
  | number x =>
      obtain ⟨c, cs, hcons, hc⟩ := x.text_cons
      exact ⟨sign c, ofChars cs, by rw [stableJson, hcons]; rfl, kindOf_isNumeric hc⟩
  | string s => exact ⟨mark, _, by rw [stableJson]; rfl, rfl⟩
  | array vs => exact ⟨sign '[', _, by rw [stableJson], rfl⟩
  | object ms => exact ⟨opening, _, by rw [stableJson], rfl⟩

theorem kindOf_delimiter {u : CodeUnit} (h : u ∈ [sign ',', sign ']', closing]) :
    kindOf u = 7 := by
  simp only [List.mem_cons, List.not_mem_nil, or_false] at h
  rcases h with rfl | rfl | rfl <;> rfl

theorem not_delimited {u : CodeUnit} {us : Units} (h : kindOf u ≠ 7) : ¬ Delimited (u :: us) :=
  fun hd => h (kindOf_delimiter (hd u rfl))

theorem not_delimited_stableJson (v : Value) (r : Units) : ¬ Delimited (stableJson v ++ r) := by
  obtain ⟨u, us, hcons, hkind⟩ := stableJson_cons v
  rw [hcons, List.cons_append]
  refine not_delimited ?_
  rw [hkind]
  cases v with
  | bool b => cases b <;> simp [Value.kind]
  | _ => simp [Value.kind]

/-- A number comes back from its text and what follows. -/
theorem number_append_inj {x y : Number} {r s : Units} (hr : Delimited r) (hs : Delimited s)
    (h : ofChars x.text ++ r = ofChars y.text ++ s) : x = y ∧ r = s := by
  have hsplit : ∀ (z : Number) (t : Units), Delimited t →
      (ofChars z.text ++ t).takeWhile (fun u => kindOf u = 6) = ofChars z.text ∧
        (ofChars z.text ++ t).dropWhile (fun u => kindOf u = 6) = t := by
    intro z t ht
    refine Found.Decimals.span_digits (fun u hu => ?_) fun u hu => ?_
    · obtain ⟨c, hc, rfl⟩ := List.mem_map.mp hu
      simp [kindOf_isNumeric (isNumeric_text hc)]
    · simp [kindOf_delimiter (ht u hu)]
  have hback : ∀ z : Number, (ofChars z.text).map toChar = z.text := by
    intro z
    rw [ofChars, List.map_map]
    refine (List.map_congr_left fun c hc => ?_).trans (List.map_id _)
    exact toChar_isNumeric (isNumeric_text hc)
  have htext : ofChars x.text = ofChars y.text := by
    rw [← (hsplit x r hr).1, ← (hsplit y s hs).1, h]
  refine ⟨Number.text_inj ?_, ?_⟩
  · rw [← hback x, ← hback y, htext]
  · rw [← (hsplit x r hr).2, ← (hsplit y s hs).2, h]

/-! ### One text, one value -/

theorem not_delimited_quote (k t r : Units) : ¬ Delimited (quote k ++ t ++ r) :=
  not_delimited (u := mark) (by decide)

theorem forall₂_getElem {α β : Type} {R : α → β → Prop} {as : List α} {bs : List β}
    (h : List.Forall₂ R as bs) {i : ℕ} {a : α} {b : β} (ha : as[i]? = some a)
    (hb : bs[i]? = some b) : R a b := by
  induction h generalizing i with
  | nil => cases ha
  | cons hhead _ ih =>
      cases i with
      | zero =>
          obtain rfl := Option.some.inj ha
          obtain rfl := Option.some.inj hb
          exact hhead
      | succ i => exact ih ha hb

/-- A key has a value. -/
theorem exists_member {ms : List (Units × Value)} {k : Units} (h : k ∈ ms.map (·.1)) :
    ∃ v, (k, v) ∈ ms := by
  obtain ⟨⟨l, v⟩, hmem, rfl⟩ := List.mem_map.mp h
  exact ⟨v, hmem⟩

/-- A key has no other value. -/
theorem member_unique {ms : List (Units × Value)} {k : Units} {v w : Value}
    (hnodup : (ms.map (·.1)).Nodup) (hv : (k, v) ∈ ms) (hw : (k, w) ∈ ms) : v = w :=
  (Prod.mk.inj (List.inj_on_of_nodup_map hnodup hv hw rfl)).2

/-- The same key, and the same values under it. -/
def SameAt (ms ns : List (Units × Value)) (k l : Units) : Prop :=
  k = l ∧ ∀ v w, (k, v) ∈ ms → (l, w) ∈ ns → Same v w

/-- Objects are the same when they are the same at every key in order. -/
theorem same_object {ms ns : List (Units × Value)}
    (h : List.Forall₂ (SameAt ms ns) ((ms.map (·.1)).insertionSort (· ≤ ·))
      ((ns.map (·.1)).insertionSort (· ≤ ·))) : Same (.object ms) (.object ns) := by
  have hkeys : (ms.map (·.1)).insertionSort (· ≤ ·) = (ns.map (·.1)).insertionSort (· ≤ ·) :=
    List.forall₂_eq_eq_eq ▸ h.imp fun _ _ hsame => hsame.1
  refine .object ?_ fun k v w hv hw => ?_
  · have hsorted := List.perm_insertionSort (· ≤ ·) (ns.map (·.1))
    rw [← hkeys] at hsorted
    exact (List.perm_insertionSort _ _).symm.trans hsorted
  · rw [← hkeys, List.forall₂_same] at h
    exact (h k ((List.mem_insertionSort _).mpr (List.mem_map_of_mem hv))).2 v w hv hw

/-- Texts agree with what follows them only if the values are the same. -/
theorem same_of_append (a : Value) : ∀ (b : Value) (r s : Units), a.IsJson → b.IsJson →
    Delimited r → Delimited s → stableJson a ++ r = stableJson b ++ s → Same a b ∧ r = s := by
  have hkinds : ∀ (a b : Value) (r s : Units), stableJson a ++ r = stableJson b ++ s →
      a.kind = b.kind := by
    intro a b r s h
    obtain ⟨u, us, hu, hukind⟩ := stableJson_cons a
    obtain ⟨v, vs, hv, hvkind⟩ := stableJson_cons b
    rw [hu, hv] at h
    rw [← hukind, ← hvkind, (List.cons.inj h).1]
  induction a using Value.induct with
  | undefined => exact fun b r s ha => ha.elim
  | null =>
      intro b r s _ hb hr hs h
      have hkind := hkinds _ _ _ _ h
      cases b with
      | null => exact ⟨.null, List.append_cancel_left h⟩
      | undefined => exact hb.elim
      | bool b => cases b <;> cases hkind
      | _ => cases hkind
  | bool b =>
      intro c r s _ hc hr hs h
      have hkind := hkinds _ _ _ _ h
      cases c with
      | bool c =>
          have hbc : b = c := by
            cases b <;> cases c <;> first | rfl | cases hkind
          subst hbc
          exact ⟨.bool b, List.append_cancel_left h⟩
      | _ => cases b <;> cases hkind
  | number x =>
      intro b r s _ hb hr hs h
      have hkind := hkinds _ _ _ _ h
      cases b with
      | number y =>
          rw [stableJson, stableJson] at h
          obtain ⟨rfl, hrs⟩ := number_append_inj hr hs h
          exact ⟨.number x, hrs⟩
      | bool b => cases b <;> cases hkind
      | _ => cases hkind
  | string t =>
      intro b r s _ hb hr hs h
      have hkind := hkinds _ _ _ _ h
      cases b with
      | string t' =>
          rw [stableJson, stableJson] at h
          obtain ⟨rfl, hrs⟩ := quote_append_inj h
          exact ⟨.string t, hrs⟩
      | bool b => cases b <;> cases hkind
      | _ => cases hkind
  | array vs ih =>
      intro b r s ha hb hr hs h
      have hkind := hkinds _ _ _ _ h
      cases b with
      | array ws =>
          rw [stableJson, stableJson, stableAll_eq, stableAll_eq, List.cons_append,
            List.cons_append, List.append_assoc, List.append_assoc] at h
          obtain ⟨hall, hrs⟩ := join_append_inj (e := sign ']') (by decide)
            not_delimited_stableJson not_delimited_stableJson (R := Same)
            (fun v hv w hw r s hr hs h => ih v hv w r s ((allJson_iff vs).mp ha v hv)
              ((allJson_iff ws).mp hb w hw) hr hs h) (List.cons.inj h).2
          exact ⟨.array hall.length_eq fun i v w hv hw => forall₂_getElem hall hv hw, hrs⟩
      | bool b => cases b <;> cases hkind
      | _ => cases hkind
  | object ms ih =>
      intro b r s ha hb hr hs h
      have hkind := hkinds _ _ _ _ h
      cases b with
      | object ns =>
          rw [stableJson, stableJson, List.cons_append, List.cons_append, List.append_assoc,
            List.append_assoc] at h
          have hread : ∀ k ∈ (ms.map (·.1)).insertionSort (· ≤ ·),
              ∀ l ∈ (ns.map (·.1)).insertionSort (· ≤ ·), ∀ r s, Delimited r → Delimited s →
              quote k ++ sign ':' :: ((stableMembers ms).lookup k).getD [] ++ r =
                quote l ++ sign ':' :: ((stableMembers ns).lookup l).getD [] ++ s →
              SameAt ms ns k l ∧ r = s := by
            intro k hk l hl r s hr hs h
            obtain ⟨v, hv⟩ := exists_member ((List.mem_insertionSort _).mp hk)
            obtain ⟨w, hw⟩ := exists_member ((List.mem_insertionSort _).mp hl)
            rw [lookup_stableMembers ha.1 hv, lookup_stableMembers hb.1 hw, List.append_assoc,
              List.append_assoc] at h
            obtain ⟨rfl, htext⟩ := quote_append_inj h
            obtain ⟨hsame, hrs⟩ := ih _ hv w r s ((membersJson_iff ms).mp ha.2 _ hv)
              ((membersJson_iff ns).mp hb.2 _ hw) hr hs (List.cons.inj htext).2
            refine ⟨⟨rfl, fun v' w' hv' hw' => ?_⟩, hrs⟩
            rw [member_unique ha.1 hv' hv, member_unique hb.1 hw' hw]
            exact hsame
          obtain ⟨hall, hrs⟩ := join_append_inj (e := closing) (by decide)
            (fun k r => not_delimited_quote k _ r) (fun l r => not_delimited_quote l _ r) hread
            (List.cons.inj h).2
          exact ⟨same_object hall, hrs⟩
      | bool b => cases b <;> cases hkind
      | _ => cases hkind

/-- The same value has the same text. -/
theorem stableJson_congr {a b : Value} (h : Same a b) :
    a.IsJson → b.IsJson → stableJson a = stableJson b := by
  induction h with
  | null | bool | number | string => exact fun _ _ => rfl
  | @array vs ws hlength _ ih =>
      intro ha hb
      have htexts : vs.map stableJson = ws.map stableJson := by
        refine List.ext_getElem (by simpa using hlength) fun i hi hi' => ?_
        rw [List.getElem_map, List.getElem_map]
        exact ih i _ _ (List.getElem?_eq_getElem _) (List.getElem?_eq_getElem _)
          ((allJson_iff vs).mp ha _ (List.getElem_mem _))
          ((allJson_iff ws).mp hb _ (List.getElem_mem _))
      rw [stableJson, stableJson, stableAll_eq, stableAll_eq, htexts]
  | @object ms ns hkeys _ ih =>
      intro ha hb
      have hsorted : (ms.map (·.1)).insertionSort (· ≤ ·) =
          (ns.map (·.1)).insertionSort (· ≤ ·) := by
        refine List.Perm.eq_of_sortedLE List.sortedLE_insertionSort List.sortedLE_insertionSort ?_
        exact (List.perm_insertionSort _ _).trans (hkeys.trans (List.perm_insertionSort _ _).symm)
      have hlookup : ∀ k ∈ (ns.map (·.1)).insertionSort (· ≤ ·),
          (stableMembers ms).lookup k = (stableMembers ns).lookup k := by
        intro k hk
        obtain ⟨w, hw⟩ := exists_member ((List.mem_insertionSort _).mp hk)
        obtain ⟨v, hv⟩ := exists_member (hkeys.mem_iff.mpr (List.mem_map_of_mem hw))
        rw [lookup_stableMembers ha.1 hv, lookup_stableMembers hb.1 hw,
          ih k v w hv hw ((membersJson_iff ms).mp ha.2 _ hv) ((membersJson_iff ns).mp hb.2 _ hw)]
      rw [stableJson, stableJson, hsorted]
      rw [List.map_congr_left fun k hk => by rw [hlookup k hk]]

/-- **Texts are canonical.** Two JSON values have one text exactly when they are the same up to the
order of keys, and values that differ share a fingerprint only where the digest collides. -/
theorem stableJson_eq_iff (a b : Json) :
    (stableJson a.value = stableJson b.value ↔ Same a.value b.value) ∧
    ∀ digest : Units → String,
      fingerprintPayload digest a.value = fingerprintPayload digest b.value →
        Same a.value b.value ∨ (stableJson a.value ≠ stableJson b.value ∧
          digest (stableJson a.value) = digest (stableJson b.value)) := by
  have hiff : stableJson a.value = stableJson b.value ↔ Same a.value b.value := by
    constructor
    · intro h
      have hnil : Delimited [] := fun u hu => (by cases hu)
      exact (same_of_append a.value b.value [] [] a.isJson b.isJson hnil hnil (by rw [h])).1
    · exact fun h => stableJson_congr h a.isJson b.isJson
  refine ⟨hiff, fun digest hdigest => ?_⟩
  by_cases h : stableJson a.value = stableJson b.value
  · exact .inl (hiff.mp h)
  · exact .inr ⟨h, hdigest⟩

end DayfiBackend.Infra.Fingerprints
