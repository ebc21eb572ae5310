import Mathlib.Data.Rat.Defs
import Mathlib.Data.List.Nodup

/-!
# Documents

Values made of objects, arrays and leaves, as deep as they like. A place in a document is a path of
keys and indices; `everywhere` asks something of every part, and says the same as a question about
every path when no object repeats a key (`Doc.everywhere_iff`).
-/

namespace DayfiBackend.Found

/-- A value without parts. -/
inductive Scalar where
  | null
  | bool (b : Bool)
  | number (q : ℚ)
  | text (s : String)
  deriving DecidableEq, Repr

/-- A document. The members of an object are in order. -/
inductive Doc where
  | leaf (v : Scalar)
  | array (items : List Doc)
  | object (members : List (String × Doc))

/-- One step into a document. -/
inductive Step where
  | key (k : String)
  | index (i : ℕ)
  deriving DecidableEq, Repr

/-- What is left of a document without its parts. -/
inductive Head where
  | leaf (v : Scalar)
  | array
  | object
  deriving DecidableEq, Repr

namespace Doc

def head : Doc → Head
  | leaf v => .leaf v
  | array _ => .array
  | object _ => .object

/-- The keys of an object. -/
def keys : Doc → List String
  | object ms => ms.map (·.1)
  | _ => []

/-- The part one step away. -/
def child : Doc → Step → Option Doc
  | object ms, .key k => ms.lookup k
  | array xs, .index i => xs[i]?
  | _, _ => none

/-- The part at a path. -/
def at? : Doc → List Step → Option Doc
  | d, [] => some d
  | d, s :: path => (d.child s).bind fun e => e.at? path

/-! ### Every part -/

mutual

/-- The document and every part of it pass. -/
def everywhere (p : Doc → Bool) : Doc → Bool
  | leaf v => p (leaf v)
  | array xs => p (array xs) && everywhereItem p xs
  | object ms => p (object ms) && everywhereMember p ms

def everywhereItem (p : Doc → Bool) : List Doc → Bool
  | [] => true
  | x :: xs => everywhere p x && everywhereItem p xs

def everywhereMember (p : Doc → Bool) : List (String × Doc) → Bool
  | [] => true
  | (_, d) :: ms => everywhere p d && everywhereMember p ms

end

/-- No object repeats a key. -/
def distinct : Doc → Bool := everywhere fun d => decide d.keys.Nodup

/-! ### Induction -/

/-- Induction on a document: what holds of every part holds of the whole. -/
theorem induction {P : Doc → Prop} (leaf : ∀ v, P (leaf v))
    (array : ∀ xs, (∀ x ∈ xs, P x) → P (array xs))
    (object : ∀ ms, (∀ m ∈ ms, P m.2) → P (object ms)) (d : Doc) : P d :=
  Doc.rec (motive_1 := P) (motive_2 := fun xs => ∀ x ∈ xs, P x)
    (motive_3 := fun ms => ∀ m ∈ ms, P m.2) (motive_4 := fun m => P m.2)
    leaf (fun xs ih => array xs ih) (fun ms ih => object ms ih)
    (fun _ hx => absurd hx List.not_mem_nil)
    (fun _ _ hx hxs y hy => (List.mem_cons.mp hy).elim (fun h => h ▸ hx) (hxs y))
    (fun _ hx => absurd hx List.not_mem_nil)
    (fun _ _ hm hms n hn => (List.mem_cons.mp hn).elim (fun h => h ▸ hm) (hms n))
    (fun _ _ h => h) d

section everywhere

variable {p : Doc → Bool} {d e : Doc} {xs : List Doc} {ms : List (String × Doc)}

theorem everywhereItem_iff : everywhereItem p xs = true ↔ ∀ x ∈ xs, x.everywhere p = true := by
  induction xs with
  | nil => simp [everywhereItem]
  | cons x xs ih => simp [everywhereItem, ih]

theorem everywhereMember_iff :
    everywhereMember p ms = true ↔ ∀ m ∈ ms, m.2.everywhere p = true := by
  induction ms with
  | nil => simp [everywhereMember]
  | cons m ms ih => simp [everywhereMember, ih]

@[simp] theorem everywhere_leaf (v : Scalar) : (leaf v).everywhere p = p (leaf v) := rfl

@[simp] theorem everywhere_array :
    (array xs).everywhere p = true ↔ p (array xs) = true ∧ ∀ x ∈ xs, x.everywhere p = true := by
  rw [everywhere, Bool.and_eq_true, everywhereItem_iff]

@[simp] theorem everywhere_object :
    (object ms).everywhere p = true ↔
      p (object ms) = true ∧ ∀ m ∈ ms, m.2.everywhere p = true := by
  rw [everywhere, Bool.and_eq_true, everywhereMember_iff]

theorem everywhere_self (h : d.everywhere p = true) : p d = true := by
  cases d with
  | leaf v => exact h
  | array xs => exact (everywhere_array.mp h).1
  | object ms => exact (everywhere_object.mp h).1

end everywhere

/-! ### Paths -/

section paths

variable {p : Doc → Bool} {d e : Doc} {ms : List (String × Doc)} {k : String} {s : Step}

@[simp] theorem at?_nil : d.at? [] = some d := by
  cases d <;> rfl

@[simp] theorem at?_cons {path : List Step} :
    d.at? (s :: path) = (d.child s).bind fun e => e.at? path := by
  cases d <;> rfl

theorem lookup_cons_ne {k' : String} (hk : k ≠ k') :
    List.lookup k ((k', d) :: ms) = ms.lookup k := by
  rw [List.lookup_cons, beq_false_of_ne hk]

theorem mem_of_lookup (h : ms.lookup k = some d) : (k, d) ∈ ms := by
  induction ms with
  | nil => simp at h
  | cons m ms ih =>
      obtain ⟨k', e⟩ := m
      by_cases hk : k = k'
      · subst hk
        rw [List.lookup_cons_self, Option.some.injEq] at h
        subst h
        exact List.mem_cons_self
      · rw [lookup_cons_ne hk] at h
        exact List.mem_cons_of_mem _ (ih h)

/-- A member is found by its key, when no key is repeated. -/
theorem lookup_of_mem (hms : (ms.map (·.1)).Nodup) (h : (k, d) ∈ ms) : ms.lookup k = some d := by
  induction ms with
  | nil => cases h
  | cons m ms ih =>
      obtain ⟨k', e⟩ := m
      rw [List.map_cons, List.nodup_cons] at hms
      rcases List.mem_cons.mp h with heq | hmem
      · obtain ⟨rfl, rfl⟩ := Prod.mk.inj heq
        exact List.lookup_cons_self
      · have hk : k ≠ k' := by
          rintro rfl
          exact hms.1 (List.mem_map.mpr ⟨(k, d), hmem, rfl⟩)
        rw [lookup_cons_ne hk]
        exact ih hms.2 hmem

theorem everywhere_child (h : d.everywhere p = true) (he : d.child s = some e) :
    e.everywhere p = true := by
  cases d with
  | leaf v => cases s <;> cases he
  | array xs =>
      cases s with
      | key k => cases he
      | index i => exact (everywhere_array.mp h).2 e (List.mem_of_getElem? he)
  | object ms =>
      cases s with
      | index i => cases he
      | key k => exact (everywhere_object.mp h).2 (k, e) (mem_of_lookup he)

/-- What holds everywhere holds at every path. -/
theorem everywhere_at {path : List Step} (h : d.everywhere p = true) (he : d.at? path = some e) :
    e.everywhere p = true := by
  induction path generalizing d with
  | nil =>
      rw [at?_nil, Option.some.injEq] at he
      exact he ▸ h
  | cons s path ih =>
      rw [at?_cons, Option.bind_eq_some_iff] at he
      obtain ⟨d', hd', he⟩ := he
      exact ih (everywhere_child h hd') he

/-- What holds at every path holds everywhere, when no object repeats a key. -/
theorem everywhere_iff (hd : d.distinct = true) :
    d.everywhere p = true ↔ ∀ path e, d.at? path = some e → p e = true := by
  refine ⟨fun h path e he => everywhere_self (everywhere_at h he), ?_⟩
  induction d using Doc.induction with
  | leaf v => exact fun h => h [] _ at?_nil
  | array xs ih =>
      intro h
      refine everywhere_array.mpr ⟨h [] _ at?_nil, fun x hx => ?_⟩
      obtain ⟨i, hi⟩ := List.mem_iff_getElem?.mp hx
      refine ih x hx ((everywhere_array.mp hd).2 x hx) fun path e he => ?_
      exact h (.index i :: path) e (by simp [child, hi, he])
  | object ms ih =>
      intro h
      refine everywhere_object.mpr ⟨h [] _ at?_nil, fun m hm => ?_⟩
      obtain ⟨hkeys, hparts⟩ := everywhere_object.mp hd
      have hlookup : ms.lookup m.1 = some m.2 := lookup_of_mem (of_decide_eq_true hkeys) hm
      refine ih m hm (hparts m hm) fun path e he => ?_
      exact h (.key m.1 :: path) e (by simp [child, hlookup, he])

end paths

end Doc

end DayfiBackend.Found
