import DayfiBackend.Found.Documents
import Mathlib.Data.List.Infix

/-!
# Secrets in the metadata an operator sees

`scrubMetadata` copies a transaction's metadata without the members that have a secret name. It
goes into objects and takes arrays as they are: a secret inside an array is copied
(`array_keeps_secret`). `scrubbed_iff` gives every metadata that is copied without its secrets and
without a loss.
-/

namespace DayfiBackend.Infra.Admin

open DayfiBackend.Found DayfiBackend.Found.Doc

/-- Source: `infraAdminService.ts` `SECRET_META_KEYS`. -/
def SECRET_META_KEYS : List String :=
  ["password", "passwordHash", "password_hash", "secret", "privateKey", "private_key", "seed",
    "mnemonic", "bvn", "otp", "otpCode", "apiKey", "api_key", "secretKey", "secret_key",
    "accountNumber", "account_number", "accountNo", "iban", "routingNumber"]

/-- `toLowerCase` of a character, as far as a search for ASCII words can tell: of the others only
the Kelvin sign and the dotted capital I become anything with an ASCII letter in it. -/
def lowerChar (c : Char) : List Char :=
  if c.isUpper then [c.toLower]
  else if c = Char.ofNat 0x212A then ['k']
  else if c = Char.ofNat 0x130 then ['i', Char.ofNat 0x307]
  else [c]

def toLowerCase (s : String) : List Char := s.toList.flatMap lowerChar

/-- The test of a key. Source: `infraAdminService.ts` `scrubMetadata`. -/
def isSecret (k : String) : Bool :=
  SECRET_META_KEYS.any fun s => decide (toLowerCase s <:+: toLowerCase k)

/-- `Object.entries`: those of an array are under its indices. -/
def entries : Doc → List (String × Doc)
  | .object ms => ms
  | .array xs => xs.zipIdx.map fun x => (toString x.2, x.1)
  | .leaf _ => []

/-- The key that sets the prototype and no member. -/
def protoKey : String := "__proto__"

/-- `out[k] = v`. -/
def assign (out : List (String × Doc)) (k : String) (v : Doc) : List (String × Doc) :=
  if k = protoKey then out
  else if k ∈ out.map (·.1) then out.map fun m => if m.1 = k then (k, v) else m
  else out ++ [(k, v)]

mutual

/-- What is kept of a value: an object is scrubbed, an array is taken as it is. -/
def scrubValue : Doc → Doc
  | .object ms => .object (scrubEntries [] ms)
  | .array xs => .array xs
  | .leaf v => .leaf v

/-- The loop over the members. -/
def scrubEntries (out : List (String × Doc)) : List (String × Doc) → List (String × Doc)
  | [] => out
  | (k, v) :: rest =>
      if isSecret k then scrubEntries out rest
      else scrubEntries (assign out k (scrubValue v)) rest

end

/-- Source: `infraAdminService.ts` `scrubMetadata`. -/
def scrubMetadata (metadata : Doc) : Doc := .object (scrubEntries [] (entries metadata))

/-! ### What scrubbing is for -/

/-- A path through no secret key. -/
def Open (path : List Step) : Prop := ∀ k, Step.key k ∈ path → isSecret k = false

/-- The copy has no secret key, and has everything else as it was. -/
structure Scrubbed (metadata out : Doc) : Prop where
  clean : ∀ path d, out.at? path = some d → ∀ k ∈ d.keys, isSecret k = false
  kept : ∀ path, Open path → (out.at? path).map head = (metadata.at? path).map head

/-- Metadata: its objects repeat no key. -/
structure Metadata where
  doc : Doc
  distinct : doc.distinct = true

/-- No key at any depth is secret. -/
def noSecret : Doc → Bool := everywhere fun d => d.keys.all fun k => !isSecret k

mutual

/-- A value that is copied as it should be: no array in it holds a secret key, and no member is
named like the prototype, except under a secret key. -/
def handled : Doc → Bool
  | .object ms => handledMembers ms
  | .array xs => noSecret (.array xs)
  | .leaf _ => true

def handledMembers : List (String × Doc) → Bool
  | [] => true
  | (k, v) :: rest => (isSecret k || (k ≠ protoKey && handled v)) && handledMembers rest

end

def isObject : Doc → Bool
  | .object _ => true
  | _ => false

/-! ### Scrubbing an object -/

section scrub

variable {out ms : List (String × Doc)} {k : String} {v : Doc}

theorem handled_object :
    handled (.object ms) = true ↔
      ∀ m ∈ ms, isSecret m.1 = false → m.1 ≠ protoKey ∧ handled m.2 = true := by
  rw [handled]
  induction ms with
  | nil => simp [handledMembers]
  | cons m ms ih =>
      simp only [handledMembers, Bool.and_eq_true, ih, List.forall_mem_cons]
      refine and_congr_left fun _ => ?_
      cases isSecret m.1 <;> simp

theorem assign_fresh (hk : k ∉ out.map (·.1)) :
    assign out k v = if k = protoKey then out else out ++ [(k, v)] := by
  unfold assign
  rw [if_neg hk]

/-- A member is kept. -/
def isKept (m : String × Doc) : Bool := !isSecret m.1 && m.1 ≠ protoKey

/-- The loop appends the members that are kept. -/
theorem scrubEntries_eq (hout : ∀ m ∈ ms, m.1 ∉ out.map (·.1)) (hms : (ms.map (·.1)).Nodup) :
    scrubEntries out ms = out ++ (ms.filter isKept).map fun m => (m.1, scrubValue m.2) := by
  induction ms generalizing out with
  | nil => simp [scrubEntries]
  | cons m ms ih =>
      rw [List.map_cons, List.nodup_cons] at hms
      have hrest : ∀ n ∈ ms, n.1 ∉ out.map (·.1) := fun n hn => hout n (List.mem_cons_of_mem _ hn)
      rw [scrubEntries]
      by_cases hsecret : isSecret m.1 = true
      · rw [if_pos hsecret, ih hrest hms.2, List.filter_cons_of_neg (by simp [isKept, hsecret])]
      · rw [if_neg hsecret, assign_fresh (hout m List.mem_cons_self)]
        by_cases hproto : m.1 = protoKey
        · rw [if_pos hproto, ih hrest hms.2, List.filter_cons_of_neg (by simp [isKept, hproto])]
        · have hout' : ∀ n ∈ ms, n.1 ∉ (out ++ [(m.1, scrubValue m.2)]).map (·.1) := by
            intro n hn hmem
            rw [List.map_append, List.mem_append] at hmem
            rcases hmem with hmem | hmem
            · exact hrest n hn hmem
            · have heq : n.1 = m.1 := by simpa using hmem
              exact hms.1 (heq ▸ List.mem_map_of_mem hn)
          rw [if_neg hproto, ih hout' hms.2,
            List.filter_cons_of_pos (by simp [isKept, hsecret, hproto])]
          simp

/-- What a scrubbed object has under a key. -/
theorem lookup_scrubEntries (hms : (ms.map (·.1)).Nodup) :
    (scrubEntries [] ms).lookup k =
      if isSecret k = true ∨ k = protoKey then none else (ms.lookup k).map scrubValue := by
  rw [scrubEntries_eq (by simp) hms, List.nil_append]
  clear hms
  induction ms with
  | nil => simp
  | cons m ms ih =>
      obtain ⟨k', e⟩ := m
      by_cases hkept : isKept (k', e) = true
      · rw [List.filter_cons_of_pos hkept, List.map_cons]
        by_cases hk : k = k'
        · subst hk
          have hopen : ¬ (isSecret k = true ∨ k = protoKey) := by
            simpa [isKept] using hkept
          rw [List.lookup_cons_self, List.lookup_cons_self, if_neg hopen]
          rfl
        · rw [lookup_cons_ne hk, lookup_cons_ne hk, ih]
      · rw [List.filter_cons_of_neg hkept, ih]
        by_cases hk : k = k'
        · subst hk
          have hclosed : isSecret k = true ∨ k = protoKey := by
            by_cases hs : isSecret k = true
            · exact .inl hs
            · exact .inr (by simpa [isKept, hs] using hkept)
          rw [if_pos hclosed, if_pos hclosed]
        · rw [lookup_cons_ne hk]

end scrub

/-! ### What is kept of a value -/

section value

variable {d e : Doc} {k : String} {s : Step}

theorem head_scrubValue : (scrubValue d).head = d.head := by
  cases d <;> rfl

/-- One step into a value that is handled. -/
theorem child_scrubValue (hd : d.distinct = true) (hh : handled d = true) (hobj : isObject d = true)
    (hs : ∀ k, s = .key k → isSecret k = false) :
    (scrubValue d).child s = (d.child s).map scrubValue := by
  cases d with
  | leaf v => cases hobj
  | array xs => cases hobj
  | object ms =>
      cases s with
      | index i => rfl
      | key k =>
          have hkeys : (ms.map (·.1)).Nodup := of_decide_eq_true (everywhere_self hd)
          rw [scrubValue, child, child, lookup_scrubEntries hkeys]
          by_cases hproto : k = protoKey
          · have hnone : ms.lookup k = none := by
              by_contra hne
              obtain ⟨e, he⟩ := Option.ne_none_iff_exists'.mp hne
              exact (handled_object.mp hh (k, e) (mem_of_lookup he) (hs k rfl)).1 hproto
            simp [hnone]
          · simp [hs k rfl, hproto]

theorem handled_child (hh : handled d = true) (hobj : isObject d = true)
    (hs : ∀ k, s = .key k → isSecret k = false) (he : d.child s = some e) : handled e = true := by
  cases d with
  | leaf v => cases hobj
  | array xs => cases hobj
  | object ms =>
      cases s with
      | index i => cases he
      | key k => exact (handled_object.mp hh (k, e) (mem_of_lookup he) (hs k rfl)).2

/-- A value that is handled keeps everything outside its secrets. -/
theorem kept_of_handled {path : List Step} (hd : d.distinct = true) (hh : handled d = true)
    (hpath : Open path) : ((scrubValue d).at? path).map head = (d.at? path).map head := by
  induction path generalizing d with
  | nil => simp [head_scrubValue]
  | cons s path ih =>
      have hs : ∀ k, s = .key k → isSecret k = false := by
        rintro k rfl
        exact hpath k List.mem_cons_self
      have hrest : Open path := fun k hk => hpath k (List.mem_cons_of_mem _ hk)
      cases hobj : isObject d with
      | false =>
          have hsame : scrubValue d = d := by
            cases d with
            | object ms => cases hobj
            | array xs => rfl
            | leaf v => rfl
          rw [hsame]
      | true =>
          rw [at?_cons, at?_cons, child_scrubValue hd hh hobj hs]
          cases he : d.child s with
          | none => rfl
          | some e => exact ih (everywhere_child hd he) (handled_child hh hobj hs he) hrest

/-- A value that is handled shows no secret. -/
theorem clean_of_handled {path : List Step} (hd : d.distinct = true) (hh : handled d = true)
    (he : (scrubValue d).at? path = some e) (hk : k ∈ e.keys) : isSecret k = false := by
  induction path generalizing d with
  | nil =>
      rw [at?_nil, Option.some.injEq] at he
      subst he
      cases d with
      | leaf v => cases hk
      | array xs => cases hk
      | object ms =>
          have hkeys : (ms.map (·.1)).Nodup := of_decide_eq_true (everywhere_self hd)
          rw [scrubValue, scrubEntries_eq (by simp) hkeys] at hk
          obtain ⟨m, hm, rfl⟩ := List.mem_map.mp hk
          obtain ⟨n, hn, rfl⟩ := List.mem_map.mp (List.nil_append _ ▸ hm)
          have hkept : isKept n = true := (List.mem_filter.mp hn).2
          exact (by simpa [isKept] using hkept : isSecret n.1 = false ∧ _).1
  | cons s path ih =>
      rw [at?_cons, Option.bind_eq_some_iff] at he
      obtain ⟨d', hd', he⟩ := he
      cases d with
      | leaf v => cases s <;> cases hd'
      | array xs =>
          have hat : (array xs).at? (s :: path) = some e := by
            rw [at?_cons]
            exact Option.bind_eq_some_iff.mpr ⟨d', hd', he⟩
          have hclean := everywhere_self (everywhere_at hh hat)
          simpa using List.all_eq_true.mp hclean k hk
      | object ms =>
          cases s with
          | index i => cases hd'
          | key k' =>
              have hkeys : (ms.map (·.1)).Nodup := of_decide_eq_true (everywhere_self hd)
              rw [scrubValue, child, lookup_scrubEntries hkeys] at hd'
              split_ifs at hd' with hclosed
              obtain ⟨v, hv, rfl⟩ := Option.map_eq_some_iff.mp hd'
              have hopen : isSecret k' = false := by
                by_contra hne
                exact hclosed (.inl (by simpa using hne))
              have hmem := mem_of_lookup hv
              exact ih ((everywhere_object.mp hd).2 _ hmem)
                (handled_object.mp hh _ hmem hopen).2 he

/-- A value whose copy shows no secret and lacks nothing else is handled. -/
theorem handled_of_scrubbed (hd : d.distinct = true) (h : Scrubbed d (scrubValue d)) :
    handled d = true := by
  induction d using Doc.induction with
  | leaf v => rfl
  | array xs _ =>
      rw [handled, noSecret, everywhere_iff hd]
      intro path e he
      refine List.all_eq_true.mpr fun k hk => ?_
      simp [h.clean path e he k hk]
  | object ms ih =>
      obtain ⟨hkeys, hparts⟩ := everywhere_object.mp hd
      have hkeys : (ms.map (·.1)).Nodup := of_decide_eq_true hkeys
      refine handled_object.mpr fun m hm hopen => ?_
      have hlookup : ms.lookup m.1 = some m.2 := lookup_of_mem hkeys hm
      have hproto : m.1 ≠ protoKey := by
        intro hproto
        have hpath : Open [.key m.1] := by
          intro k hk
          obtain rfl : k = m.1 := by simpa using hk
          exact hopen
        have hkept := h.kept [.key m.1] hpath
        rw [at?_cons, at?_cons, scrubValue, child, child, lookup_scrubEntries hkeys,
          if_pos (.inr hproto), hlookup] at hkept
        simp at hkept
      have hchild : (scrubValue (object ms)).child (.key m.1) = some (scrubValue m.2) := by
        simp [scrubValue, child, lookup_scrubEntries hkeys, hlookup, hopen, hproto]
      refine ⟨hproto, ih m hm (hparts m hm) ⟨fun path e he k hk => ?_, fun path hpath => ?_⟩⟩
      · exact h.clean (.key m.1 :: path) e (by rw [at?_cons, hchild]; exact he) k hk
      · have hopen' : Open (.key m.1 :: path) := by
          intro k hk
          rcases List.mem_cons.mp hk with heq | hmem
          · rw [Step.key.inj heq]
            exact hopen
          · exact hpath k hmem
        have hkept := h.kept (.key m.1 :: path) hopen'
        rw [at?_cons, at?_cons, hchild] at hkept
        simpa [child, hlookup] using hkept

end value

/-- **The copy of a transaction's metadata has no secret key at any depth, and everything else as
it was, exactly when the metadata is an object, no array outside its secrets holds a secret key, and
no member outside its secrets is named like the prototype.** -/
theorem scrubbed_iff (m : Metadata) :
    Scrubbed m.doc (scrubMetadata m.doc) ↔ isObject m.doc = true ∧ handled m.doc = true := by
  have hobject : isObject m.doc = true → scrubMetadata m.doc = scrubValue m.doc := by
    cases m.doc with
    | object ms => exact fun _ => rfl
    | array xs => exact fun h => by cases h
    | leaf v => exact fun h => by cases h
  constructor
  · intro h
    have hroot := h.kept [] fun k hk => absurd hk List.not_mem_nil
    have hobj : isObject m.doc = true := by
      revert hroot
      cases m.doc with
      | object ms => exact fun _ => rfl
      | array xs => simp [scrubMetadata, head]
      | leaf v => simp [scrubMetadata, head]
    rw [hobject hobj] at h
    exact ⟨hobj, handled_of_scrubbed m.distinct h⟩
  · rintro ⟨hobj, hh⟩
    rw [hobject hobj]
    exact ⟨fun path d hd k hk => clean_of_handled m.distinct hh hd hk,
      fun path hpath => kept_of_handled m.distinct hh hpath⟩

/-- Metadata with a password inside an array. -/
def listed : Metadata where
  doc := .object [("recipients", .array [.object [("password", .leaf (.text "hunter2"))]])]
  distinct := by decide +kernel

/-- The password is copied. -/
theorem array_keeps_secret : ¬ Scrubbed listed.doc (scrubMetadata listed.doc) := by
  intro h
  have hat : ((scrubMetadata listed.doc).at? [.key "recipients", .index 0]).map keys =
      some ["password"] := by decide +kernel
  obtain ⟨d, hd, hkeys⟩ := Option.map_eq_some_iff.mp hat
  have hopen : isSecret "password" = false := h.clean _ d hd "password" (by simp [hkeys])
  exact absurd hopen (by decide +kernel)

end DayfiBackend.Infra.Admin
