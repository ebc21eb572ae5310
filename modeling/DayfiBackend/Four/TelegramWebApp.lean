import DayfiBackend.Found.JsonReader
import DayfiBackend.Found.Base64
import DayfiBackend.Infra.BulkCsv
import Mathlib.Data.Char
import Mathlib.Data.List.Lex

/-!
# Login data of the Telegram web app

Telegram signs the fields of a login as lines of text, and the app checks the signature over the
parameters it is sent, written in the same way. Other parameters may be written as the same lines:
a value with a line break in it takes in the lines that follow. `accepted_is_signed` says that what
is read from the parameters is nevertheless what was signed.
-/

namespace DayfiBackend.Four.TelegramWebApp

open DayfiBackend.Found DayfiBackend.Found.JsonReader DayfiBackend.Found.CodeUnits
open DayfiBackend.Infra.BulkCsv (Text trimText)

/-! ### Parameters -/

/-- The bytes of a text in which `%` and two digits stand for a byte. -/
def percentDecode : List UInt8 → List UInt8
  | [] => []
  | b :: bs =>
      if b = 37 then
        match bs with
        | h₁ :: h₂ :: rest =>
            match Json.hexValue (Char.ofNat h₁.toNat), Json.hexValue (Char.ofNat h₂.toNat) with
            | some x, some y => UInt8.ofNat (x * 16 + y) :: percentDecode rest
            | _, _ => b :: percentDecode (h₁ :: h₂ :: rest)
        | bs => b :: percentDecode bs
      else b :: percentDecode bs

/-- A name or a value, decoded. -/
def decodeComponent (cs : Text) : Text :=
  Base64.chars (percentDecode
    ((cs.map fun c => if c = '+' then ' ' else c).flatMap String.utf8EncodeChar))

/-- `URLSearchParams`: the parameters in order. -/
def urlSearchParams (raw : Text) : List (Text × Text) :=
  let body := if raw.head? = some '?' then raw.tail else raw
  ((body.splitOn '&').filter (· ≠ [])).map fun part =>
    (decodeComponent (part.takeWhile (· ≠ '=')),
      decodeComponent ((part.dropWhile (· ≠ '=')).drop 1))

/-- The code units of a text. -/
def utf16s (cs : Text) : Units := cs.flatMap utf16

/-- A field as it is signed. -/
def line (field : Text × Text) : Text := field.1 ++ '=' :: field.2

/-- The lines in order, joined. -/
def dataCheckString (params : List (Text × Text)) : Text :=
  ['\n'].intercalate ((params.map line).insertionSort fun a b => utf16s a ≤ utf16s b)

/-! ### Validation -/

/-- A hash with a key, and its hexadecimal text. -/
structure Crypto (Digest : Type) where
  ofText : Text → Digest
  hmac : Digest → Text → Digest
  hex : Digest → Text

/-- The signature of a text, under the token of the bot. -/
def Crypto.signature {Digest : Type} (c : Crypto Digest) (botToken dataCheckString : Text) : Text :=
  c.hex (c.hmac (c.hmac (c.ofText "WebAppData".toList) botToken) dataCheckString)

/-- A member of an object; of two with one name the last. -/
def member (v : JsonValue) (name : Text) : Option JsonValue :=
  match v with
  | .object ms => ms.reverse.lookup (utf16s name)
  | _ => none

/-- What counts as true. -/
def truthy : JsonValue → Bool
  | .null => false
  | .bool b => b
  | .number (.finite x) => x ≠ 0
  | .number (.infinite _) => true
  | .string s => s ≠ []
  | .array _ | .object _ => true

/-- Source: `telegramWebAppAuth.ts` `ValidateInitDataResult`, where it is `ok`. -/
structure Validated where
  user : JsonValue
  authDate : ℚ

/-- The hash among the parameters. -/
def presentedHash (initData : Text) : Option Text :=
  ((urlSearchParams (trimText initData)).lookup "hash".toList).filter (· ≠ [])

/-- `Number(params.get('auth_date'))`, where it is finite. -/
def authDateOf (params : List (Text × Text)) : Option ℚ :=
  match (params.lookup "auth_date".toList).elim (some (.finite 0)) fun s =>
    readLiteral (trimText s) with
  | some (.finite x) => some x
  | _ => none

/-- The user among the parameters. -/
def userOf (params : List (Text × Text)) : Except String JsonValue :=
  match (params.lookup "user".toList).filter (· ≠ []) with
  | none => .error "missing_user"
  | some userRaw =>
      match parse userRaw with
      | none => .error "invalid_user_json"
      | some user =>
          if (member user "id".toList).any truthy then .ok user else .error "invalid_user"

/-- Source: `telegramWebAppAuth.ts` `validateTelegramWebAppInitData`, at a clock in milliseconds. -/
def validateTelegramWebAppInitData {Digest : Type} (c : Crypto Digest) (dateNow : ℕ)
    (initData botToken : Text) (maxAgeSeconds : ℚ) : Except String Validated :=
  let raw := trimText initData
  if raw = [] then .error "missing_init_data"
  else if botToken = [] then .error "bot_not_configured"
  else
    match presentedHash initData with
    | none => .error "missing_hash"
    | some hash =>
        let params := (urlSearchParams raw).filter (·.1 ≠ "hash".toList)
        if c.signature botToken (dataCheckString params) ≠ hash then .error "invalid_hash"
        else
          match (authDateOf params).filter (0 < ·) with
          | none => .error "invalid_auth_date"
          | some authDate =>
              if maxAgeSeconds < (dateNow / 1000 : ℕ) - authDate then .error "expired"
              else (userOf params).map fun user => ⟨user, authDate⟩

/-! ### What Telegram signs -/

/-- The fields of a login that Telegram signs. -/
structure FieldMap where
  fields : List (Text × Text)
  keys_nodup : (fields.map (·.1)).Nodup
  keys_plain : ∀ f ∈ fields, '=' ∉ f.1 ∧ '\n' ∉ f.1
  values_plain : ∀ f ∈ fields, '\n' ∉ f.2
  user_document : ∀ u, ("user".toList, u) ∈ fields → (parse u).isSome

/-- The text that is signed: the lines in order of their characters. -/
def FieldMap.text (F : FieldMap) : Text :=
  ['\n'].intercalate ((F.fields.map line).insertionSort (· ≤ ·))

/-- The hash that is presented is the signature of no text but those that were signed. -/
def Unforgeable {Digest : Type} (c : Crypto Digest) (botToken initData : Text)
    (signed : FieldMap → Prop) : Prop :=
  ∀ m, presentedHash initData = some (c.signature botToken m) → ∃ F, signed F ∧ F.text = m

section lines

variable {ts : List Text} {t l u v : Text}

/-- A text that goes on in front of lines. -/
theorem splitOn_append (hu : '\n' ∉ u) (v : Text) :
    ∃ first more, v.splitOn '\n' = first :: more ∧
      (u ++ v).splitOn '\n' = (u ++ first) :: more := by
  obtain ⟨first, more, hv⟩ := List.exists_cons_of_ne_nil (List.splitOn_ne_nil '\n' v)
  refine ⟨first, more, hv, ?_⟩
  induction u with
  | nil => exact hv
  | cons c u ih =>
      have hc : (c == '\n') = false := by
        simpa using fun h : c = '\n' => hu (h ▸ List.mem_cons_self)
      rw [List.cons_append, List.splitOn_cons_eq_if_modifyHead, hc,
        ih fun h => hu (List.mem_cons_of_mem c h)]
      rfl

/-- The lines of a text are lines of the texts it is joined to. -/
theorem mem_splitOn_intercalate (ht : t ∈ ts) (hl : l ∈ t.splitOn '\n') :
    l ∈ (['\n'].intercalate ts).splitOn '\n' := by
  induction ts with
  | nil => cases ht
  | cons s ts ih =>
      cases ts with
      | nil =>
          rw [List.mem_singleton.mp ht] at hl
          simpa [List.intercalate] using hl
      | cons s' ts =>
          rw [List.intercalate_cons_cons, List.append_assoc, List.singleton_append,
            List.splitOn_append_cons_self]
          rcases List.mem_cons.mp ht with rfl | ht
          · exact List.mem_append_left _ hl
          · exact List.mem_append_right _ (ih ht)

end lines

section signed

variable {F : FieldMap} {ps : List (Text × Text)} {k v w : Text}

theorem line_plain {f : Text × Text} (hf : f ∈ F.fields) : '\n' ∉ line f := by
  intro h
  rcases List.mem_append.mp h with h | h
  · exact (F.keys_plain f hf).2 h
  · exact F.values_plain f hf ((List.mem_cons.mp h).resolve_left (by decide))

/-- The lines of a signed text are its fields. -/
theorem exists_field {l : Text} (hF : F.fields ≠ []) (h : l ∈ F.text.splitOn '\n') :
    ∃ f ∈ F.fields, line f = l := by
  have hperm := List.perm_insertionSort (· ≤ ·) (F.fields.map line)
  rw [FieldMap.text, List.splitOn_intercalate '\n' (fun l hl => ?_) (fun h => ?_)] at h
  · exact List.mem_map.mp (hperm.mem_iff.mp h)
  · obtain ⟨f, hf, rfl⟩ := List.mem_map.mp (hperm.mem_iff.mp hl)
    exact line_plain hf
  · rw [h] at hperm
    exact hF (List.map_eq_nil_iff.mp hperm.symm.eq_nil)

/-- The key of a line is what stands before its first equals sign. -/
theorem line_inj {f : Text × Text} (hk : '=' ∉ k) (hf : '=' ∉ f.1)
    (h : line f = k ++ '=' :: v) : f = (k, v) := by
  have hkeys : ∀ {a b : Text}, '=' ∉ a → (a ++ '=' :: b).takeWhile (· ≠ '=') = a := by
    intro a b ha
    rw [List.takeWhile_append_of_pos fun c hc => by
      simpa using fun heq : c = '=' => ha (heq ▸ hc)]
    simp
  have hkey : f.1 = k := by rw [← hkeys hf (b := f.2), ← hkeys hk (b := v), ← h]; rfl
  obtain ⟨a, b⟩ := f
  obtain rfl := hkey
  exact congrArg (Prod.mk a) (List.cons.inj (List.append_cancel_left h)).2

/-- A parameter has the value of the field that was signed under its key, or the lines that follow
it as well. -/
theorem signed_value (h : dataCheckString ps = F.text) (hequals : '=' ∉ k) (hbreak : '\n' ∉ k)
    (hp : (k, v) ∈ ps) :
    ∃ v₁, (k, v₁) ∈ F.fields ∧ (v = v₁ ∨ ∃ w, v = v₁ ++ '\n' :: w ∧ '=' ∈ w) := by
  have hlines : ∀ l ∈ (line (k, v)).splitOn '\n', l ∈ F.text.splitOn '\n' := by
    intro l hl
    rw [← h, dataCheckString]
    exact mem_splitOn_intercalate ((List.mem_insertionSort _).mpr (List.mem_map_of_mem hp)) hl
  have hprefix : '\n' ∉ k ++ ['='] := by simpa using hbreak
  obtain ⟨v₁, more, hv, hline⟩ := splitOn_append hprefix v
  have hwhole : line (k, v) = k ++ ['='] ++ v := by simp [line]
  rw [hwhole, hline] at hlines
  have hF : F.fields ≠ [] := by
    intro hnil
    have hfirst := hlines _ List.mem_cons_self
    rw [FieldMap.text, hnil] at hfirst
    simp [List.intercalate] at hfirst
  obtain ⟨f, hf, hfline⟩ := exists_field hF (hlines _ List.mem_cons_self)
  obtain rfl := line_inj hequals (F.keys_plain f hf).1 (by simpa using hfline)
  refine ⟨v₁, hf, ?_⟩
  have hjoin : ['\n'].intercalate (v.splitOn '\n') = v := List.intercalate_splitOn _
  rw [hv] at hjoin
  cases more with
  | nil => exact .inl (by simpa [List.intercalate] using hjoin.symm)
  | cons l more =>
      refine .inr ⟨['\n'].intercalate (l :: more), ?_, ?_⟩
      · rw [← hjoin, List.intercalate_cons_cons, List.append_assoc, List.singleton_append]
      · obtain ⟨f', -, rfl⟩ := exists_field hF (hlines l (by simp))
        have hmem : '=' ∈ line f' := List.mem_append_right _ List.mem_cons_self
        cases more with
        | nil => simpa [List.intercalate] using hmem
        | cons l' more =>
            rw [List.intercalate_cons_cons, List.append_assoc]
            exact List.mem_append_left _ hmem

/-- What is no white space is not trimmed. -/
theorem mem_trimText {cs : Text} {c : Char} (hc : Keys.isSpace c = false) (h : c ∈ cs) :
    c ∈ trimText cs := by
  have hdrop : ∀ {ds : Text}, c ∈ ds → c ∈ ds.dropWhile Keys.isSpace := by
    intro ds hmem
    rw [← List.takeWhile_append_dropWhile (p := Keys.isSpace) (l := ds)] at hmem
    refine (List.mem_append.mp hmem).resolve_left fun htake => ?_
    rw [List.mem_takeWhile_imp htake] at hc
    cases hc
  exact List.mem_reverse.mpr (hdrop (List.mem_reverse.mpr (hdrop h)))

/-- The user that is read was signed. -/
theorem signed_user {user : JsonValue} (h : dataCheckString ps = F.text)
    (huser : userOf ps = .ok user) :
    ∃ u, ("user".toList, u) ∈ F.fields ∧ parse u = some user := by
  unfold userOf at huser
  cases hlookup : (ps.lookup "user".toList).filter (· ≠ []) with
  | none =>
      rw [hlookup] at huser
      cases huser
  | some v =>
      rw [hlookup] at huser
      cases hparse : parse v with
      | none =>
          simp only [hparse] at huser
          cases huser
      | some w =>
          simp only [hparse] at huser
          split_ifs at huser
          cases huser
          obtain ⟨l₁, l₂, hsplit, -⟩ :=
            List.lookup_eq_some_iff.mp (Option.filter_eq_some_iff.mp hlookup).1
          obtain ⟨v₁, hfield, hvalue⟩ := signed_value h (k := "user".toList) (v := v) (by decide)
            (by decide) (by rw [hsplit]; simp)
          refine ⟨v₁, hfield, ?_⟩
          rcases hvalue with rfl | ⟨w, rfl, hw⟩
          · exact hparse
          · -- no document goes on behind the line break
            obtain ⟨v', hv'⟩ := Option.isSome_iff_exists.mp (F.user_document v₁ hfield)
            have hskip := parse_line hv' hparse
            have hblank := List.dropWhile_eq_nil_iff.mp hskip '=' hw
            exact absurd hblank (by decide)

/-- The date that is read was signed. -/
theorem signed_authDate {x : ℚ} (h : dataCheckString ps = F.text) (hpos : 0 < x)
    (hdate : authDateOf ps = some x) :
    ∃ d, ("auth_date".toList, d) ∈ F.fields ∧ readLiteral (trimText d) = some (.finite x) := by
  unfold authDateOf at hdate
  cases hlookup : ps.lookup "auth_date".toList with
  | none =>
      rw [hlookup] at hdate
      obtain rfl := Option.some.inj hdate
      exact absurd hpos (lt_irrefl 0)
  | some v =>
      simp only [hlookup, Option.elim_some] at hdate
      have hread : readLiteral (trimText v) = some (.finite x) := by
        cases hliteral : readLiteral (trimText v) with
        | none =>
            rw [hliteral] at hdate
            cases hdate
        | some y =>
            rw [hliteral] at hdate
            cases y with
            | infinite negative => cases hdate
            | finite y =>
                obtain rfl := Option.some.inj hdate
                rfl
      obtain ⟨l₁, l₂, hsplit, -⟩ := List.lookup_eq_some_iff.mp hlookup
      obtain ⟨v₁, hfield, hvalue⟩ := signed_value h (k := "auth_date".toList) (v := v) (by decide)
        (by decide) (by rw [hsplit]; simp)
      refine ⟨v₁, hfield, ?_⟩
      rcases hvalue with rfl | ⟨w, rfl, hw⟩
      · exact hread
      · have hmem : '=' ∈ trimText (v₁ ++ '\n' :: w) := mem_trimText (by decide) (by simp [hw])
        rw [readLiteral_eq_none hmem] at hread
        cases hread

end signed

/-- **Login data cannot be altered.** Whatever is accepted, its user and its date are those of one
login that Telegram signed, at most the given age ago. -/
theorem accepted_is_signed {Digest : Type} (c : Crypto Digest) (signed : FieldMap → Prop)
    (dateNow : ℕ) (initData botToken : Text) (maxAgeSeconds : ℚ) (result : Validated)
    (hforge : Unforgeable c botToken initData signed)
    (h : validateTelegramWebAppInitData c dateNow initData botToken maxAgeSeconds = .ok result) :
    ∃ F, signed F ∧
      (∃ u, ("user".toList, u) ∈ F.fields ∧ parse u = some result.user) ∧
      (∃ d, ("auth_date".toList, d) ∈ F.fields ∧
        readLiteral (trimText d) = some (.finite result.authDate)) ∧
      (dateNow / 1000 : ℕ) - result.authDate ≤ maxAgeSeconds := by
  simp only [validateTelegramWebAppInitData] at h
  split_ifs at h
  cases hhash : presentedHash initData with
  | none =>
      rw [hhash] at h
      cases h
  | some hash =>
      simp only [hhash] at h
      split_ifs at h with hsignature
      cases hdate : (authDateOf ((urlSearchParams (trimText initData)).filter
          (·.1 ≠ "hash".toList))).filter (0 < ·) with
      | none =>
          rw [hdate] at h
          cases h
      | some authDate =>
          simp only [hdate] at h
          split_ifs at h with hexpired
          cases huser : userOf ((urlSearchParams (trimText initData)).filter
              (·.1 ≠ "hash".toList)) with
          | error e =>
              rw [huser] at h
              cases h
          | ok user =>
              rw [huser] at h
              cases h
              obtain ⟨F, hF, htext⟩ := hforge _ (by rw [hhash, not_not.mp hsignature])
              obtain ⟨hread, hpos⟩ := Option.filter_eq_some_iff.mp hdate
              exact ⟨F, hF, signed_user htext.symm huser,
                signed_authDate htext.symm (of_decide_eq_true hpos) hread, not_lt.mp hexpired⟩

/-- The token of a bot. -/
def adaBot : Text := "123456:bot-token".toList

/-- The key that is made of the token. -/
def adaKey : Text := "23741044aa7954251221bc26275595db03dba8e10c08d15940b1d8257d123aed".toList

/-- The document of a user. -/
def adaUser : Text := String.toList "\x7b\"id\":42,\"first_name\":\"Ada\"\x7d"

/-- A login. -/
def adaFields : FieldMap where
  fields := [("auth_date".toList, "1700000000".toList), ("query_id".toList, "AAE".toList),
    ("user".toList, adaUser)]
  keys_nodup := by decide
  keys_plain := by decide
  values_plain := by decide
  user_document := by
    intro u hu
    obtain rfl : u = adaUser := by simpa using hu
    decide +kernel

/-- Its signature. -/
def adaHash : Text := "7acc28cdea86dab7674ffb19f90184575fb8b3ea79935b839b2a6eb246a8a1ac".toList

/-- The hash of the texts that are hashed here. -/
def adaCrypto : Crypto Text where
  ofText := id
  hmac key text :=
    if key = "WebAppData".toList ∧ text = adaBot then adaKey
    else if key = adaKey ∧ text = adaFields.text then adaHash
    else []
  hex := id

/-- The login as it is sent, in another order. -/
def adaInitData : Text :=
  "user=%7B%22id%22%3A42%2C%22first_name%22%3A%22Ada%22%7D&query_id=AAE".toList ++
    ("&auth_date=1700000000&hash=".toList ++ adaHash)

theorem accepted_is_signed_ada : ∃ result,
    validateTelegramWebAppInitData adaCrypto 1700000600000 adaInitData adaBot 86400 = .ok result ∧
    ∃ F, F = adaFields ∧
      (∃ u, ("user".toList, u) ∈ F.fields ∧ parse u = some result.user) ∧
      (∃ d, ("auth_date".toList, d) ∈ F.fields ∧
        readLiteral (trimText d) = some (.finite result.authDate)) ∧
      (1700000600000 / 1000 : ℕ) - result.authDate ≤ 86400 := by
  have hok : (validateTelegramWebAppInitData adaCrypto 1700000600000 adaInitData adaBot
      86400).isOk = true := by decide +kernel
  have hhash : presentedHash adaInitData = some adaHash := by decide +kernel
  have hkey : adaKey ≠ "WebAppData".toList := by decide
  have hne : adaHash ≠ [] := by decide
  have hforge : Unforgeable adaCrypto adaBot adaInitData (· = adaFields) := by
    intro m hm
    rw [hhash] at hm
    refine ⟨adaFields, rfl, ?_⟩
    by_contra hne'
    have hhmac : ∀ key text, adaCrypto.hmac key text =
        if key = "WebAppData".toList ∧ text = adaBot then adaKey
        else if key = adaKey ∧ text = adaFields.text then adaHash else [] := fun _ _ => rfl
    have hfirst : adaCrypto.hmac (adaCrypto.ofText "WebAppData".toList) adaBot = adaKey := by
      rw [hhmac, if_pos ⟨rfl, rfl⟩]
    have hsecond : adaCrypto.hmac adaKey m = [] := by
      rw [hhmac, if_neg fun h => hkey h.1, if_neg fun h => hne' h.2.symm]
    have hnil : adaCrypto.signature adaBot m = [] := by
      rw [Crypto.signature, hfirst, hsecond]
      rfl
    rw [hnil] at hm
    exact hne (Option.some.inj hm)
  cases hresult : validateTelegramWebAppInitData adaCrypto 1700000600000 adaInitData adaBot
      86400 with
  | error e =>
      rw [hresult] at hok
      cases hok
  | ok result =>
      exact ⟨result, rfl, accepted_is_signed adaCrypto (· = adaFields) 1700000600000 adaInitData
        adaBot 86400 result hforge hresult⟩

end DayfiBackend.Four.TelegramWebApp
