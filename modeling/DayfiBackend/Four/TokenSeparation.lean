import DayfiBackend.Four.LinkTokens

/-!
# Which tokens the two readers accept

A token made by either service is read back by its own reader until it expires
(`readSecure_payload`, `readFlow_payload`). Assuming that nobody else can sign (`Unforged`), what a
reader accepts was signed by one of the two services. The flow reader checks that the purpose is
one of its own. The secure reader compares the purpose only with the one it is told to expect;
told none, it accepts the tokens of the other service too.

* `link_tokens` — each reader accepts the tokens of its own service only, exactly when the secure
  reader is told which purpose to expect or is not shown a flow token that is still valid.
-/

namespace DayfiBackend.Four

open DayfiBackend.Found.Keys DayfiBackend.Found.Base64 DayfiBackend.Found.Json

/-! ### The parts of a token -/

theorem digit_plain : ∀ n < 64, toUrl (digit n) ≠ '.' ∧ isSpace (toUrl (digit n)) = false := by
  decide

/-- Base64url has neither dots nor white space. -/
theorem encodeUrl_plain {bs : List UInt8} {c : Char} (h : c ∈ (encodeUrl bs).toList) :
    c ≠ '.' ∧ isSpace c = false := by
  rcases mem_encodeUrl h with rfl | ⟨n, hn, rfl⟩
  · decide
  · exact digit_plain n hn

section parts

variable {a b : List UInt8}

theorem toList_token : (encodeUrl a ++ "." ++ encodeUrl b).toList =
    (encodeUrl a).toList ++ '.' :: (encodeUrl b).toList := by
  rw [String.toList_append, String.toList_append, List.append_assoc]
  rfl

theorem trim_token :
    trim (encodeUrl a ++ "." ++ encodeUrl b) = encodeUrl a ++ "." ++ encodeUrl b := by
  refine trim_eq_of_forall fun c hc => ?_
  rw [toList_token, List.mem_append, List.mem_cons] at hc
  rcases hc with hc | rfl | hc
  · exact (encodeUrl_plain hc).2
  · decide
  · exact (encodeUrl_plain hc).2

theorem splitToken_token :
    splitToken (encodeUrl a ++ "." ++ encodeUrl b) = (encodeUrl a, some (encodeUrl b)) := by
  have hall : ∀ c ∈ (encodeUrl a).toList, decide (c ≠ '.') = true := fun c hc => by
    simpa using (encodeUrl_plain hc).1
  have hrest : (encodeUrl b).toList.takeWhile (· ≠ '.') = (encodeUrl b).toList :=
    List.takeWhile_eq_self_iff.mpr fun c hc => by simpa using (encodeUrl_plain hc).1
  unfold splitToken
  rw [toList_token, List.takeWhile_append_of_pos hall, List.dropWhile_append_of_pos hall,
    List.takeWhile_cons_of_neg (by simp), List.dropWhile_cons_of_neg (by simp), List.append_nil]
  dsimp only
  rw [hrest, String.ofList_toList, String.ofList_toList]

end parts

/-- A text that splits has a dot. -/
theorem includes_of_split {raw encoded signature : String}
    (h : splitToken raw = (encoded, some signature)) : includes raw "." = true := by
  have hdot : '.' ∈ raw.toList := by
    by_contra hno
    have hdrop : raw.toList.dropWhile (· ≠ '.') = [] := by
      refine List.dropWhile_eq_nil_iff.mpr fun c hc => ?_
      rw [decide_eq_true_eq]
      rintro rfl
      exact hno hc
    unfold splitToken at h
    rw [hdrop] at h
    simp at h
  unfold includes
  rw [decide_eq_true_eq]
  obtain ⟨before, after, hsplit⟩ := List.append_of_mem hdot
  exact ⟨before, after, by rw [hsplit]; simp⟩

section signed

variable {pf : TokenPlatform} {payload : Members}

theorem encodePayload_ne_empty : encodePayload payload ≠ "" := by
  refine encodeUrl_ne_empty (utf8_ne_nil fun h => ?_)
  have hlist := congrArg String.toList h
  rw [stringify, String.toList_ofList] at hlist
  cases hlist

theorem signature_ne_empty (encoded : String) : pf.signature encoded ≠ "" := by
  refine encodeUrl_ne_empty fun h => ?_
  have hlen := (pf.hmac pf.signingSecret encoded).2
  rw [h] at hlen
  cases hlen

@[simp] theorem decodePayload_encodePayload :
    decodePayload (encodePayload payload) = some payload := by
  simp [decodePayload, encodePayload]

theorem encodePayload_inj {payload' : Members}
    (h : encodePayload payload = encodePayload payload') : payload = payload' := by
  have hdecode := congrArg decodePayload h
  rw [decodePayload_encodePayload, decodePayload_encodePayload] at hdecode
  exact Option.some.inj hdecode

end signed

/-- The token carries an encoded payload with its signature. -/
def Carries (pf : TokenPlatform) (token encoded : String) : Prop :=
  splitToken (trim token) = (encoded, some (pf.signature encoded))

theorem carries_token (pf : TokenPlatform) (payload : Members) :
    Carries pf (encodePayload payload ++ "." ++ pf.signature (encodePayload payload))
      (encodePayload payload) := by
  unfold Carries encodePayload TokenPlatform.signature
  rw [trim_token, splitToken_token]

section verify

variable {pf : TokenPlatform} {now : ℕ} {token encoded : String}
  {expected : Option SecurePurpose} {payload : Members}

/-- The secure reader reads the payload of a token that is signed. -/
theorem verifySecure_carries (hsecret : pf.signingSecret ≠ "")
    (h : Carries pf token (encodePayload payload)) :
    verifyWhatsappSecureToken pf now token expected = readSecurePayload now expected payload := by
  unfold verifyWhatsappSecureToken
  dsimp only
  rw [includes_of_split h, if_neg (by decide), h]
  dsimp only
  rw [if_neg (not_or.mpr ⟨encodePayload_ne_empty, signature_ne_empty _⟩)]
  simp [signPayload, hsecret]

/-- The flow reader does, too. -/
theorem verifyFlow_carries (h : Carries pf token (encodePayload payload)) :
    verifyWhatsappFlowToken pf now token = readFlowPayload now payload := by
  unfold verifyWhatsappFlowToken
  rw [h]
  dsimp only
  rw [if_neg (not_or.mpr ⟨encodePayload_ne_empty, signature_ne_empty _⟩)]
  simp

/-- What the secure reader accepts is signed. -/
theorem verifySecure_ok {r : SecureToken}
    (h : verifyWhatsappSecureToken pf now token expected = .ok r) :
    ∃ encoded payload, Carries pf token encoded ∧ decodePayload encoded = some payload ∧
      readSecurePayload now expected payload = .ok r := by
  unfold verifyWhatsappSecureToken at h
  dsimp only at h
  split at h
  · cases h
  · split at h
    · cases h
    · rename_i encoded signature hsplit
      split at h
      · cases h
      · unfold signPayload at h
        split at h
        · cases h
        · rename_i sig hsig
          split at hsig
          · cases hsig
          · cases hsig
            split at h
            · cases h
            · rename_i hsame
              split at h
              · cases h
              · rename_i payload hpayload
                rw [not_not.mp hsame] at hsplit
                exact ⟨encoded, payload, hsplit, hpayload, h⟩

/-- What the flow reader accepts is signed. -/
theorem verifyFlow_ok {r : FlowToken} (h : verifyWhatsappFlowToken pf now token = .ok r) :
    ∃ encoded payload, Carries pf token encoded ∧ decodePayload encoded = some payload ∧
      readFlowPayload now payload = .ok r := by
  unfold verifyWhatsappFlowToken at h
  split at h
  · cases h
  · rename_i encoded signature hsplit
    split at h
    · cases h
    · split at h
      · cases h
      · rename_i hsame
        split at h
        · cases h
        · rename_i payload hpayload
          rw [not_not.mp hsame] at hsplit
          exact ⟨encoded, payload, hsplit, hpayload, h⟩

end verify

/-! ### Payloads -/

section payloads

variable {pf : TokenPlatform} {made now : ℕ}

/-- What a secure token says of the values it was made from. -/
def SecureTokenInput.token (input : SecureTokenInput) : SecureToken :=
  ⟨input.userId, input.purpose.text, orNull input.intentId⟩

/-- What a flow token says of the values it was made from. -/
def FlowTokenInput.token (input : FlowTokenInput) (pf : TokenPlatform) : FlowToken :=
  ⟨input.userId, input.purpose.getD .pinSetup, input.billCategory pf⟩

theorem secure_fields (made : ℕ) (input : SecureTokenInput) :
    textField (input.payload made) "u" = some input.userId ∧
      textField (input.payload made) "p" = some input.purpose.text ∧
      numberField (input.payload made) "e" = some (expiry made input.ttlSeconds) ∧
      textField (input.payload made) "i" = orNull input.intentId := by
  unfold SecureTokenInput.payload
  cases orNull input.intentId <;> simp [textField, numberField, field]

theorem flow_fields (pf : TokenPlatform) (made : ℕ) (input : FlowTokenInput) :
    textField (input.payload pf made) "u" = some input.userId ∧
      textField (input.payload pf made) "p" = some (input.purpose.getD .pinSetup).text ∧
      numberField (input.payload pf made) "e" = some (expiry made input.ttlSeconds) ∧
      textField (input.payload pf made) "i" = none ∧
      textField (input.payload pf made) "c" = input.billCategory pf := by
  unfold FlowTokenInput.payload
  cases input.billCategory pf <;> simp [textField, numberField, field]

theorem securePurpose_ne_empty (p : SecurePurpose) : p.text ≠ "" := by
  cases p <;> decide

theorem flowPurpose_ne_empty (p : FlowPurpose) : p.text ≠ "" := by
  cases p <;> decide

/-- The two services have no purpose in common. -/
theorem purposes_disjoint (p : SecurePurpose) (q : FlowPurpose) : p.text ≠ q.text := by
  cases p <;> cases q <;> decide

theorem SecurePurpose.text_inj {p q : SecurePurpose} (h : p.text = q.text) : p = q := by
  cases p <;> cases q <;> first | rfl | exact absurd h (by decide)

theorem orNull_some {s : String} (h : s ≠ "") : orNull (some s) = some s := by
  simp [orNull, h]

/-- The payload of a secure token, read by its own reader. -/
theorem readSecure_payload (input : SecureTokenInput) (expected : Option SecurePurpose) :
    readSecurePayload now expected (input.payload made) =
      if input.userId = "" ∨ expiry made input.ttlSeconds = 0 then .error "invalid_payload"
      else if expiry made input.ttlSeconds < now / 1000 then .error "expired"
      else if expected.any (· ≠ input.purpose) then .error "purpose_mismatch"
      else .ok input.token := by
  obtain ⟨hu, hp, he, hi⟩ := secure_fields made input
  have hpurpose : (expected.any fun q => decide (input.purpose.text ≠ q.text)) =
      expected.any (· ≠ input.purpose) := by
    cases expected with
    | none => rfl
    | some q =>
        by_cases hq : q = input.purpose
        · simp [hq]
        · have hne : input.purpose.text ≠ q.text := fun h => hq (SecurePurpose.text_inj h).symm
          simp [hq, hne]
  unfold readSecurePayload
  rw [hu, hp, he, hi, orNull_some (securePurpose_ne_empty _)]
  by_cases huser : input.userId = ""
  · simp [orNull, huser]
  · rw [orNull_some huser]
    by_cases hexp : expiry made input.ttlSeconds = 0
    · rw [hexp, if_pos (.inr rfl)]
      rfl
    · rw [Option.filter_some, if_pos (by simpa using hexp), if_neg (not_or.mpr ⟨huser, hexp⟩)]
      dsimp only
      rw [hpurpose]
      rfl

/-- The payload of a flow token, read by the reader of the other service. -/
theorem readSecure_flowPayload (input : FlowTokenInput) (expected : Option SecurePurpose) :
    readSecurePayload now expected (input.payload pf made) =
      if input.userId = "" ∨ expiry made input.ttlSeconds = 0 then .error "invalid_payload"
      else if expiry made input.ttlSeconds < now / 1000 then .error "expired"
      else if expected.isSome then .error "purpose_mismatch"
      else .ok ⟨input.userId, (input.purpose.getD .pinSetup).text, none⟩ := by
  obtain ⟨hu, hp, he, hi, -⟩ := flow_fields pf made input
  have hpurpose : (expected.any fun q => decide ((input.purpose.getD .pinSetup).text ≠ q.text)) =
      expected.isSome := by
    cases expected with
    | none => rfl
    | some q => simp [Ne.symm (purposes_disjoint q _)]
  unfold readSecurePayload
  rw [hu, hp, he, hi, orNull_some (flowPurpose_ne_empty _)]
  by_cases huser : input.userId = ""
  · simp [orNull, huser]
  · rw [orNull_some huser]
    by_cases hexp : expiry made input.ttlSeconds = 0
    · rw [hexp, if_pos (.inr rfl)]
      rfl
    · rw [Option.filter_some, if_pos (by simpa using hexp), if_neg (not_or.mpr ⟨huser, hexp⟩)]
      dsimp only
      rw [hpurpose]

/-- The payload of a flow token, read by its own reader. -/
theorem readFlow_payload (input : FlowTokenInput) :
    readFlowPayload now (input.payload pf made) =
      if input.userId = "" ∨ expiry made input.ttlSeconds = 0 ∨
          expiry made input.ttlSeconds < now / 1000 then .error "expired_or_invalid"
      else .ok (input.token pf) := by
  obtain ⟨hu, hp, he, -, hc⟩ := flow_fields pf made input
  unfold readFlowPayload
  rw [hu, hp, he, hc]
  by_cases huser : input.userId = ""
  · simp [orNull, huser]
  · by_cases hexp : expiry made input.ttlSeconds = 0
    · simp [orNull, huser, hexp]
    · simp [orNull, huser, hexp, FlowTokenInput.token, Option.filter_some]

/-- The flow reader refuses the purposes of the other service. -/
theorem readFlow_securePayload (input : SecureTokenInput) {r : FlowToken} :
    readFlowPayload now (input.payload made) ≠ .ok r := by
  obtain ⟨-, hp, -, -⟩ := secure_fields made input
  have hnone : FlowPurpose.ofText input.purpose.text = none := by
    cases input.purpose <;> rfl
  unfold readFlowPayload
  rw [hp]
  intro h
  split at h
  · split at h
    · cases h
    · rw [Option.bind_some, hnone] at h
      cases h
  · cases h

end payloads

/-! ### Soundness and separation -/

/-- A token that was made: by which service, when and for what. -/
inductive Issue where
  | secure (made : ℕ) (input : SecureTokenInput)
  | flow (made : ℕ) (input : FlowTokenInput)

/-- The payload that was signed. -/
def Issue.payload (pf : TokenPlatform) : Issue → Members
  | .secure made input => input.payload made
  | .flow made input => input.payload pf made

/-- Nobody but the two services signs: what the token carries, if its signature is right, was signed
for one of the tokens made. -/
def Unforged (pf : TokenPlatform) (issued : List Issue) (token : String) : Prop :=
  ∀ encoded, Carries pf token encoded → ∃ x ∈ issued, encoded = encodePayload (x.payload pf)

/-- The token carries the payload of a flow token that is still valid. -/
def FreshFlowToken (pf : TokenPlatform) (issued : List Issue) (now : ℕ) (token : String) : Prop :=
  ∃ made input, Issue.flow made input ∈ issued ∧
    Carries pf token (encodePayload (input.payload pf made)) ∧ input.userId ≠ "" ∧
    expiry made input.ttlSeconds ≠ 0 ∧ now / 1000 ≤ expiry made input.ttlSeconds

/-- What is asked of link tokens: bytes and values come back as they went in until a token expires,
and each reader accepts only what its own service signed. -/
structure LinkTokens (pf : TokenPlatform) (issued : List Issue) (now : ℕ) (token : String)
    (expected : Option SecurePurpose) : Prop where
  bytes : ∀ bs, decodeUrl (encodeUrl bs) = bs
  secure : ∀ made (input : SecureTokenInput), input.userId ≠ "" → input.ttlSeconds ≠ some 0 →
    ∃ link, createWhatsappSecureToken pf made input = .ok link ∧
      ∀ later q, q = none ∨ q = some input.purpose →
        verifyWhatsappSecureToken pf later link q =
          if later / 1000 ≤ expiry made input.ttlSeconds then .ok input.token
          else .error "expired"
  flow : ∀ made (input : FlowTokenInput), input.userId ≠ "" → input.ttlSeconds ≠ some 0 →
    ∀ later, verifyWhatsappFlowToken pf later (createWhatsappFlowToken pf made input) =
      if later / 1000 ≤ expiry made input.ttlSeconds then .ok (input.token pf)
      else .error "expired_or_invalid"
  secureOnly : ∀ r, verifyWhatsappSecureToken pf now token expected = .ok r →
    ∃ made input, Issue.secure made input ∈ issued ∧ r = input.token ∧
      now / 1000 ≤ expiry made input.ttlSeconds
  flowOnly : ∀ r, verifyWhatsappFlowToken pf now token = .ok r →
    ∃ made input, Issue.flow made input ∈ issued ∧ r = input.token pf ∧
      now / 1000 ≤ expiry made input.ttlSeconds

theorem expiry_ne_zero (made : ℕ) {ttl : Option ℕ} (h : ttl ≠ some 0) : expiry made ttl ≠ 0 := by
  unfold expiry
  cases ttl with
  | none =>
      rw [Option.getD_none]
      omega
  | some n =>
      have hn : n ≠ 0 := fun h0 => h (by rw [h0])
      rw [Option.getD_some]
      omega

section tokens

variable {pf : TokenPlatform} {issued : List Issue} {now : ℕ} {token : String}
  {expected : Option SecurePurpose}

/-- A secure token is read back until it expires. -/
theorem secure_roundTrip (hsecret : pf.signingSecret ≠ "") {made : ℕ} {input : SecureTokenInput}
    (huser : input.userId ≠ "") (httl : input.ttlSeconds ≠ some 0) :
    ∃ link, createWhatsappSecureToken pf made input = .ok link ∧
      ∀ later q, q = none ∨ q = some input.purpose →
        verifyWhatsappSecureToken pf later link q =
          if later / 1000 ≤ expiry made input.ttlSeconds then .ok input.token
          else .error "expired" := by
  refine ⟨encodePayload (input.payload made) ++ "." ++
    pf.signature (encodePayload (input.payload made)), ?_, fun later q hq => ?_⟩
  · simp [createWhatsappSecureToken, signPayload, hsecret, Except.map]
  · rw [verifySecure_carries hsecret (carries_token pf _), readSecure_payload,
      if_neg (not_or.mpr ⟨huser, expiry_ne_zero made httl⟩)]
    have hpurpose : q.any (· ≠ input.purpose) = false := by
      rcases hq with rfl | rfl <;> simp
    by_cases hlate : later / 1000 ≤ expiry made input.ttlSeconds
    · rw [if_neg (not_lt.mpr hlate), hpurpose, if_pos hlate]
      rfl
    · rw [if_pos (not_le.mp hlate), if_neg hlate]

/-- A flow token is read back until it expires. -/
theorem flow_roundTrip {made : ℕ} {input : FlowTokenInput} (huser : input.userId ≠ "")
    (httl : input.ttlSeconds ≠ some 0) (later : ℕ) :
    verifyWhatsappFlowToken pf later (createWhatsappFlowToken pf made input) =
      if later / 1000 ≤ expiry made input.ttlSeconds then .ok (input.token pf)
      else .error "expired_or_invalid" := by
  have hcarries : Carries pf (createWhatsappFlowToken pf made input)
      (encodePayload (input.payload pf made)) := carries_token pf _
  rw [verifyFlow_carries hcarries, readFlow_payload]
  have hexp := expiry_ne_zero made httl
  by_cases hlate : later / 1000 ≤ expiry made input.ttlSeconds
  · rw [if_neg (by simp [huser, hexp, not_lt.mpr hlate]), if_pos hlate]
  · rw [if_pos (.inr (.inr (not_le.mp hlate))), if_neg hlate]

/-- What the flow reader accepts, the flow service signed. -/
theorem flow_only (hunforged : Unforged pf issued token) {r : FlowToken}
    (h : verifyWhatsappFlowToken pf now token = .ok r) :
    ∃ made input, Issue.flow made input ∈ issued ∧ r = input.token pf ∧
      now / 1000 ≤ expiry made input.ttlSeconds := by
  obtain ⟨encoded, payload, hcarries, hpayload, hread⟩ := verifyFlow_ok h
  obtain ⟨x, hx, rfl⟩ := hunforged encoded hcarries
  rw [decodePayload_encodePayload, Option.some.injEq] at hpayload
  subst hpayload
  cases x with
  | secure made input => exact absurd hread (readFlow_securePayload input)
  | flow made input =>
      rw [Issue.payload, readFlow_payload] at hread
      split_ifs at hread with hbad
      cases hread
      obtain ⟨-, hbad⟩ := not_or.mp hbad
      exact ⟨made, input, hx, rfl, not_lt.mp (not_or.mp hbad).2⟩

/-- What the secure reader accepts, the secure service signed, when the reader is told which purpose
to expect or is not shown a valid flow token. -/
theorem secure_only (hunforged : Unforged pf issued token)
    (hcond : expected.isSome = true ∨ ¬ FreshFlowToken pf issued now token) {r : SecureToken}
    (h : verifyWhatsappSecureToken pf now token expected = .ok r) :
    ∃ made input, Issue.secure made input ∈ issued ∧ r = input.token ∧
      now / 1000 ≤ expiry made input.ttlSeconds := by
  obtain ⟨encoded, payload, hcarries, hpayload, hread⟩ := verifySecure_ok h
  obtain ⟨x, hx, rfl⟩ := hunforged encoded hcarries
  rw [decodePayload_encodePayload, Option.some.injEq] at hpayload
  subst hpayload
  cases x with
  | secure made input =>
      rw [Issue.payload, readSecure_payload] at hread
      split_ifs at hread with hbad hlate hpurpose
      cases hread
      exact ⟨made, input, hx, rfl, not_lt.mp hlate⟩
  | flow made input =>
      rw [Issue.payload, readSecure_flowPayload] at hread
      split_ifs at hread with hbad hlate hpurpose
      obtain ⟨huser, hexp⟩ := not_or.mp hbad
      rcases hcond with hsome | hfresh
      · exact absurd hsome hpurpose
      · exact absurd ⟨made, input, hx, hcarries, huser, hexp, not_lt.mp hlate⟩ hfresh

/-- Told no purpose, the secure reader accepts a valid flow token. -/
theorem secure_accepts_flow (hsecret : pf.signingSecret ≠ "")
    (h : FreshFlowToken pf issued now token) : ∃ userId purpose,
      verifyWhatsappSecureToken pf now token none =
        .ok ⟨userId, FlowPurpose.text purpose, none⟩ := by
  obtain ⟨made, input, -, hcarries, huser, hexp, hlate⟩ := h
  refine ⟨input.userId, input.purpose.getD .pinSetup, ?_⟩
  rw [verifySecure_carries hsecret hcarries, readSecure_flowPayload,
    if_neg (not_or.mpr ⟨huser, hexp⟩), if_neg (not_lt.mpr hlate)]
  rfl

/-- **Link tokens are sound, and separated exactly when** the secure reader is told which purpose to
expect, or is not shown a flow token that is still valid. -/
theorem link_tokens (hsecret : pf.signingSecret ≠ "") (hunforged : Unforged pf issued token) :
    LinkTokens pf issued now token expected ↔
      expected.isSome = true ∨ ¬ FreshFlowToken pf issued now token := by
  constructor
  · intro h
    by_contra hno
    obtain ⟨hnone, hfresh⟩ := not_or.mp hno
    obtain rfl : expected = none := by simpa using hnone
    obtain ⟨userId, purpose, haccepts⟩ := secure_accepts_flow hsecret (not_not.mp hfresh)
    obtain ⟨made, input, -, hr, -⟩ := h.secureOnly _ haccepts
    exact purposes_disjoint input.purpose purpose (congrArg SecureToken.purpose hr).symm
  · intro hcond
    exact ⟨decodeUrl_encodeUrl, fun made input huser httl => secure_roundTrip hsecret huser httl,
      fun made input huser httl later => flow_roundTrip huser httl later,
      fun r hr => secure_only hunforged hcond hr, fun r hr => flow_only hunforged hr⟩

end tokens

/-- A platform with a secret, and a digest that depends on the text signed. -/
def demoPlatform : TokenPlatform where
  fourWhatsappSecureTokenSecret := some "secret"
  walletEncryptionKey := none
  metaWhatsappVerifyToken := none
  hmac key text := ⟨List.replicate 32 (UInt8.ofNat (key.length + text.length)), by simp⟩
  toUpperCase := String.toUpper

/-- A form for setting up a PIN. -/
def pinForm : FlowTokenInput := { userId := "ada" }

theorem pinForm_unforged : Unforged demoPlatform [.flow 0 pinForm]
    (createWhatsappFlowToken demoPlatform 0 pinForm) := by
  intro encoded h
  have hcarries := carries_token demoPlatform (pinForm.payload demoPlatform 0)
  have hsame := h.symm.trans hcarries
  exact ⟨.flow 0 pinForm, by simp, (Prod.mk.inj hsame).1⟩

/-- The reader of secure links that expects a purpose refuses the token of the form. -/
theorem link_tokens_expected : LinkTokens demoPlatform [.flow 0 pinForm] 0
    (createWhatsappFlowToken demoPlatform 0 pinForm) (some .setup) :=
  (link_tokens (by decide) pinForm_unforged).mpr (.inl rfl)

/-- The reader that expects none accepts it as a secure token. -/
theorem pinForm_accepted : Unforged demoPlatform [.flow 0 pinForm]
      (createWhatsappFlowToken demoPlatform 0 pinForm) ∧
    verifyWhatsappSecureToken demoPlatform 0 (createWhatsappFlowToken demoPlatform 0 pinForm) none =
      .ok ⟨"ada", "pin_setup", none⟩ ∧
    ¬ LinkTokens demoPlatform [.flow 0 pinForm] 0
      (createWhatsappFlowToken demoPlatform 0 pinForm) none := by
  have haccepts : verifyWhatsappSecureToken demoPlatform 0
      (createWhatsappFlowToken demoPlatform 0 pinForm) none =
        .ok ⟨"ada", "pin_setup", none⟩ := by
    have hcarries : Carries demoPlatform (createWhatsappFlowToken demoPlatform 0 pinForm)
        (encodePayload (pinForm.payload demoPlatform 0)) := carries_token _ _
    rw [verifySecure_carries (by decide) hcarries, readSecure_flowPayload]
    rfl
  refine ⟨pinForm_unforged, haccepts, fun h => ?_⟩
  obtain ⟨made, input, hmem, -⟩ := h.secureOnly _ haccepts
  simp at hmem

end DayfiBackend.Four
