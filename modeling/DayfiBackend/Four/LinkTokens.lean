import DayfiBackend.Found.Base64
import DayfiBackend.Found.Json

/-!
# Signed link tokens

Two services sign what a link or a form carries: `createWhatsappSecureToken` for the pages that set
up a PIN, verify an identity or authorise a payment, and `createWhatsappFlowToken` for the forms
inside the chat. Both write a JSON payload in base64url and append an HMAC under the same secret;
each has a reader of its own.

Times are in milliseconds, a token's expiry in seconds. A payload whose fields are not of the types
the source declares, which neither service writes, is refused.
-/

namespace DayfiBackend.Four

open DayfiBackend.Found.Keys DayfiBackend.Found.Base64 DayfiBackend.Found.Json

/-- A digest of SHA-256. -/
abbrev Digest := { b : List UInt8 // b.length = 32 }

/-- What the token services use of the platform: the environment, the HMAC and the mapping to upper
case. -/
structure TokenPlatform where
  fourWhatsappSecureTokenSecret : Option String
  walletEncryptionKey : Option String
  metaWhatsappVerifyToken : Option String
  hmac : String → String → Digest
  toUpperCase : String → String

/-- Source: `whatsappSecureToken.ts` and `flowToken.ts` `signingSecret`. -/
def TokenPlatform.signingSecret (pf : TokenPlatform) : String :=
  orDefault (some (trim (pf.fourWhatsappSecureTokenSecret.getD "")))
    (orDefault (some (trim (pf.walletEncryptionKey.getD "")))
      (trim (pf.metaWhatsappVerifyToken.getD "")))

/-- The signature of an encoded payload. -/
def TokenPlatform.signature (pf : TokenPlatform) (encoded : String) : String :=
  encodeUrl (pf.hmac pf.signingSecret encoded).1

/-- `raw.split('.', 2)`: the text before the first dot, and the text up to the next one. -/
def splitToken (raw : String) : String × Option String :=
  (String.ofList (raw.toList.takeWhile (· ≠ '.')),
    match raw.toList.dropWhile (· ≠ '.') with
    | [] => none
    | _ :: rest => some (String.ofList (rest.takeWhile (· ≠ '.'))))

/-- A text of a payload. -/
def textField (payload : Members) (name : String) : Option String :=
  match field payload name with
  | some (.text s) => some s
  | _ => none

/-- A number of a payload. -/
def numberField (payload : Members) (name : String) : Option ℕ :=
  match field payload name with
  | some (.number n) => some n
  | _ => none

/-- `JSON.parse(base64UrlDecode(encoded).toString('utf8'))`. -/
def decodePayload (encoded : String) : Option Members := parse (ofUtf8 (decodeUrl encoded))

/-- `base64UrlEncode(JSON.stringify(payload))`. -/
def encodePayload (payload : Members) : String := encodeUrl (utf8 (stringify payload))

/-! ### Secure tokens -/

/-- Source: `whatsappSecureToken.ts` `WhatsappSecurePurpose`. -/
inductive SecurePurpose where
  | setup
  | kyc
  | authorize
  deriving DecidableEq, Repr

/-- The text of a purpose. -/
def SecurePurpose.text : SecurePurpose → String
  | .setup => "setup"
  | .kyc => "kyc"
  | .authorize => "authorize"

/-- What a secure token is made for. -/
structure SecureTokenInput where
  userId : String
  purpose : SecurePurpose
  intentId : Option String := none
  ttlSeconds : Option ℕ := none
  deriving DecidableEq, Repr

/-- The second in which a token made at `now` expires. -/
def expiry (now : ℕ) (ttlSeconds : Option ℕ) : ℕ := now / 1000 + ttlSeconds.getD 3600

/-- Source: `whatsappSecureToken.ts` `TokenPayload`. -/
def SecureTokenInput.payload (input : SecureTokenInput) (now : ℕ) : Members :=
  [("u", .text input.userId), ("p", .text input.purpose.text),
    ("e", .number (expiry now input.ttlSeconds))] ++
    match orNull input.intentId with
    | some i => [("i", .text i)]
    | none => []

/-- Source: `whatsappSecureToken.ts` `signPayload`. -/
def signPayload (pf : TokenPlatform) (encoded : String) : Except String String :=
  if pf.signingSecret = "" then .error "FOUR whatsapp secure token secret is not configured."
  else .ok (pf.signature encoded)

/-- Source: `whatsappSecureToken.ts` `createWhatsappSecureToken`. -/
def createWhatsappSecureToken (pf : TokenPlatform) (now : ℕ) (input : SecureTokenInput) :
    Except String String :=
  let encoded := encodePayload (input.payload now)
  (signPayload pf encoded).map fun signature => encoded ++ "." ++ signature

/-- What a secure token says. -/
structure SecureToken where
  userId : String
  purpose : String
  intentId : Option String
  deriving DecidableEq, Repr

/-- The payload of a secure token whose signature is right. -/
def readSecurePayload (now : ℕ) (expectedPurpose : Option SecurePurpose) (payload : Members) :
    Except String SecureToken :=
  match orNull (textField payload "u"), orNull (textField payload "p"),
      (numberField payload "e").filter (· ≠ 0) with
  | some u, some p, some e =>
      if e < now / 1000 then .error "expired"
      else if expectedPurpose.any fun q => p ≠ q.text then .error "purpose_mismatch"
      else .ok ⟨u, p, textField payload "i"⟩
  | _, _, _ => .error "invalid_payload"

/-- Source: `whatsappSecureToken.ts` `verifyWhatsappSecureToken`. -/
def verifyWhatsappSecureToken (pf : TokenPlatform) (now : ℕ) (token : String)
    (expectedPurpose : Option SecurePurpose) : Except String SecureToken :=
  let raw := trim token
  if includes raw "." = false then .error "not_whatsapp_secure_token"
  else
    match splitToken raw with
    | (_, none) => .error "malformed_token"
    | (encoded, some signature) =>
        if encoded = "" ∨ signature = "" then .error "malformed_token"
        else
          match signPayload pf encoded with
          | .error _ => .error "secret_missing"
          | .ok expectedSig =>
              if signature ≠ expectedSig then .error "bad_signature"
              else
                match decodePayload encoded with
                | none => .error "bad_payload"
                | some payload => readSecurePayload now expectedPurpose payload

/-! ### Flow tokens -/

/-- The purposes of a flow token. -/
inductive FlowPurpose where
  | pinSetup
  | pinAuth
  | bill
  deriving DecidableEq, Repr

/-- The text of a purpose. -/
def FlowPurpose.text : FlowPurpose → String
  | .pinSetup => "pin_setup"
  | .pinAuth => "pin_auth"
  | .bill => "bill"

/-- The purpose a text stands for. -/
def FlowPurpose.ofText (s : String) : Option FlowPurpose :=
  if s = "pin_setup" then some .pinSetup
  else if s = "pin_auth" then some .pinAuth
  else if s = "bill" then some .bill
  else none

@[simp] theorem FlowPurpose.ofText_text (p : FlowPurpose) : ofText p.text = some p := by
  cases p <;> rfl

/-- What a flow token is made for. -/
structure FlowTokenInput where
  userId : String
  purpose : Option FlowPurpose := none
  category : Option String := none
  ttlSeconds : Option ℕ := none
  deriving DecidableEq, Repr

/-- The category of a flow token: there is one for bills only. -/
def FlowTokenInput.billCategory (input : FlowTokenInput) (pf : TokenPlatform) : Option String :=
  if input.purpose = some .bill then (orNull input.category).map pf.toUpperCase else none

/-- Source: `flowToken.ts` `FlowTokenPayload`. -/
def FlowTokenInput.payload (input : FlowTokenInput) (pf : TokenPlatform) (now : ℕ) : Members :=
  [("u", .text input.userId), ("p", .text (input.purpose.getD .pinSetup).text),
    ("e", .number (expiry now input.ttlSeconds))] ++
    match input.billCategory pf with
    | some c => [("c", .text c)]
    | none => []

/-- Source: `flowToken.ts` `createWhatsappFlowToken`. -/
def createWhatsappFlowToken (pf : TokenPlatform) (now : ℕ) (input : FlowTokenInput) : String :=
  let encoded := encodePayload (input.payload pf now)
  encoded ++ "." ++ pf.signature encoded

/-- What a flow token says. -/
structure FlowToken where
  userId : String
  purpose : FlowPurpose
  category : Option String
  deriving DecidableEq, Repr

/-- The payload of a flow token whose signature is right. -/
def readFlowPayload (now : ℕ) (payload : Members) : Except String FlowToken :=
  match orNull (textField payload "u"), (numberField payload "e").filter (· ≠ 0) with
  | some u, some e =>
      if e < now / 1000 then .error "expired_or_invalid"
      else
        match (textField payload "p").bind FlowPurpose.ofText with
        | none => .error "bad_purpose"
        | some p => .ok ⟨u, p, textField payload "c"⟩
  | _, _ => .error "expired_or_invalid"

/-- Source: `flowToken.ts` `verifyWhatsappFlowToken`. -/
def verifyWhatsappFlowToken (pf : TokenPlatform) (now : ℕ) (token : String) :
    Except String FlowToken :=
  match splitToken (trim token) with
  | (_, none) => .error "malformed"
  | (encoded, some signature) =>
      if encoded = "" ∨ signature = "" then .error "malformed"
      else if signature ≠ pf.signature encoded then .error "bad_signature"
      else
        match decodePayload encoded with
        | none => .error "bad_payload"
        | some payload => readFlowPayload now payload

end DayfiBackend.Four
