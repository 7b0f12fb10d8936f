import Vanguard.Services.Routes

/-!
# `Vanguard.Services.Webhook`: the signature check of the payment webhook

`services/middleware/webhook-auth.ts`: `captureRawBody` keeps the bytes of the body, and
`verifyWebhookSignature` compares the `X-Webhook-Signature` header with their HMAC-SHA256.
The HMAC is a parameter, the function from the bytes to the digest under
`WEBHOOK_SECRET`.

The message of a response is a list of fragments: text, or the hexadecimal digest of some
bytes. So a response shows which digests it contains.
-/

set_option autoImplicit false

namespace Vanguard

/-! ### Hexadecimal digests -/

/-- A `Buffer`. -/
abbrev Bytes := List UInt8

/-- The value of a hexadecimal digit, of either case. -/
def hexValue (c : Char) : Option Nat :=
  if '0' ≤ c ∧ c ≤ '9' then some (c.toNat - 48)
  else if 'a' ≤ c ∧ c ≤ 'f' then some (c.toNat - 87)
  else if 'A' ≤ c ∧ c ≤ 'F' then some (c.toNat - 55)
  else none

/-- `Buffer.from(text, 'hex')`. It stops at the first pair that is not hexadecimal. -/
def hexDecode : List Char → Bytes
  | a :: b :: rest =>
    match hexValue a, hexValue b with
    | some x, some y => UInt8.ofNat (16 * x + y) :: hexDecode rest
    | _, _ => []
  | _ => []

/-- A lower-case hexadecimal digit. -/
def hexDigit (n : Nat) : Char := Char.ofNat (if n < 10 then 48 + n else 87 + n)

/-- `digest('hex')`. -/
def hexEncode (bytes : Bytes) : List Char :=
  bytes.flatMap fun b => [hexDigit (b.toNat / 16), hexDigit (b.toNat % 16)]

/-- A digit that was written is read back. -/
theorem hexValue_hexDigit {n : Nat} (h : n < 16) : hexValue (hexDigit n) = some n := by
  have hall : ∀ n < 16, hexValue (hexDigit n) = some n := by decide
  exact hall n h

/-- Decoding a digest gives its bytes. -/
theorem hexDecode_hexEncode (bytes : Bytes) : hexDecode (hexEncode bytes) = bytes := by
  induction bytes with
  | nil => rfl
  | cons b bytes ih =>
      have hb := b.toNat_lt
      have hhigh := hexValue_hexDigit (show b.toNat / 16 < 16 by omega)
      have hlow := hexValue_hexDigit (show b.toNat % 16 < 16 by omega)
      have hbyte : 16 * (b.toNat / 16) + b.toNat % 16 = b.toNat := by omega
      rw [hexEncode] at ih
      simp [hexEncode, hexDecode, hhigh, hlow, hbyte, ih]

/-! ### The middleware -/

/-- `NODE_ENV` of `env.ts`. -/
inductive NodeEnv where
  | development
  | test
  | production
  deriving DecidableEq

/-- A header: one value, or the list of them. -/
inductive HeaderValue where
  | one (value : String)
  | many (values : List String)
  deriving DecidableEq

/-- A piece of a message. `digest rawBody` is the hexadecimal HMAC of the bytes. -/
inductive Fragment where
  | text (s : String)
  | digest (rawBody : Bytes)
  deriving DecidableEq

/-- What a response writes for a fragment. -/
def Fragment.render (hmac : Bytes → Bytes) : Fragment → String
  | text s => s
  | digest rawBody => String.ofList (hexEncode (hmac rawBody))

/-- A digest copied from a response into a header decodes to the digest. -/
theorem Fragment.hexDecode_render (hmac : Bytes → Bytes) (rawBody : Bytes) :
    hexDecode ((Fragment.digest rawBody).render hmac).toList = hmac rawBody := by
  rw [render, String.toList_ofList, hexDecode_hexEncode]

/-- A response with the code and the message of its error, if it has one. -/
structure WebhookResponse where
  status : Nat
  code : Option String
  message : List Fragment
  deriving DecidableEq

/-- What a middleware does: it calls `next()`, or it responds. -/
inductive Verdict where
  | next
  | respond (r : WebhookResponse)
  deriving DecidableEq

/-- A request to `POST /vans/webhook/payment`.

- `signature`: the header `x-webhook-signature`;
- `parsed`: `JSON.stringify(req.body)` when an earlier middleware has parsed a body with at
  least one key;
- `chunks`: what the stream of the body emits. -/
structure WebhookRequest where
  signature : Option HeaderValue
  parsed : Option Bytes
  chunks : List Bytes
  deriving DecidableEq

/-- `captureRawBody`: the `rawBody` it sets. -/
def captureRawBody (nodeEnv : NodeEnv) (req : WebhookRequest) : Bytes :=
  match nodeEnv, req.parsed with
  | .test, some body => body
  | _, _ => req.chunks.flatten

/-- `verifyWebhookSignature`. -/
def verifyWebhookSignature (hmac : Bytes → Bytes) (nodeEnv : NodeEnv)
    (header : Option HeaderValue) (rawBody : Option Bytes) : Verdict :=
  if nodeEnv = .test then .next
  else
    match header with
    | some (.one signature) =>
      -- The empty string is falsy.
      if signature = "" then
        .respond ⟨401, some "MISSING_WEBHOOK_SIGNATURE",
          [.text "X-Webhook-Signature header is required"]⟩
      else
        match rawBody with
        | none => .respond ⟨500, some "INTERNAL_ERROR", [.text "Webhook processing error"]⟩
        | some rawBody =>
          let expectedSignature := hexEncode (hmac rawBody)
          let signatureBuffer := hexDecode signature.toList
          let expectedBuffer := hexDecode expectedSignature
          if signatureBuffer.length ≠ expectedBuffer.length then
            .respond ⟨401, some "INVALID_WEBHOOK_SIGNATURE",
              [.text "Webhook signature verification failed"]⟩
          else if signatureBuffer ≠ expectedBuffer then
            .respond ⟨401, some "INVALID_WEBHOOK_SIGNATURE",
              [.text "FAILED. Expected: ", .digest rawBody]⟩
          else .next
    | _ =>
      .respond ⟨401, some "MISSING_WEBHOOK_SIGNATURE",
        [.text "X-Webhook-Signature header is required"]⟩

/-- The endpoint: its middleware, and the response of the handler if they call `next()`. -/
def paymentWebhook (hmac : Bytes → Bytes) (nodeEnv : NodeEnv) (req : WebhookRequest)
    (handler : HttpAnswer) : Verdict × WebhookResponse :=
  match verifyWebhookSignature hmac nodeEnv req.signature
      (some (captureRawBody nodeEnv req)) with
  | .next => (.next, ⟨handler.status, handler.code, [.text handler.message]⟩)
  | .respond r => (.respond r, r)

end Vanguard
