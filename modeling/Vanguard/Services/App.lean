import Vanguard.Services.Schemas
import Vanguard.Services.Webhook

/-!
# `Vanguard.Services.App`: from the application to the webhook handlers

`services/app.ts` and `captureRawBody` on the stream of a request. `buildApp` gives the body of
every request to `express.json()`, unless the path is the one of the webhook, as a text. The
router compares the path in its own way: it ignores the case of a path, and a slash at its end.

`express.json()` is the library's: it reads the stream of a request whose type is JSON to its
end. `JSON.parse` and `JSON.stringify` are parameters.
-/

set_option autoImplicit false

namespace Vanguard

/-! ### The router -/

/-- A path and a pattern of lower-case letters, compared as the router does. -/
def sameText (pattern : String) (path : List Char) : Bool :=
  path.map Char.toLower == pattern.toList

/-- `app.use(mountPath, router)`: the path that the router sees, if the mount path is a prefix
that ends at a slash or at the end. -/
def mounted (mountPath : String) (path : List Char) : Option (List Char) :=
  if sameText mountPath (path.take mountPath.length) then
    match path.drop mountPath.length with
    | [] => some ['/']
    | '/' :: rest => some ('/' :: rest)
    | _ => none
  else none

/-- `router.post(pattern, ...)`: the path is the pattern, perhaps with a slash at the end. -/
def routed (pattern : String) (path : List Char) : Bool :=
  sameText pattern path || sameText (pattern ++ "/") path

/-- A `POST` request with this path gets to the handlers of the webhook. -/
def webhookDispatched (path : String) : Bool :=
  (mounted "/vans" path.toList).any (routed "/webhook/payment")

/-! ### The body -/

/-- `JSON.parse`, which fails on a text that is no JSON, and `JSON.stringify`. -/
structure JsonRuntime where
  parse : Bytes → Option JsValue
  stringify : JsValue → Bytes

/-- `Object.keys(v).length > 0`. -/
def JsValue.hasKeys : JsValue → Bool
  | string text => text ≠ ""
  | array items => !items.isEmpty
  | object fields => !fields.isEmpty
  | undefined | null | bool _ | number _ | date _ => false

/-- A `POST` request. `isJson` is the type check of `express.json()`, `chunks` is what the
stream of its body emits. -/
structure AppRequest where
  path : String
  isJson : Bool
  chunks : List Bytes

/-- The bytes sent. -/
def AppRequest.bytes (req : AppRequest) : Bytes := req.chunks.flatten

/-- A request behind a middleware: `req.body`, and its stream, which may have ended. -/
structure ParsedRequest where
  body : Option JsValue
  chunks : List Bytes
  ended : Bool

/-- `express.json()`: `none` when it passes an error on. -/
def expressJson (json : JsonRuntime) (req : AppRequest) : Option ParsedRequest :=
  if req.isJson then (json.parse req.bytes).map fun v => ⟨some v, [], true⟩
  else some ⟨none, req.chunks, false⟩

/-- The middleware of `buildApp`. -/
def jsonParser (json : JsonRuntime) (req : AppRequest) : Option ParsedRequest :=
  if req.path = "/vans/webhook/payment" then some ⟨none, req.chunks, false⟩
  else expressJson json req

/-- `captureRawBody`: the `rawBody` with which it calls `next`. A stream that has ended emits no
second `end`, and then `next` is never called. -/
def ParsedRequest.captureRawBody (json : JsonRuntime) (nodeEnv : NodeEnv)
    (req : ParsedRequest) : Option Bytes :=
  match nodeEnv, req.body.filter JsValue.hasKeys with
  | .test, some body => some (json.stringify body)
  | _, _ => if req.ended then none else some req.chunks.flatten

/-- How a request comes to `verifyWebhookSignature`: with a `rawBody`, or not at all, because
`express.json()` has failed or `captureRawBody` waits. -/
inductive WebhookEntry where
  | next (rawBody : Bytes)
  | failed
  | waits
  deriving DecidableEq

/-- A request whose path gets to the handlers of the webhook. -/
def webhookEntry (json : JsonRuntime) (nodeEnv : NodeEnv) (req : AppRequest) : WebhookEntry :=
  match jsonParser json req with
  | none => .failed
  | some parsed =>
    match parsed.captureRawBody json nodeEnv with
    | some rawBody => .next rawBody
    | none => .waits

/-- On a stream that has not ended it is the `captureRawBody` of `Vanguard.Services.Webhook`. -/
theorem ParsedRequest.captureRawBody_eq (json : JsonRuntime) (nodeEnv : NodeEnv)
    (signature : Option HeaderValue) {req : ParsedRequest} (h : req.ended = false) :
    req.captureRawBody json nodeEnv =
      some (Vanguard.captureRawBody nodeEnv
        { signature := signature
          parsed := (req.body.filter JsValue.hasKeys).map json.stringify
          chunks := req.chunks }) := by
  unfold captureRawBody Vanguard.captureRawBody
  cases req.body.filter JsValue.hasKeys with
  | none => cases nodeEnv <;> simp [h]
  | some v => cases nodeEnv <;> simp [h]

end Vanguard
