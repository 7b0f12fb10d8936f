import Vanguard.Services.Webhook

/-!
# `Vanguard.Services.Access`: who may call which route

`services/middleware/authenticate.ts` and the middleware chains of the routers that
`services/app.ts` mounts. `HttpRequest.call` is the call that a request makes of a service
after its middleware, `none` when the middleware answers or the handler calls none of the
services that write invoices.

The check of the signature and of the expiry of a token, `jwt.verify` under `JWT_SECRET`, is a
parameter.
-/

set_option autoImplicit false

namespace Vanguard

/-- `OrgRole` of `auth.types.ts`. -/
inductive OrgRole where
  | supplier
  | buyer
  | platformAdmin
  deriving DecidableEq

/-- The text of a role. -/
def OrgRole.text : OrgRole → String
  | supplier => "supplier"
  | buyer => "buyer"
  | platformAdmin => "platform_admin"

/-- `JwtPayload` of `auth.types.ts`: the organisation of the token and its role. -/
structure JwtPayload where
  sub : Uuid
  role : OrgRole
  deriving DecidableEq

/-- What `jwt.verify` throws. -/
inductive VerifyError where
  | tokenExpired
  | invalid
  deriving DecidableEq

/-- `jwt.verify(token, env.JWT_SECRET)`, at a time. -/
abbrev Verify := Timestamp → String → Except VerifyError JwtPayload

/-- `authenticate`: the user that it attaches to the request, or its answer. -/
def authenticate (verify : Verify) (now : Timestamp) (authorization : Option String) :
    Except HttpAnswer JwtPayload :=
  match authorization with
  | none =>
    .error ⟨401, some "MISSING_TOKEN", "Authorization header with Bearer token is required"⟩
  | some header =>
    if "Bearer ".toList.isPrefixOf header.toList then
      -- `authHeader.slice(7)`.
      match verify now (String.ofList (header.toList.drop 7)) with
      | .ok user => .ok user
      | .error .tokenExpired => .error ⟨401, some "INVALID_TOKEN", "Token has expired"⟩
      | .error .invalid => .error ⟨401, some "INVALID_TOKEN", "Invalid token"⟩
    else
      .error ⟨401, some "MISSING_TOKEN", "Authorization header with Bearer token is required"⟩

/-- `requireRole`. -/
def requireRole (allowedRoles : List OrgRole) (user : Option JwtPayload) :
    Except HttpAnswer Unit :=
  match user with
  | none => .error ⟨401, some "UNAUTHENTICATED", "Not authenticated"⟩
  | some user =>
    if user.role ∈ allowedRoles then .ok ()
    else
      .error ⟨403, some "FORBIDDEN",
        "Role '" ++ user.role.text ++ "' is not permitted to perform this action"⟩

/-- The routes, with what their handlers read. -/
inductive Route where
  | submitInvoice (body : SubmitInvoiceCommand)
  | invoiceHistory (id : String)
  | approveInvoice (id : Uuid) (buyerSignature : String)
  | requestFinancing (id : Uuid)
  | createVan (body : CreateVanCommand)
  | paymentWebhook (verdict : Verdict) (body : RecordPaymentCommand)
  | vanDetails (invoiceId : String)
  | assessRisk (body : AssessInvoiceRiskCommand)
  | register
  | login
  | health
  | failedJobs

/-- The middleware before a handler. `idempotencyGuard`, the fourth one of `POST /invoices`, is
not part of it: it decides whether the handler runs, not for whom. -/
inductive Guard where
  | anyone
  | authenticated
  | roles (allowedRoles : List OrgRole)
  | signature

/-- The middleware of a route. -/
def Route.guard : Route → Guard
  | submitInvoice _ => .roles [.supplier]
  | invoiceHistory _ => .authenticated
  | approveInvoice _ _ => .roles [.buyer]
  | requestFinancing _ => .roles [.supplier]
  | createVan _ => .roles [.supplier, .platformAdmin]
  | paymentWebhook _ _ => .signature
  | vanDetails _ => .authenticated
  | assessRisk _ => .anyone
  | register | login | health => .anyone
  | failedJobs => .roles [.platformAdmin]

/-- An HTTP request: its `Authorization` header, its route and the time. -/
structure HttpRequest where
  authorization : Option String
  route : Route
  now : Timestamp

/-- `req.user` after the middleware of the route, or the answer of the middleware. -/
def HttpRequest.user (verify : Verify) (r : HttpRequest) :
    Except HttpAnswer (Option JwtPayload) :=
  match r.route.guard with
  | .anyone | .signature => .ok none
  | .authenticated => do
    let user ← authenticate verify r.now r.authorization
    .ok (some user)
  | .roles allowedRoles => do
    let user ← authenticate verify r.now r.authorization
    requireRole allowedRoles (some user)
    .ok (some user)

/-- What the handler of a route is called with, for the handlers that write invoices. -/
def Route.request : Route → Option JwtPayload → Option Request
  -- These handlers read the organisation of the token.
  | submitInvoice body, some user => some (.submit user.sub body)
  | approveInvoice id buyerSignature, some user => some (.approve user.sub id buyerSignature)
  | requestFinancing id, some user => some (.requestFinancing user.sub id)
  -- These handlers read the body only.
  | createVan body, _ => some (.createVan body)
  | paymentWebhook .next body, _ => some (.paymentWebhook body)
  | assessRisk body, _ => some (.assess body)
  | _, _ => none

/-- The call that a request makes. -/
def HttpRequest.call (verify : Verify) (r : HttpRequest) : Option Call :=
  match r.user verify with
  | .error _ => none
  | .ok user => (r.route.request user).bind Request.call

/-- The call of a request comes from a routed one. -/
theorem HttpRequest.routed_of_call {verify : Verify} {r : HttpRequest} {c : Call}
    (h : r.call verify = some c) : c.Routed := by
  rw [call] at h
  cases hu : r.user verify with
  | error answer =>
      rw [hu] at h
      cases h
  | ok user =>
      rw [hu] at h
      obtain ⟨request, -, hcall⟩ := Option.bind_eq_some_iff.mp h
      exact ⟨request, hcall⟩

/-- The user of a request behind a role check is the one of its token. -/
theorem HttpRequest.user_of_roles {verify : Verify} {r : HttpRequest} {allowed : List OrgRole}
    (hguard : r.route.guard = .roles allowed) {user : Option JwtPayload}
    (h : r.user verify = .ok user) : ∃ payload, user = some payload ∧
      authenticate verify r.now r.authorization = .ok payload ∧ payload.role ∈ allowed := by
  rw [HttpRequest.user, hguard] at h
  cases ha : authenticate verify r.now r.authorization with
  | error answer =>
      rw [ha] at h
      cases h
  | ok payload =>
      by_cases hrole : payload.role ∈ allowed
      · simp [ha, requireRole, hrole, bind, Except.bind] at h
        exact ⟨payload, h.symm, rfl, hrole⟩
      · simp [ha, requireRole, hrole, bind, Except.bind] at h

end Vanguard
