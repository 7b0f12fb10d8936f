import Vanguard.Services.InvoiceService
import Vanguard.Services.RiskService
import Vanguard.Services.VanService

/-!
# `Vanguard.Services.Routes`: the calls of the services and the routes that make them

`Call` is one call of a service with its arguments. The worlds of this development run
calls (`World`, `Run` at `postgres`). `Request` is one HTTP request behind the
authentication middleware: `Request.call` validates its body, as the schemas of
`services/routes` do, and is the call that the route makes. `errorHandler` is the error
middleware and `webhookAnswer` the answer of `POST /vans/webhook/payment`.
-/

set_option autoImplicit false

namespace Vanguard

open ReadCommitted

/-- One call of a service. -/
inductive Call where
  | submitInvoice (cmd : SubmitInvoiceCommand) (actorId : Uuid)
  | approveInvoice (cmd : ApproveInvoiceCommand) (actorId : Uuid)
  | requestFinancing (cmd : RequestFinancingCommand) (actorId : Uuid)
  | assessAndRecord (cmd : AssessInvoiceRiskCommand) (actorId : Uuid)
  | createVan (cmd : CreateVanCommand)
  | recordPayment (cmd : RecordPaymentCommand)
  deriving DecidableEq

/-- What a call resolves with. -/
inductive Reply where
  | invoice (r : Invoice)
  | assessment (r : RiskAssessmentResult)
  | van (r : VirtualAccount)
  | payment (r : VanWithLedger)

/-- The program of a call. -/
def Call.body : Call → Async Reply
  | submitInvoice cmd actorId => do
    let r ← InvoiceService.submitInvoice cmd actorId
    pure (.invoice r)
  | approveInvoice cmd actorId => do
    let r ← InvoiceService.approveInvoice cmd actorId
    pure (.invoice r)
  | requestFinancing cmd actorId => do
    let r ← InvoiceService.requestFinancing cmd actorId
    pure (.invoice r)
  | assessAndRecord cmd actorId => do
    let r ← RiskService.assessAndRecord cmd actorId
    pure (.assessment r)
  | createVan cmd => do
    let r ← VanService.createVan cmd
    pure (.van r)
  | recordPayment cmd => do
    let r ← VanService.recordPayment cmd
    pure (.payment r)

/-- The committed log of the database. -/
abbrev Log := Timeline Database RowVersion

/-- The database and the calls on it. -/
abbrev ServiceWorld :=
  ReadCommitted.World Database RowVersion Sql Ext Env JsError Call (Except JsError Reply)
    Sql.Rows Ext.Res

/-- A step of the services. -/
abbrev Step := Action Call Env

/-- The runs of the services from the log `t`, with the steps that `ok` allows. -/
abbrev Runs (ok : ServiceWorld → Step → Prop) (t : Log) : ServiceWorld → Prop :=
  Run postgres (fun c => c.body.run) ok (World.start t)

/-! ### Validation -/

/-- `z.number().int().positive()`. -/
def positiveInt (n : Int) : Bool := 0 < n && n ≤ maxSafeInteger

/-- `z.number().int().min(0)`. -/
def naturalInt (n : Int) : Bool := 0 ≤ n && n ≤ maxSafeInteger

/-- `SubmitInvoiceSchema`. The supplier is not part of the body. -/
def submitInvoiceSchema (body : SubmitInvoiceCommand) : Option SubmitInvoiceCommand :=
  if 1 ≤ jsLength body.invoiceNumber ∧ jsLength body.invoiceNumber ≤ 50 ∧
      positiveInt body.amountCents = true ∧ jsLength body.currency = 3 then
    some { body with invoiceNumber := trim body.invoiceNumber }
  else none

/-- `ApproveInvoiceSchema`. -/
def approveInvoiceSchema (buyerSignature : String) : Option String :=
  if 10 ≤ jsLength buyerSignature then some (trim buyerSignature) else none

/-- `AssessRiskSchema`. -/
def assessRiskSchema (body : AssessInvoiceRiskCommand) : Option AssessInvoiceRiskCommand :=
  let m := body.threeWayMatchInput
  let s := body.anomalySignals
  if positiveInt m.invoiceAmountCents = true ∧ positiveInt m.poAmountCents = true ∧
      positiveInt m.deliveryAmountCents = true ∧ 1 ≤ jsLength m.poNumber ∧
      1 ≤ jsLength m.deliveryReceiptId ∧ positiveInt s.amountCents = true ∧
      naturalInt s.avgInvoiceAmountCents = true ∧ naturalInt s.daysUntilDue = true ∧
      naturalInt s.priorDefaultCount = true then
    some { body with
      threeWayMatchInput :=
        { m with
            poNumber := trim m.poNumber
            deliveryReceiptId := trim m.deliveryReceiptId } }
  else none

/-- `CreateVanSchema`. -/
def createVanSchema (body : CreateVanCommand) : Option CreateVanCommand :=
  if positiveInt body.expectedAmountCents = true then some body else none

/-- `RecordPaymentSchema`. The checks of a string come before its `trim`. -/
def recordPaymentSchema (body : RecordPaymentCommand) : Option RecordPaymentCommand :=
  if 1 ≤ jsLength body.accountNumber ∧ positiveInt body.amountCents = true ∧
      1 ≤ jsLength body.idempotencyKey then
    some { body with
      accountNumber := trim body.accountNumber
      idempotencyKey := trim body.idempotencyKey }
  else none

/-- A request that has passed the middleware of its route. `sub` is the organisation of the
token. The body has the JSON types of its schema. -/
inductive Request where
  | submit (sub : Uuid) (body : SubmitInvoiceCommand)
  | approve (sub invoiceId : Uuid) (buyerSignature : String)
  | requestFinancing (sub invoiceId : Uuid)
  | assess (body : AssessInvoiceRiskCommand)
  | createVan (body : CreateVanCommand)
  | paymentWebhook (body : RecordPaymentCommand)

/-- The call that the route makes, `none` for a `ZodError`. -/
def Request.call : Request → Option Call
  | submit sub body =>
    (submitInvoiceSchema body).map fun b => .submitInvoice { b with supplierId := sub } sub
  | approve sub invoiceId buyerSignature =>
    (approveInvoiceSchema buyerSignature).map fun signature =>
      .approveInvoice ⟨invoiceId, sub, signature⟩ sub
  | requestFinancing sub invoiceId => some (.requestFinancing ⟨invoiceId, sub⟩ sub)
  -- The actor of an assessment is the invoice id of the body.
  | assess body => (assessRiskSchema body).map fun b => .assessAndRecord b b.invoiceId
  | createVan body => (createVanSchema body).map .createVan
  | paymentWebhook body => (recordPaymentSchema body).map .recordPayment

/-- A call that some request makes. -/
def Call.Routed (c : Call) : Prop := ∃ r : Request, r.call = some c

/-! ### Answers -/

/-- The `message` of an error. -/
def JsError.message : JsError → String
  | invoiceNotFound id => "Invoice not found: " ++ id.text
  | unauthorisedActor message => message
  | invalidTransition current next =>
    "Invalid status transition: " ++ current.text ++ " → " ++ next.text
  | vanNotFound identifier => "Virtual account not found: " ++ identifier
  | vanAlreadyExists invoiceId =>
    "Virtual account already exists for invoice: " ++ invoiceId.text
  | duplicatePayment idempotencyKey => "Payment " ++ idempotencyKey ++ " already processed"
  | invoiceNotEligible invoiceId status =>
    "Invoice " ++ invoiceId.text ++ " is not eligible for risk assessment. " ++
      "Required status: FINANCING_REQUESTED. Current: " ++ status.text
  | error message => message
  | typeError property => "Cannot read properties of undefined (reading '" ++ property ++ "')"
  | pg e => e.message
  | redis => "Connection is closed."

/-- An answer: its status and its `error.code`, if it has one, and its message. -/
structure HttpAnswer where
  status : Nat
  code : Option String
  message : String
  deriving DecidableEq

/-- `errorHandler`. The errors of the driver, of the queue and of the runtime are `Error`s
too, and get the last branch. -/
def errorHandler (err : JsError) : HttpAnswer :=
  match err with
  | .invalidTransition _ _ => ⟨409, some "INVALID_TRANSITION", err.message⟩
  | .invoiceNotEligible _ _ => ⟨409, some "INVOICE_NOT_ELIGIBLE", err.message⟩
  | .vanAlreadyExists _ => ⟨409, some "VAN_ALREADY_EXISTS", err.message⟩
  | .unauthorisedActor _ => ⟨403, some "FORBIDDEN", err.message⟩
  | .invoiceNotFound _ => ⟨404, some "INVOICE_NOT_FOUND", err.message⟩
  | .vanNotFound _ => ⟨404, some "VAN_NOT_FOUND", err.message⟩
  | .duplicatePayment _ => ⟨409, some "DUPLICATE_PAYMENT", err.message⟩
  | .error _ | .typeError _ | .pg _ | .redis => ⟨400, some "BAD_REQUEST", err.message⟩

/-- The answer of `POST /vans/webhook/payment` to a call of `recordPayment`. -/
def webhookAnswer : Except JsError Reply → HttpAnswer
  | .ok _ => ⟨200, none, ""⟩
  | .error (.duplicatePayment _) => ⟨200, none, "Payment already recorded"⟩
  | .error err => errorHandler err

/-- Only a recorded payment and a duplicate are acknowledged. -/
theorem webhookAnswer_status_eq (r : Except JsError Reply) :
    (webhookAnswer r).status = 200 ↔
      (∃ reply, r = .ok reply) ∨ ∃ key, r = .error (.duplicatePayment key) := by
  cases r with
  | ok reply => simp [webhookAnswer]
  | error err => cases err <;> simp [webhookAnswer, errorHandler]

end Vanguard
