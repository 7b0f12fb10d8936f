import Vanguard.Services.Routes

/-!
# `Vanguard.Services.Errors`: the error middleware on any thrown value

`services/middleware/error-handler.ts` for every value that can reach it. The handler tests a
value with a chain of `instanceof`, over classes that form a tree under `Error`: the classes of
the program, `ZodError`, and the classes of the libraries and of the runtime
(`ErrorClass.subclass`). `JsError.thrown` are the errors of the services as such values, and
`errorHandler_thrown` relates the two models of the handler.
-/

set_option autoImplicit false

namespace Vanguard

/-- A class of errors. `subclass` is a class of a library or of the runtime. -/
inductive ErrorClass where
  | error
  | zodError
  | invalidCredentialsError
  | accountInactiveError
  | invalidTransitionError
  | invoiceNotEligibleError
  | vanAlreadyExistsError
  | unauthorisedActorError
  | invoiceNotFoundError
  | vanNotFoundError
  | duplicatePaymentError
  | subclass (parent : ErrorClass) (name : String)
  deriving DecidableEq

/-- The class or one of its ancestors is `target`. -/
def ErrorClass.extends_ : ErrorClass → ErrorClass → Bool
  | subclass parent name, target => subclass parent name == target || parent.extends_ target
  | cls, target => cls == target || target == error

/-- `err.flatten().fieldErrors`. -/
abbrev FieldErrors := List (String × List String)

/-- An `Error`. `raised` says that a `throw new` of the services or repositories has made it.
The handler cannot read that. -/
structure ErrorObject where
  cls : ErrorClass
  message : String
  fieldErrors : FieldErrors
  raised : Bool

/-- What is thrown: an `Error`, or any other value. -/
inductive Thrown where
  | error (e : ErrorObject)
  | value

namespace Thrown

/-- `err instanceof cls`. -/
def instanceOf : Thrown → ErrorClass → Bool
  | error e, cls => e.cls.extends_ cls
  | value, _ => false

/-- `err.message`. -/
def message : Thrown → String
  | error e => e.message
  | value => "undefined"

/-- `err.flatten().fieldErrors`. -/
def fieldErrors : Thrown → FieldErrors
  | error e => e.fieldErrors
  | value => []

end Thrown

/-- `ErrorResponse` of `error-handler.ts`, with its status. -/
structure ErrorResponse where
  status : Nat
  code : String
  message : String
  details : Option FieldErrors
  deriving DecidableEq

/-- The last response of the handler. -/
def internalError : ErrorResponse :=
  ⟨500, "INTERNAL_ERROR", "An unexpected error occurred. Please try again.", none⟩

/-- `errorHandler`. The branches are in the order of the source, in which two are written
twice. -/
def Thrown.errorHandler (err : Thrown) : ErrorResponse :=
  if err.instanceOf .invalidCredentialsError then ⟨401, "UNAUTHORIZED", err.message, none⟩
  else if err.instanceOf .accountInactiveError then ⟨403, "FORBIDDEN", err.message, none⟩
  else if err.instanceOf .zodError then
    ⟨400, "VALIDATION_ERROR", "Request body failed validation", some err.fieldErrors⟩
  else if err.instanceOf .invalidTransitionError then
    ⟨409, "INVALID_TRANSITION",
      if err.instanceOf .error then err.message else "Invalid state transition", none⟩
  else if err.instanceOf .invoiceNotEligibleError then
    ⟨409, "INVOICE_NOT_ELIGIBLE", err.message, none⟩
  else if err.instanceOf .vanAlreadyExistsError then
    ⟨409, "VAN_ALREADY_EXISTS", err.message, none⟩
  else if err.instanceOf .invalidCredentialsError then
    ⟨401, "INVALID_CREDENTIALS", err.message, none⟩
  else if err.instanceOf .accountInactiveError then ⟨401, "ACCOUNT_INACTIVE", err.message, none⟩
  else if err.instanceOf .unauthorisedActorError then ⟨403, "FORBIDDEN", err.message, none⟩
  else if err.instanceOf .invoiceNotFoundError then
    ⟨404, "INVOICE_NOT_FOUND", err.message, none⟩
  else if err.instanceOf .vanNotFoundError then ⟨404, "VAN_NOT_FOUND", err.message, none⟩
  else if err.instanceOf .duplicatePaymentError then
    ⟨409, "DUPLICATE_PAYMENT", err.message, none⟩
  else if err.instanceOf .error then ⟨400, "BAD_REQUEST", err.message, none⟩
  else internalError

/-! ### The errors of the services -/

/-- The class of an error. The driver and the queue have their own classes, or throw a plain
`Error` when a connection is closed. -/
def JsError.cls : JsError → ErrorClass
  | invoiceNotFound _ => .invoiceNotFoundError
  | unauthorisedActor _ => .unauthorisedActorError
  | invalidTransition _ _ => .invalidTransitionError
  | vanNotFound _ => .vanNotFoundError
  | vanAlreadyExists _ => .vanAlreadyExistsError
  | duplicatePayment _ => .duplicatePaymentError
  | invoiceNotEligible _ _ => .invoiceNotEligibleError
  | error _ | redis | pg .connectionFailure => .error
  | typeError _ => .subclass .error "TypeError"
  | pg _ => .subclass .error "DatabaseError"

/-- The program has raised the error. The others come from the driver, from the queue or from
the runtime. -/
def JsError.raised : JsError → Bool
  | typeError _ | pg _ | redis => false
  | invoiceNotFound _ | unauthorisedActor _ | invalidTransition _ _ | vanNotFound _
  | vanAlreadyExists _ | duplicatePayment _ | invoiceNotEligible _ _ | error _ => true

/-- An error of a service as a thrown value. -/
def JsError.thrown (err : JsError) : Thrown :=
  .error { cls := err.cls, message := err.message, fieldErrors := [], raised := err.raised }

/-- The response as an answer without details. -/
def ErrorResponse.answer (r : ErrorResponse) : HttpAnswer := ⟨r.status, some r.code, r.message⟩

/-- The handler of the services' errors is the handler of the thrown values. -/
theorem errorHandler_thrown (err : JsError) :
    err.thrown.errorHandler.answer = errorHandler err := by
  cases err with
  | pg e => cases e <;> rfl
  | _ => rfl

end Vanguard
