import Vanguard.Proofs.Acknowledgement
import Vanguard.Services.Errors

/-!
# `Vanguard.Proofs.ErrorAnswers`: which errors are reported as internal

An error of the database, of the queue or of the runtime should be answered with the fixed
`500 INTERNAL_ERROR`. They are all `Error`s, and the last test of the handler takes every
`Error` for a message of the program. `thrown_reported_iff`: a thrown value is reported as it
should be exactly when the program has raised it for a business rule (`Thrown.business`) or it
is no `Error` at all. `service_reported_iff` is the same for the errors of the services.
-/

set_option autoImplicit false

namespace Vanguard

open ReadCommitted

/-- The classes of the errors that the program raises, and `ZodError`. -/
def businessClasses : List ErrorClass :=
  [.zodError, .invalidCredentialsError, .accountInactiveError, .invalidTransitionError,
    .invoiceNotEligibleError, .vanAlreadyExistsError, .unauthorisedActorError,
    .invoiceNotFoundError, .vanNotFoundError, .duplicatePaymentError]

/-- The program has raised the error for a business rule: it has one of the program's classes,
or it is a `new Error` of the services or repositories. -/
def Thrown.business : Thrown → Bool
  | error e => businessClasses.any (fun cls => e.cls.extends_ cls) || (e.raised && e.cls == .error)
  | value => false

/-- How an error should be reported: its own message with a 4xx status only for a business
rule, and otherwise the fixed internal error. -/
structure Thrown.Reported (err : Thrown) : Prop where
  message : 400 ≤ err.errorHandler.status → err.errorHandler.status < 500 →
    err.errorHandler.message = err.message → err.business = true
  internal : err.business = false → err.errorHandler = internalError

/-- `Error` is the root of the classes. -/
theorem ErrorClass.extends_error (cls : ErrorClass) : cls.extends_ .error = true := by
  induction cls with
  | subclass parent name ih => rw [extends_, ih, Bool.or_true]
  | _ => rfl

/-- An error of no business class gets the last test of the handler. -/
theorem Thrown.errorHandler_of_other {err : Thrown}
    (h : ∀ cls ∈ businessClasses, err.instanceOf cls = false) :
    err.errorHandler =
      if err.instanceOf .error then ⟨400, "BAD_REQUEST", err.message, none⟩
      else internalError := by
  simp only [businessClasses, List.forall_mem_cons] at h
  obtain ⟨h1, h2, h3, h4, h5, h6, h7, h8, h9, h10, -⟩ := h
  simp only [errorHandler, h1, h2, h3, h4, h5, h6, h7, h8, h9, h10, Bool.false_eq_true, if_false]

/-- An error that is no business error has no business class. -/
theorem Thrown.instanceOf_of_not_business {err : Thrown} (h : err.business = false) :
    ∀ cls ∈ businessClasses, err.instanceOf cls = false := by
  intro cls hcls
  cases err with
  | error e =>
      rw [business, Bool.or_eq_false_iff] at h
      have hany := List.any_eq_false.mp h.1 cls hcls
      exact Bool.eq_false_of_not_eq_true hany
  | value => rfl

/-- A value that is reported as it should be is a business error or no `Error`. -/
theorem Thrown.Reported.business_or_other {err : Thrown} (h : err.Reported) :
    err.business = true ∨ err.instanceOf .error = false := by
  cases hb : err.business with
  | true => exact Or.inl rfl
  | false =>
      right
      have hresponse := h.internal hb
      rw [Thrown.errorHandler_of_other (Thrown.instanceOf_of_not_business hb)] at hresponse
      cases hi : err.instanceOf .error with
      | false => rfl
      | true =>
          -- The response of the last test is not the internal error.
          rw [hi, if_pos rfl] at hresponse
          cases hresponse

/-- An error of a business rule is reported. -/
theorem Thrown.reported_of_business {err : Thrown} (hb : err.business = true) :
    err.Reported := by
  refine ⟨fun _ _ _ => hb, fun hnot => ?_⟩
  rw [hb] at hnot
  cases hnot

/-- A thrown value is reported as it should be exactly when the program has raised it for a
business rule, or it is no `Error`. -/
theorem thrown_reported_iff (err : Thrown) :
    err.Reported ↔ err.business = true ∨ err.instanceOf .error = false := by
  constructor
  · exact Thrown.Reported.business_or_other
  · intro h
    rcases h with hb | hi
    · exact Thrown.reported_of_business hb
    · cases err with
      | error e =>
          rw [Thrown.instanceOf, ErrorClass.extends_error] at hi
          cases hi
      | value =>
          refine ⟨fun _ hlt _ => ?_, fun _ => rfl⟩
          exact absurd hlt (by decide)

/-- Of the errors of the services, the raised ones are those of a business rule. -/
theorem business_thrown (err : JsError) : err.thrown.business = err.raised := by
  cases err with
  | pg e => cases e <;> rfl
  | _ => rfl

/-- An error of a service is reported as it should be exactly when the program has raised it:
an error of the driver, of the queue or of the runtime never is. -/
theorem service_reported_iff (err : JsError) : err.thrown.Reported ↔ err.raised = true := by
  rw [← business_thrown]
  constructor
  · intro h
    rcases h.business_or_other with hb | hi
    · exact hb
    · -- Every error of the services is an `Error`.
      have herror : err.thrown.instanceOf .error = true := ErrorClass.extends_error _
      rw [herror] at hi
      cases hi
  · exact Thrown.reported_of_business

/-- The webhook answers no call of `recordPayment` with a status from 500 on, whatever has
failed. -/
theorem webhookAnswer_lt_500 (r : Except JsError Reply) : (webhookAnswer r).status < 500 := by
  cases r with
  | ok reply => simp [webhookAnswer]
  | error err => cases err <;> simp [webhookAnswer, errorHandler]

/-- A payment whose first statement loses the connection: the bank gets a 400 with the message
of the driver. -/
theorem lost_connection_reported_400 :
    (handlePayment (samplePayment 1000 "k1") (fun _ => { sampleEnv with fault := true })
        (.start sampleDb)).1 =
      ⟨400, some "BAD_REQUEST", (JsError.pg .connectionFailure).message⟩ ∧
    ¬ (JsError.pg .connectionFailure).thrown.Reported := by
  refine ⟨by decide +kernel, fun h => ?_⟩
  have hinternal := h.internal rfl
  exact absurd (congrArg ErrorResponse.status hinternal) (by decide)

end Vanguard
