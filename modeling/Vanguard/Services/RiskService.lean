import Vanguard.Services.Repositories
import Vanguard.Services.RiskEngine

/-!
# `Vanguard.Services.RiskService`: assess and record

`core/services/risk/risk.service.ts`. The event is appended before the status is updated.
Only a rejection updates the status.
-/

set_option autoImplicit false

namespace Vanguard

/-- The payload of a `risk.assessment.*` event. -/
def RiskAssessmentResult.payload (result : RiskAssessmentResult) : EventPayload :=
  .assessment result.decision result.confidenceScore result.reasonCode result.reasonMessage
    result.buyerRiskScore result.anomalyResult.score result.anomalyResult.flags
    result.threeWayMatch result.assessedAt

/-- The type of the event: `risk.assessment.` and the decision in lower case. -/
def RiskDecision.eventType (decision : RiskDecision) : String :=
  "risk.assessment." ++ toLowerCase decision.text

namespace RiskService

/-- `assessAndRecord`. -/
def assessAndRecord (cmd : AssessInvoiceRiskCommand) (actorId : Uuid) :
    Async RiskAssessmentResult := do
  match ← InvoiceRepository.findById cmd.invoiceId with
  | none => throw (.error ("Invoice not found: " ++ cmd.invoiceId.text))
  | some invoice =>
    if invoice.status ≠ .financingRequested then
      throw (.invoiceNotEligible cmd.invoiceId invoice.status)
    let assessedAt ← newDate
    let result := assessInvoiceRisk cmd assessedAt
    withClient (do
        begin
        let _ ← EventRepository.append
          { invoiceId := cmd.invoiceId
            eventType := result.decision.eventType
            payload := result.payload
            actorId := some actorId } .client
        -- Without `assertValidTransition`.
        if result.decision = .reject then
          let _ ← InvoiceRepository.updateStatus cmd.invoiceId .cancelled .client
        commit
        pure result)
      fun err => throw err

end RiskService

end Vanguard
