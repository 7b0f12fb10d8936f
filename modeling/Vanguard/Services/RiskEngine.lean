import Vanguard.Domain.Entities

/-!
# `Vanguard.Services.RiskEngine`: the three layers of the risk decision

`core/services/risk`: the three-way match (`three-way-match.engine.ts`), the anomaly
signals (`anomaly.engine.ts`), the buyer score (`buyer-risk.engine.ts`) and the decision
(`risk.engine.ts`). The engine is pure. Percentages are exact rationals.
-/

set_option autoImplicit false

namespace Vanguard

/-- `ThreeWayMatchInput` of `risk.types.ts`. -/
structure ThreeWayMatchInput where
  invoiceId : Uuid
  invoiceAmountCents : Int
  poAmountCents : Int
  deliveryAmountCents : Int
  poNumber : String
  deliveryReceiptId : String
  deriving DecidableEq

/-- `AnomalySignals` of `risk.types.ts`. -/
structure AnomalySignals where
  invoiceId : Uuid
  buyerId : Uuid
  supplierId : Uuid
  amountCents : Int
  dueDate : Timestamp
  submittedAt : Timestamp
  avgInvoiceAmountCents : Int
  daysUntilDue : Int
  priorDefaultCount : Int
  deriving DecidableEq

/-- `AnomalyResult` of `risk.types.ts`. -/
structure AnomalyResult where
  passed : Bool
  flags : List AnomalyFlag
  score : Int

/-- `AssessInvoiceRiskCommand` of `risk.types.ts`. -/
structure AssessInvoiceRiskCommand where
  invoiceId : Uuid
  threeWayMatchInput : ThreeWayMatchInput
  anomalySignals : AnomalySignals
  deriving DecidableEq

/-- `RiskAssessmentResult` of `risk.types.ts`. -/
structure RiskAssessmentResult where
  invoiceId : Uuid
  decision : RiskDecision
  confidenceScore : Int
  reasonCode : String
  reasonMessage : String
  threeWayMatch : ThreeWayMatchResult
  anomalyResult : AnomalyResult
  buyerRiskScore : Int
  assessedAt : Timestamp

/-- `MAX_VARIANCE_PCT`. -/
def maxVariancePct : Rat := 2

/-- `runThreeWayMatch`. -/
def runThreeWayMatch (input : ThreeWayMatchInput) : ThreeWayMatchResult :=
  -- Rule 1: the purchase order exists and has a positive amount.
  if input.poNumber = "" ∨ input.poAmountCents ≤ 0 then
    { passed := false
      variancePct := 0
      reason := "MISSING_PO: No valid Purchase Order reference provided" }
  -- Rule 2: the delivery receipt exists.
  else if input.deliveryReceiptId = "" then
    { passed := false
      variancePct := 0
      reason := "MISSING_DELIVERY_RECEIPT: No delivery confirmation provided" }
  else
    let variance : Int := (input.invoiceAmountCents - input.poAmountCents).natAbs
    let variancePct : Rat := ((variance : Rat) / (input.poAmountCents : Rat)) * 100
    -- Rule 3: the invoice amount is within the variance of the order amount.
    if maxVariancePct < variancePct then
      { passed := false
        variancePct := variancePct
        reason := "AMOUNT_MISMATCH: Invoice amount varies " ++ toFixed variancePct 2 ++
          "% from PO amount (max allowed: 2%)" }
    -- Rule 4: the delivery confirms the full invoice value.
    else if input.deliveryAmountCents < input.invoiceAmountCents then
      let shortfall := input.invoiceAmountCents - input.deliveryAmountCents
      { passed := false
        variancePct := variancePct
        reason := "DELIVERY_SHORTFALL: Delivery receipt confirms " ++ toString shortfall ++
          " paise less than the invoice amount" }
    else
      { passed := true
        variancePct := variancePct
        reason := "THREE_WAY_MATCH_PASSED" }

/-- The first signal of `runAnomalyDetection`: the amount against the supplier's average. -/
def amountSignal (signals : AnomalySignals) : List AnomalyFlag × Int :=
  if 0 < signals.avgInvoiceAmountCents then
    let deviationPct : Rat :=
      |((signals.amountCents - signals.avgInvoiceAmountCents : Int) : Rat) /
        (signals.avgInvoiceAmountCents : Rat)| * 100
    let message := "Invoice amount is " ++ toFixed deviationPct 0 ++
      "% above supplier's 90-day average"
    if 300 < deviationPct then ([⟨"AMOUNT_SPIKE_CRITICAL", message, .high⟩], 40)
    else if 150 < deviationPct then ([⟨"AMOUNT_SPIKE_MODERATE", message, .medium⟩], 20)
    else ([], 0)
  else ([], 0)

/-- The second signal: the payment term. -/
def termSignal (signals : AnomalySignals) : List AnomalyFlag × Int :=
  if signals.daysUntilDue < 7 ∧ 100000 < signals.amountCents then
    ([⟨"UNUSUALLY_SHORT_PAYMENT_TERM",
      "Invoice due in " ++ toString signals.daysUntilDue ++
        " days — unusually short for this amount", .high⟩], 35)
  else if signals.daysUntilDue < 14 then
    ([⟨"SHORT_PAYMENT_TERM",
      "Invoice due in " ++ toString signals.daysUntilDue ++ " days", .low⟩], 10)
  else ([], 0)

/-- The third signal: the buyer's defaults. -/
def defaultSignal (signals : AnomalySignals) : List AnomalyFlag × Int :=
  if 3 ≤ signals.priorDefaultCount then
    ([⟨"BUYER_HIGH_DEFAULT_HISTORY",
      "Buyer has " ++ toString signals.priorDefaultCount ++ " prior defaults on record",
      .high⟩], 40)
  else if 1 ≤ signals.priorDefaultCount then
    ([⟨"BUYER_DEFAULT_HISTORY",
      "Buyer has " ++ toString signals.priorDefaultCount ++ " prior default(s) on record",
      .medium⟩], 20)
  else ([], 0)

/-- `runAnomalyDetection`: the flags in order, and the sum of the scores. -/
def runAnomalyDetection (signals : AnomalySignals) : AnomalyResult :=
  let flags := (amountSignal signals).1 ++ (termSignal signals).1 ++ (defaultSignal signals).1
  let score := (amountSignal signals).2 + (termSignal signals).2 + (defaultSignal signals).2
  { passed := decide (score ≤ 50), flags := flags, score := score }

/-- `BuyerRiskInput` of `buyer-risk.engine.ts`. -/
structure BuyerRiskInput where
  priorDefaultCount : Int
  daysSinceLastPayment : Int
  outstandingAmountCents : Int
  creditLimitCents : Int

/-- `scoreBuyerRisk`. Every component is an integer, so `Math.round` changes nothing. -/
def scoreBuyerRisk (input : BuyerRiskInput) : Int :=
  let history := min (input.priorDefaultCount * 15) 40
  let recency : Int :=
    if 180 < input.daysSinceLastPayment then 30
    else if 90 < input.daysSinceLastPayment then 20
    else if 30 < input.daysSinceLastPayment then 10
    else 0
  let credit : Int :=
    if 0 < input.creditLimitCents then
      let utilisation : Rat :=
        (input.outstandingAmountCents : Rat) / (input.creditLimitCents : Rat)
      if 9 / 10 < utilisation then 30
      else if 7 / 10 < utilisation then 20
      else if 1 / 2 < utilisation then 10
      else 0
    else 0
  min (max (history + recency + credit) 0) 100

/-- The buyer score from which an invoice is rejected. -/
def buyerRiskAutoRejectThreshold : Int := 75

/-- The buyer score from which an invoice is reviewed. -/
def buyerRiskManualReviewThreshold : Int := 50

/-- The anomaly score from which an invoice is reviewed. -/
def anomalyManualReviewThreshold : Int := 30

/-- The buyer score of `assessInvoiceRisk`: the days until the due date stand for the days
since the last payment, and nothing is outstanding. -/
def assessBuyer (signals : AnomalySignals) : Int :=
  scoreBuyerRisk
    { priorDefaultCount := signals.priorDefaultCount
      daysSinceLastPayment := signals.daysUntilDue
      outstandingAmountCents := 0
      creditLimitCents := 1000000000 }

/-- `assessInvoiceRisk`, at the time `now` of the result's `assessed_at`. -/
def assessInvoiceRisk (cmd : AssessInvoiceRiskCommand) (now : Timestamp) :
    RiskAssessmentResult :=
  let threeWayMatch := runThreeWayMatch cmd.threeWayMatchInput
  let anomalyResult := runAnomalyDetection cmd.anomalySignals
  let buyerRiskScore := assessBuyer cmd.anomalySignals
  let buildResult (decision : RiskDecision) (confidence : Int)
      (reasonCode reasonMessage : String) : RiskAssessmentResult :=
    { invoiceId := cmd.invoiceId
      decision := decision
      confidenceScore := confidence
      reasonCode := reasonCode
      reasonMessage := reasonMessage
      threeWayMatch := threeWayMatch
      anomalyResult := anomalyResult
      buyerRiskScore := buyerRiskScore
      assessedAt := now }
  -- Gate 1: the three-way match.
  if threeWayMatch.passed = false then
    buildResult .reject 95 "THREE_WAY_MATCH_FAILED" threeWayMatch.reason
  -- Gate 2: the buyer score.
  else if buyerRiskAutoRejectThreshold ≤ buyerRiskScore then
    buildResult .reject 85 "BUYER_RISK_TOO_HIGH"
      ("Buyer risk score " ++ toString buyerRiskScore ++
        "/100 exceeds auto-reject threshold")
  -- Gate 3: a critical anomaly.
  else if anomalyResult.flags.any (fun f => f.severity == .high) = true ∧
      60 < anomalyResult.score then
    buildResult .reject 80 "CRITICAL_ANOMALY_DETECTED"
      ("Anomaly score " ++ toString anomalyResult.score ++ "/100 with critical flags")
  -- Gate 4: elevated signals.
  else if buyerRiskManualReviewThreshold ≤ buyerRiskScore ∨
      anomalyManualReviewThreshold ≤ anomalyResult.score then
    buildResult .manualReview 60 "ELEVATED_RISK_SIGNALS"
      ("Buyer risk: " ++ toString buyerRiskScore ++ "/100, Anomaly score: " ++
        toString anomalyResult.score ++ "/100")
  else
    buildResult .approve (max 0 (100 - buyerRiskScore - anomalyResult.score))
      "ALL_CHECKS_PASSED"
      ("Three-way match verified, anomaly score within threshold, " ++
        "buyer risk acceptable")

end Vanguard
