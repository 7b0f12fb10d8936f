import Vanguard.Proofs.RiskCascade

/-!
# `Vanguard.Proofs.RiskScores`: the scale of the scores and the rules of the match

Two laws about the numbers of the risk engine:

* `scores_on_scale_iff`: the flags itemise the anomaly score, one at most for each signal,
  and every published score lies between 0 and 100 unless all three signals are critical.
  Their points add up to 115, and nothing clamps the sum (`score_above_scale`);
* `threeWayMatch_exact`: the three-way match is the list of its four rules, without a
  division, and reports the first rule that is violated.

`runThreeWayMatchChecked` is the match with a division that fails on zero. It never fails.
-/

set_option autoImplicit false

namespace Vanguard

/-! ### The flags -/

/-- The three signals of `runAnomalyDetection`. -/
inductive RiskSignal where
  | amount
  | term
  | defaults
  deriving DecidableEq

/-- The signal of a flag and its weight in the score. -/
def AnomalyFlag.listing (f : AnomalyFlag) : Option (RiskSignal × Int) :=
  match f.code with
  | "AMOUNT_SPIKE_CRITICAL" => some (.amount, 40)
  | "AMOUNT_SPIKE_MODERATE" => some (.amount, 20)
  | "UNUSUALLY_SHORT_PAYMENT_TERM" => some (.term, 35)
  | "SHORT_PAYMENT_TERM" => some (.term, 10)
  | "BUYER_HIGH_DEFAULT_HISTORY" => some (.defaults, 40)
  | "BUYER_DEFAULT_HISTORY" => some (.defaults, 20)
  | _ => none

/-- The weight of a flag. -/
def AnomalyFlag.weight (f : AnomalyFlag) : Int := (f.listing.map Prod.snd).getD 0

/-- The flag belongs to the signal. -/
def AnomalyFlag.raisedBy (signal : RiskSignal) (f : AnomalyFlag) : Bool :=
  f.listing.map Prod.fst == some signal

/-- The flags are known ones, at most one for each signal, and the score is the sum of their
weights. -/
structure AnomalyResult.Itemised (result : AnomalyResult) : Prop where
  known : ∀ f ∈ result.flags, f.listing.isSome = true
  sum : result.score = (result.flags.map AnomalyFlag.weight).sum
  once : ∀ signal, (result.flags.filter (AnomalyFlag.raisedBy signal)).length ≤ 1

/-- A signal is silent or raises one flag of its own, and scores the weight of the flag. -/
def RaisedBy (signal : RiskSignal) (raised : List AnomalyFlag × Int) : Prop :=
  raised = ([], 0) ∨ ∃ f, raised.1 = [f] ∧ f.listing = some (signal, raised.2)

namespace RaisedBy

variable {signal : RiskSignal} {raised : List AnomalyFlag × Int}

/-- A signal of two grades. -/
theorem graded {A B : Prop} [Decidable A] [Decidable B] {f g : AnomalyFlag}
    {points points' : Int} (hf : f.listing = some (signal, points))
    (hg : g.listing = some (signal, points')) :
    RaisedBy signal (if A then ([f], points) else if B then ([g], points') else ([], 0)) := by
  split
  · exact Or.inr ⟨f, rfl, hf⟩
  · split
    · exact Or.inr ⟨g, rfl, hg⟩
    · exact Or.inl rfl

/-- Every flag raised is listed. -/
theorem known (h : RaisedBy signal raised) : ∀ f ∈ raised.1, f.listing.isSome = true := by
  intro f hf
  rcases h with rfl | ⟨g, hg, hlisting⟩
  · cases hf
  · rw [hg, List.mem_singleton] at hf
    rw [hf, hlisting]
    rfl

/-- The points raised are the weights of the flags. -/
theorem sum (h : RaisedBy signal raised) :
    raised.2 = (raised.1.map AnomalyFlag.weight).sum := by
  rcases h with rfl | ⟨f, hf, hlisting⟩
  · rfl
  · rw [hf, List.map_singleton, List.sum_singleton, AnomalyFlag.weight, hlisting]
    rfl

/-- The flags that a signal raises are its own. -/
theorem filter (h : RaisedBy signal raised) (other : RiskSignal) :
    (raised.1.filter (AnomalyFlag.raisedBy other)).length ≤ if signal = other then 1 else 0 := by
  rcases h with rfl | ⟨f, hf, hlisting⟩
  · exact Nat.zero_le _
  · have hraised : f.raisedBy other = decide (signal = other) := by
      rw [AnomalyFlag.raisedBy, hlisting]
      cases signal <;> cases other <;> rfl
    rw [hf, List.filter_singleton, hraised]
    split
    · rename_i heq
      rw [decide_eq_true heq]
      exact le_refl _
    · rename_i hne
      rw [decide_eq_false hne]
      exact le_refl _

end RaisedBy

/-- The amount signal raises nothing, or one flag listed for it with its points. -/
theorem amountSignal_raised (signals : AnomalySignals) :
    RaisedBy .amount (amountSignal signals) := by
  unfold amountSignal
  split
  · exact .graded rfl rfl
  · exact Or.inl rfl

/-- The term signal raises nothing, or one flag listed for it with its points. -/
theorem termSignal_raised (signals : AnomalySignals) : RaisedBy .term (termSignal signals) :=
  .graded rfl rfl

/-- The default signal raises nothing, or one flag listed for it with its points. -/
theorem defaultSignal_raised (signals : AnomalySignals) :
    RaisedBy .defaults (defaultSignal signals) :=
  .graded rfl rfl

/-- The flags stay in step with the running total of the score. -/
theorem runAnomalyDetection_itemised (signals : AnomalySignals) :
    (runAnomalyDetection signals).Itemised := by
  have ha := amountSignal_raised signals
  have ht := termSignal_raised signals
  have hd := defaultSignal_raised signals
  constructor
  · intro f hf
    rcases List.mem_append.mp hf with hf | hf
    · rcases List.mem_append.mp hf with hf | hf
      · exact ha.known f hf
      · exact ht.known f hf
    · exact hd.known f hf
  · simp only [runAnomalyDetection, List.map_append, List.sum_append]
    rw [ha.sum, ht.sum, hd.sum]
  · intro signal
    have hfa := ha.filter signal
    have hft := ht.filter signal
    have hfd := hd.filter signal
    simp only [runAnomalyDetection, List.filter_append, List.length_append]
    -- A flag of one signal is not a flag of another one.
    cases signal <;> simp only [if_true, reduceCtorEq, if_false] at hfa hft hfd <;> omega

/-! ### The scale -/

/-- The three signals raise their critical flags together. -/
def AllCritical (signals : AnomalySignals) : Prop :=
  (0 < signals.avgInvoiceAmountCents ∧
      4 * signals.avgInvoiceAmountCents < signals.amountCents) ∧
    (signals.daysUntilDue < 7 ∧ 100000 < signals.amountCents) ∧ 3 ≤ signals.priorDefaultCount

/-- Whether all three signals are critical can be decided. -/
instance (signals : AnomalySignals) : Decidable (AllCritical signals) :=
  inferInstanceAs (Decidable ((_ ∧ _) ∧ (_ ∧ _) ∧ _))

/-- The numbers of the signals as `AssessRiskSchema` asks for them, without an upper bound. -/
structure AnomalySignals.Natural (signals : AnomalySignals) : Prop where
  amount : 0 < signals.amountCents
  average : 0 ≤ signals.avgInvoiceAmountCents
  days : 0 ≤ signals.daysUntilDue
  defaults : 0 ≤ signals.priorDefaultCount

/-- The signals that the schema lets through are natural numbers. -/
theorem SchemaValid.natural {cmd : AssessInvoiceRiskCommand} (h : SchemaValid cmd) :
    cmd.anomalySignals.Natural :=
  ⟨h.signals.1, h.signals.2.1, h.signals.2.2.1, h.signals.2.2.2⟩

/-- The points of a signal of two grades. -/
theorem points_graded {A B : Prop} [Decidable A] [Decidable B] {f g : AnomalyFlag}
    {points points' : Int} (hpoints' : 0 ≤ points') (hpoints : points' ≤ points) :
    let raised : List AnomalyFlag × Int :=
      if A then ([f], points) else if B then ([g], points') else ([], 0)
    (A → raised.2 = points) ∧ (¬ A → raised.2 ≤ points') ∧ raised.2 ≤ points := by
  dsimp only
  split
  · rename_i h
    exact ⟨fun _ => rfl, fun hn => absurd h hn, le_refl _⟩
  · rename_i h
    refine ⟨fun ha => absurd ha h, fun _ => ?_, ?_⟩
    · split
      · exact le_refl _
      · exact hpoints'
    · split
      · exact hpoints
      · exact hpoints'.trans hpoints

/-- The amount scores 40 points above four times the average, and 20 at most below it. -/
theorem amountSignal_points {signals : AnomalySignals} (h : signals.Natural) :
    (0 < signals.avgInvoiceAmountCents ∧
        4 * signals.avgInvoiceAmountCents < signals.amountCents →
      (amountSignal signals).2 = 40) ∧
    (¬ (0 < signals.avgInvoiceAmountCents ∧
        4 * signals.avgInvoiceAmountCents < signals.amountCents) →
      (amountSignal signals).2 ≤ 20) ∧ (amountSignal signals).2 ≤ 40 := by
  unfold amountSignal
  split
  · rename_i havg
    have hspike : 300 < |((signals.amountCents - signals.avgInvoiceAmountCents : Int) : Rat) /
        (signals.avgInvoiceAmountCents : Rat)| * 100 ↔
        4 * signals.avgInvoiceAmountCents < signals.amountCents := by
      rw [lt_deviation_iff h.amount havg (by norm_num)]
      constructor
      · intro hlt
        have : (4 * signals.avgInvoiceAmountCents : Rat) < (signals.amountCents : Rat) := by
          linarith
        exact_mod_cast this
      · intro hlt
        have : (4 * signals.avgInvoiceAmountCents : Rat) < (signals.amountCents : Rat) := by
          exact_mod_cast hlt
        linarith
    rw [← hspike, and_iff_right havg]
    exact points_graded (by omega) (by omega)
  · rename_i havg
    exact ⟨fun hc => absurd hc.1 havg, fun _ => by omega, by omega⟩

/-- The anomaly score leaves the scale when all signals are critical, and only then. -/
theorem anomalyScore_le_iff {signals : AnomalySignals} (h : signals.Natural) :
    (runAnomalyDetection signals).score ≤ 100 ↔ ¬ AllCritical signals := by
  obtain ⟨ha, ha', hamax⟩ := amountSignal_points h
  obtain ⟨ht, ht', htmax⟩ : _ ∧ _ ∧ (termSignal signals).2 ≤ 35 :=
    points_graded (by omega) (by omega)
  obtain ⟨hd, hd', hdmax⟩ : _ ∧ _ ∧ (defaultSignal signals).2 ≤ 40 :=
    points_graded (by omega) (by omega)
  show (amountSignal signals).2 + (termSignal signals).2 + (defaultSignal signals).2 ≤ 100 ↔ _
  constructor
  · intro hle hall
    have hamount := ha hall.1
    have hterm : (termSignal signals).2 = 35 := ht hall.2.1
    have hdefaults : (defaultSignal signals).2 = 40 := hd hall.2.2
    omega
  · intro hnot
    -- One of the signals stays below its critical grade.
    rcases not_and_or.mp hnot with hlow | hnot
    · have := ha' hlow
      omega
    · rcases not_and_or.mp hnot with hlow | hlow
      · have : (termSignal signals).2 ≤ 10 := ht' hlow
        omega
      · have : (defaultSignal signals).2 ≤ 20 := hd' hlow
        omega

/-- The buyer score lies between 0 and 100. -/
theorem assessBuyer_range (signals : AnomalySignals) :
    0 ≤ assessBuyer signals ∧ assessBuyer signals ≤ 100 := by
  rw [assessBuyer_eq]
  omega

/-- The confidence of every gate is on the scale. -/
theorem confidence_range (cmd : AssessInvoiceRiskCommand) (now : Timestamp) :
    0 ≤ (assessInvoiceRisk cmd now).confidenceScore ∧
      (assessInvoiceRisk cmd now).confidenceScore ≤ 100 := by
  have hbuyer := (assessBuyer_range cmd.anomalySignals).1
  have hanomaly := (runAnomalyDetection_scored cmd.anomalySignals).nonneg
  dsimp only [AnomalyResult.signal] at hanomaly
  unfold assessInvoiceRisk
  dsimp only
  -- The gates that return early have constants.
  split
  · show (0 : Int) ≤ 95 ∧ (95 : Int) ≤ 100
    omega
  · split
    · show (0 : Int) ≤ 85 ∧ (85 : Int) ≤ 100
      omega
    · split
      · show (0 : Int) ≤ 80 ∧ (80 : Int) ≤ 100
        omega
      · split
        · show (0 : Int) ≤ 60 ∧ (60 : Int) ≤ 100
          omega
        · dsimp only
          omega

/-- A published score on its scale. -/
def OnScale (score : Int) : Prop := 0 ≤ score ∧ score ≤ 100

/-- Whether a score is on the scale can be decided. -/
instance (score : Int) : Decidable (OnScale score) := inferInstanceAs (Decidable (_ ∧ _))

/-- Every published score is on the scale, and the flags itemise the anomaly score, exactly
when the three signals are not critical together. -/
theorem scores_on_scale_iff {cmd : AssessInvoiceRiskCommand} (h : cmd.anomalySignals.Natural)
    (now : Timestamp) :
    let result := assessInvoiceRisk cmd now
    OnScale result.anomalyResult.score ∧ OnScale result.buyerRiskScore ∧
        OnScale result.confidenceScore ∧ result.anomalyResult.Itemised ↔
      ¬ AllCritical cmd.anomalySignals := by
  intro result
  obtain ⟨-, hb, ha⟩ : result.threeWayMatch = _ ∧ result.buyerRiskScore = _ ∧
      result.anomalyResult = _ := assessInvoiceRisk_layers cmd now
  rw [hb, ha, ← anomalyScore_le_iff h]
  constructor
  · intro hscores
    exact hscores.1.2
  · intro hle
    exact ⟨⟨(runAnomalyDetection_scored cmd.anomalySignals).nonneg, hle⟩,
      assessBuyer_range cmd.anomalySignals, confidence_range cmd now,
      runAnomalyDetection_itemised cmd.anomalySignals⟩

/-- A spike of the amount and a short term, without defaults. -/
theorem scores_on_scale_of_spike :
    OnScale (assessInvoiceRisk (sampleSignals 0 3 500000 100000) 0).anomalyResult.score ∧
      OnScale (assessInvoiceRisk (sampleSignals 0 3 500000 100000) 0).buyerRiskScore ∧
      OnScale (assessInvoiceRisk (sampleSignals 0 3 500000 100000) 0).confidenceScore ∧
      (assessInvoiceRisk (sampleSignals 0 3 500000 100000) 0).anomalyResult.Itemised :=
  (scores_on_scale_iff ⟨by decide, by decide, by decide, by decide⟩ 0).mpr (by decide)

/-- The same invoice for a buyer with three defaults scores 115 points. -/
theorem score_above_scale :
    SchemaValid (sampleSignals 3 3 500000 100000) ∧
      (assessInvoiceRisk (sampleSignals 3 3 500000 100000) 0).anomalyResult.score = 115 ∧
      ¬ (OnScale (assessInvoiceRisk (sampleSignals 3 3 500000 100000) 0).anomalyResult.score ∧
        OnScale (assessInvoiceRisk (sampleSignals 3 3 500000 100000) 0).buyerRiskScore ∧
        OnScale (assessInvoiceRisk (sampleSignals 3 3 500000 100000) 0).confidenceScore ∧
        (assessInvoiceRisk (sampleSignals 3 3 500000 100000) 0).anomalyResult.Itemised) :=
  ⟨⟨sampleSignals 3 3 500000 100000, by decide +kernel⟩, by decide +kernel,
    fun h => absurd h.1 (by decide +kernel)⟩

/-! ### The rules of the match -/

/-- The rules of `runThreeWayMatch`. -/
inductive MatchRule where
  | missingPo
  | missingDeliveryReceipt
  | amountMismatch
  | deliveryShortfall
  deriving DecidableEq

/-- The name of a rule in the reason of a result. -/
def MatchRule.code : MatchRule → String
  | missingPo => "MISSING_PO"
  | missingDeliveryReceipt => "MISSING_DELIVERY_RECEIPT"
  | amountMismatch => "AMOUNT_MISMATCH"
  | deliveryShortfall => "DELIVERY_SHORTFALL"

/-- The documents break the rule. There is no division in it. -/
def MatchRule.Violated (input : ThreeWayMatchInput) : MatchRule → Prop
  | missingPo => input.poNumber = "" ∨ input.poAmountCents ≤ 0
  | missingDeliveryReceipt => input.deliveryReceiptId = ""
  | amountMismatch =>
    input.poAmountCents < 50 * |input.invoiceAmountCents - input.poAmountCents|
  | deliveryShortfall => input.deliveryAmountCents < input.invoiceAmountCents

/-- Whether a rule is violated can be decided. -/
instance (input : ThreeWayMatchInput) (rule : MatchRule) : Decidable (rule.Violated input) := by
  cases rule <;> unfold MatchRule.Violated <;> infer_instance

/-- The first rule that the documents break, in the order of the rules. -/
def firstViolation (input : ThreeWayMatchInput) : Option MatchRule :=
  if MatchRule.missingPo.Violated input then some .missingPo
  else if MatchRule.missingDeliveryReceipt.Violated input then some .missingDeliveryReceipt
  else if MatchRule.amountMismatch.Violated input then some .amountMismatch
  else if MatchRule.deliveryShortfall.Violated input then some .deliveryShortfall
  else none

/-- The result fails and its reason names the rule. -/
def ThreeWayMatchResult.Names (result : ThreeWayMatchResult) (rule : MatchRule) : Prop :=
  result.passed = false ∧ ∃ detail, result.reason = rule.code ++ ": " ++ detail

/-- A failed result with the code of a rule in front names the rule. -/
theorem ThreeWayMatchResult.Names.of_reason {result : ThreeWayMatchResult} {rule : MatchRule}
    (first second third : String) (hfailed : result.passed = false)
    (hreason : result.reason = rule.code ++ ": " ++ first ++ second ++ third) :
    result.Names rule :=
  ⟨hfailed, first ++ second ++ third, by rw [hreason]; simp only [String.append_assoc]⟩

/-- A division that fails on zero. -/
def checkedDiv (a b : Rat) : Option Rat := if b = 0 then none else some (a / b)

/-- `runThreeWayMatch` with the checked division. -/
def runThreeWayMatchChecked (input : ThreeWayMatchInput) : Option ThreeWayMatchResult :=
  if input.poNumber = "" ∨ input.poAmountCents ≤ 0 then
    some
      { passed := false
        variancePct := 0
        reason := "MISSING_PO: No valid Purchase Order reference provided" }
  else if input.deliveryReceiptId = "" then
    some
      { passed := false
        variancePct := 0
        reason := "MISSING_DELIVERY_RECEIPT: No delivery confirmation provided" }
  else do
    let variance : Int := (input.invoiceAmountCents - input.poAmountCents).natAbs
    let ratio ← checkedDiv variance input.poAmountCents
    let variancePct := ratio * 100
    if maxVariancePct < variancePct then
      some
        { passed := false
          variancePct := variancePct
          reason := "AMOUNT_MISMATCH: Invoice amount varies " ++ toFixed variancePct 2 ++
            "% from PO amount (max allowed: 2%)" }
    else if input.deliveryAmountCents < input.invoiceAmountCents then
      let shortfall := input.invoiceAmountCents - input.deliveryAmountCents
      some
        { passed := false
          variancePct := variancePct
          reason := "DELIVERY_SHORTFALL: Delivery receipt confirms " ++ toString shortfall ++
            " paise less than the invoice amount" }
    else
      some
        { passed := true
          variancePct := variancePct
          reason := "THREE_WAY_MATCH_PASSED" }

/-- No division is by zero: the first rule has returned before. -/
theorem runThreeWayMatchChecked_eq (input : ThreeWayMatchInput) :
    runThreeWayMatchChecked input = some (runThreeWayMatch input) := by
  unfold runThreeWayMatchChecked runThreeWayMatch
  split
  · rfl
  · rename_i hpo
    rw [not_or, not_le] at hpo
    split
    · rfl
    · have hne : ((input.poAmountCents : Int) : Rat) ≠ 0 := by
        exact_mod_cast hpo.2.ne'
      simp only [checkedDiv, if_neg hne, Option.bind_eq_bind, Option.bind_some]
      split
      · rfl
      · split <;> rfl

/-- The result of the match passes, or names the first rule that the documents break. -/
def ThreeWayMatchResult.Follows (result : ThreeWayMatchResult) : Option MatchRule → Prop
  | none => result.passed = true
  | some rule => result.Names rule

/-- The early returns of the match are the search for the first broken rule. -/
theorem runThreeWayMatch_follows (input : ThreeWayMatchInput) :
    (runThreeWayMatch input).Follows (firstViolation input) := by
  unfold runThreeWayMatch firstViolation
  split
  · rename_i hpo
    rw [if_pos (show MatchRule.missingPo.Violated input from hpo)]
    exact ⟨rfl, "No valid Purchase Order reference provided", rfl⟩
  · rename_i hpo
    rw [if_neg (show ¬ MatchRule.missingPo.Violated input from hpo)]
    rw [not_or, not_le] at hpo
    split
    · rename_i hreceipt
      rw [if_pos (show MatchRule.missingDeliveryReceipt.Violated input from hreceipt)]
      exact ⟨rfl, "No delivery confirmation provided", rfl⟩
    · rename_i hreceipt
      rw [if_neg (show ¬ MatchRule.missingDeliveryReceipt.Violated input from hreceipt)]
      -- The percentage and the bound without a division decide the same.
      have hvariance := @variance_le_iff input.invoiceAmountCents _ hpo.2
      have hmismatch : MatchRule.amountMismatch.Violated input ↔
          input.poAmountCents < 50 * |input.invoiceAmountCents - input.poAmountCents| := Iff.rfl
      dsimp only
      split
      · rename_i hpct
        have hover := hvariance.not.mp (not_not.mpr hpct)
        rw [if_pos (hmismatch.mpr (by omega))]
        exact .of_reason "Invoice amount varies " _ _ rfl rfl
      · rename_i hpct
        have hwithin := hvariance.mp hpct
        rw [if_neg (hmismatch.not.mpr (by omega))]
        split
        · rename_i hshort
          rw [if_pos (show MatchRule.deliveryShortfall.Violated input from hshort)]
          exact .of_reason "Delivery receipt confirms " _ _ rfl rfl
        · rename_i hcovered
          rw [if_neg (show ¬ MatchRule.deliveryShortfall.Violated input from hcovered)]
          rfl

/-- No broken rule: the documents match. -/
theorem firstViolation_eq_none (input : ThreeWayMatchInput) :
    firstViolation input = none ↔
      input.poNumber ≠ "" ∧ input.deliveryReceiptId ≠ "" ∧ 0 < input.poAmountCents ∧
        50 * |input.invoiceAmountCents - input.poAmountCents| ≤ input.poAmountCents ∧
        input.invoiceAmountCents ≤ input.deliveryAmountCents := by
  unfold firstViolation
  constructor
  · intro h
    split_ifs at h with hpo hreceipt hmismatch hshort
    simp only [MatchRule.Violated, not_or, not_le, not_lt] at hpo hreceipt hmismatch hshort
    exact ⟨hpo.1, hreceipt, hpo.2, hmismatch, hshort⟩
  · intro ⟨hpo, hreceipt, hpositive, hvariance, hcovered⟩
    rw [if_neg, if_neg, if_neg, if_neg]
    · exact not_lt.mpr hcovered
    · exact not_lt.mpr hvariance
    · exact hreceipt
    · exact not_or.mpr ⟨hpo, not_le.mpr hpositive⟩

/-- A reason names one rule. -/
theorem ThreeWayMatchResult.Names.unique {result : ThreeWayMatchResult} {rule rule' : MatchRule}
    (h : result.Names rule) (h' : result.Names rule') : rule = rule' := by
  obtain ⟨-, detail, hreason⟩ := h
  obtain ⟨-, detail', hreason'⟩ := h'
  rw [hreason] at hreason'
  have hcodes := congrArg String.toList hreason'
  simp only [String.toList_append] at hcodes
  cases rule <;> cases rule' <;> first | rfl | (simp [MatchRule.code] at hcodes)

/-- The match accepts exactly the matching documents, divides by nothing but a positive
amount, and reports the first rule that is broken. So an accepted invoice is covered by the
delivery and lies within two percent of the order. -/
theorem threeWayMatch_exact (input : ThreeWayMatchInput) :
    runThreeWayMatchChecked input = some (runThreeWayMatch input) ∧
    ((runThreeWayMatch input).passed = true ↔
      input.poNumber ≠ "" ∧ input.deliveryReceiptId ≠ "" ∧ 0 < input.poAmountCents ∧
        50 * |input.invoiceAmountCents - input.poAmountCents| ≤ input.poAmountCents ∧
        input.invoiceAmountCents ≤ input.deliveryAmountCents) ∧
    (∀ rule, (runThreeWayMatch input).Names rule ↔ firstViolation input = some rule) ∧
    ((runThreeWayMatch input).passed = true →
      (input.invoiceAmountCents : Rat) ≤
          min (input.deliveryAmountCents : Rat) (102 / 100 * (input.poAmountCents : Rat)) ∧
        98 / 100 * (input.poAmountCents : Rat) ≤ (input.invoiceAmountCents : Rat)) := by
  have hfollows := runThreeWayMatch_follows input
  have hpassed : (runThreeWayMatch input).passed = true ↔ firstViolation input = none := by
    cases hfirst : firstViolation input with
    | none =>
        rw [hfirst] at hfollows
        exact iff_of_true hfollows rfl
    | some rule =>
        rw [hfirst] at hfollows
        have hfailed := hfollows.1
        rw [hfailed]
        exact iff_of_false Bool.false_ne_true (Option.some_ne_none rule)
  refine ⟨runThreeWayMatchChecked_eq input, hpassed.trans (firstViolation_eq_none input), ?_, ?_⟩
  · intro rule
    cases hfirst : firstViolation input with
    | none =>
        -- A passing result names no rule.
        have hpass := hpassed.mpr hfirst
        refine iff_of_false (fun h => ?_) (Option.some_ne_none rule).symm
        rw [h.1] at hpass
        cases hpass
    | some rule' =>
        rw [hfirst] at hfollows
        constructor
        · intro h
          rw [hfollows.unique h]
        · intro h
          cases h
          exact hfollows
  · intro hpass
    obtain ⟨-, -, -, hvariance, hcovered⟩ :=
      (firstViolation_eq_none input).mp (hpassed.mp hpass)
    -- The bars of the absolute value go in both directions.
    have habove := le_abs_self (input.invoiceAmountCents - input.poAmountCents)
    have hbelow := neg_abs_le (input.invoiceAmountCents - input.poAmountCents)
    have hhigh : (50 * input.invoiceAmountCents : Rat) ≤ 51 * input.poAmountCents := by
      exact_mod_cast (by omega : 50 * input.invoiceAmountCents ≤ 51 * input.poAmountCents)
    have hlow : (49 * input.poAmountCents : Rat) ≤ 50 * input.invoiceAmountCents := by
      exact_mod_cast (by omega : 49 * input.poAmountCents ≤ 50 * input.invoiceAmountCents)
    refine ⟨le_min (by exact_mod_cast hcovered) ?_, ?_⟩
    · linarith
    · linarith

end Vanguard
