import Vanguard.Proofs.RiskGate

/-!
# `Vanguard.Proofs.RiskCascade`: the decision as a join of three verdicts

`assessInvoiceRisk` is a cascade of early returns. `decision_eq_max` reads it without an
order: the decision is the most severe of three verdicts, one for each layer. The laws on
two commands compare the layers and use that the join is monotone:

* `decision_le_of_riskier`: riskier evidence never softens the decision;
* `longer_term_iff`: the engine passes the days until the due date as the days since the
  last payment, so a longer term is harmless exactly when it stays between the thresholds
  of the buyer score;
* `buyer_gate_dead`: nothing is outstanding in the buyer score of the engine, so the score
  stays below the threshold of the second gate.
-/

set_option autoImplicit false

namespace Vanguard

/-! ### The join -/

/-- The severity of a decision: `APPROVE`, then `MANUAL_REVIEW`, then `REJECT`. -/
def RiskDecision.severity : RiskDecision → Nat
  | approve => 0
  | manualReview => 1
  | reject => 2

/-- Decisions of one severity are the same. -/
theorem RiskDecision.severity_injective : Function.Injective RiskDecision.severity := by
  intro d d' h
  cases d <;> cases d' <;> first | rfl | cases h

/-- Decisions are ordered by their severity. -/
instance : LinearOrder RiskDecision :=
  LinearOrder.lift' RiskDecision.severity RiskDecision.severity_injective

/-- The order of the decisions is that of their severities. -/
theorem RiskDecision.le_iff {d d' : RiskDecision} : d ≤ d' ↔ d.severity ≤ d'.severity :=
  Iff.rfl

/-- No decision is below an approval. -/
theorem RiskDecision.approve_le (d : RiskDecision) : .approve ≤ d := Nat.zero_le _

/-- No decision is above a rejection. -/
theorem RiskDecision.le_reject (d : RiskDecision) : d ≤ .reject := by
  rw [le_iff]
  cases d <;> decide

/-- A join is an approval only of two approvals. -/
theorem RiskDecision.max_eq_approve {d d' : RiskDecision} :
    max d d' = .approve ↔ d = .approve ∧ d' = .approve := by
  cases d <;> cases d' <;> decide

/-- The verdict of the three-way match. -/
def matchVerdict (result : ThreeWayMatchResult) : RiskDecision :=
  if result.passed = true then .approve else .reject

/-- The verdict of the buyer score. -/
def buyerVerdict (score : Int) : RiskDecision :=
  if 75 ≤ score then .reject else if 50 ≤ score then .manualReview else .approve

/-- One of the flags is critical. -/
def HasHigh (flags : List AnomalyFlag) : Prop := ∃ f ∈ flags, f.severity = .high

/-- Whether a flag is high can be decided by looking at the list. -/
instance (flags : List AnomalyFlag) : Decidable (HasHigh flags) :=
  inferInstanceAs (Decidable (∃ f ∈ flags, f.severity = .high))

/-- The engine's search for a high flag finds one if there is one. -/
theorem any_high_iff (flags : List AnomalyFlag) :
    flags.any (fun f => f.severity == .high) = true ↔ HasHigh flags := by
  simp [HasHigh]

/-- The flags of two signals have a high one if one of them has. -/
theorem hasHigh_append (flags flags' : List AnomalyFlag) :
    HasHigh (flags ++ flags') ↔ HasHigh flags ∨ HasHigh flags' := by
  simp only [HasHigh, List.mem_append, or_and_right, exists_or]

/-- The verdict of the anomaly signals. -/
def anomalyVerdict (result : AnomalyResult) : RiskDecision :=
  if HasHigh result.flags ∧ 60 < result.score then .reject
  else if 30 ≤ result.score then .manualReview
  else .approve

/-- The most severe of the three verdicts. -/
def joinedVerdict (cmd : AssessInvoiceRiskCommand) : RiskDecision :=
  max (matchVerdict (runThreeWayMatch cmd.threeWayMatchInput))
    (max (buyerVerdict (assessBuyer cmd.anomalySignals))
      (anomalyVerdict (runAnomalyDetection cmd.anomalySignals)))

/-- The cascade is the join: each gate returns the most severe verdict that is left. -/
theorem decision_eq_max (cmd : AssessInvoiceRiskCommand) (now : Timestamp) :
    (assessInvoiceRisk cmd now).decision = joinedVerdict cmd := by
  simp only [assessInvoiceRisk, joinedVerdict, any_high_iff]
  generalize runThreeWayMatch cmd.threeWayMatchInput = m
  generalize assessBuyer cmd.anomalySignals = b
  generalize runAnomalyDetection cmd.anomalySignals = a
  unfold matchVerdict buyerVerdict anomalyVerdict
  split
  · -- Gate 1: no verdict is above a rejection.
    rename_i hm
    rw [hm, if_neg Bool.false_ne_true]
    exact (max_eq_left (RiskDecision.le_reject _)).symm
  · rename_i hm
    rw [if_pos (Bool.eq_true_of_not_eq_false hm), max_eq_right (RiskDecision.approve_le _)]
    split
    · -- Gate 2.
      rename_i hb
      rw [if_pos (show 75 ≤ b from hb)]
      exact (max_eq_left (RiskDecision.le_reject _)).symm
    · rename_i hb
      rw [if_neg (show ¬ 75 ≤ b from hb)]
      split
      · -- Gate 3.
        exact (max_eq_right (RiskDecision.le_reject _)).symm
      · -- Gate 4 is the join of the two verdicts that are left.
        split
        · rename_i h
          by_cases hb' : 50 ≤ b
          · rw [if_pos hb']
            split <;> rfl
          · have ha : 30 ≤ a.score := h.resolve_left hb'
            rw [if_neg hb', if_pos ha]
            rfl
        · rename_i h
          rw [not_or] at h
          rw [if_neg (show ¬ 50 ≤ b from h.1), if_neg (show ¬ 30 ≤ a.score from h.2)]
          rfl

/-- Every gate returns the results of the three layers. -/
theorem assessInvoiceRisk_layers (cmd : AssessInvoiceRiskCommand) (now : Timestamp) :
    (assessInvoiceRisk cmd now).threeWayMatch = runThreeWayMatch cmd.threeWayMatchInput ∧
      (assessInvoiceRisk cmd now).buyerRiskScore = assessBuyer cmd.anomalySignals ∧
      (assessInvoiceRisk cmd now).anomalyResult = runAnomalyDetection cmd.anomalySignals := by
  unfold assessInvoiceRisk
  dsimp only
  split
  · exact ⟨rfl, rfl, rfl⟩
  · split
    · exact ⟨rfl, rfl, rfl⟩
    · split
      · exact ⟨rfl, rfl, rfl⟩
      · split <;> exact ⟨rfl, rfl, rfl⟩

/-- The confidence of an approval. -/
theorem confidence_of_approve {cmd : AssessInvoiceRiskCommand} {now : Timestamp}
    (h : (assessInvoiceRisk cmd now).decision = .approve) :
    (assessInvoiceRisk cmd now).confidenceScore =
      max 0 (100 - assessBuyer cmd.anomalySignals -
        (runAnomalyDetection cmd.anomalySignals).score) := by
  unfold assessInvoiceRisk at h ⊢
  dsimp only at h ⊢
  -- The other gates do not approve.
  split at h
  · cases h
  · rename_i hm
    rw [if_neg hm]
    split at h
    · cases h
    · rename_i hb
      rw [if_neg hb]
      split at h
      · cases h
      · rename_i ha
        rw [if_neg ha]
        split at h
        · cases h
        · rename_i hr
          rw [if_neg hr]

/-- What an approval has found: the match passed, and both scores are below the thresholds
of the manual review. -/
theorem approve_iff (cmd : AssessInvoiceRiskCommand) (now : Timestamp) :
    (assessInvoiceRisk cmd now).decision = .approve ↔
      (runThreeWayMatch cmd.threeWayMatchInput).passed = true ∧
        assessBuyer cmd.anomalySignals < 50 ∧
        (runAnomalyDetection cmd.anomalySignals).score < 30 := by
  rw [decision_eq_max, joinedVerdict, RiskDecision.max_eq_approve, RiskDecision.max_eq_approve]
  unfold matchVerdict buyerVerdict anomalyVerdict
  constructor
  · intro ⟨hm, hb, ha⟩
    -- An approving verdict is the last branch of its layer.
    split at hm
    · rename_i hpassed
      refine ⟨hpassed, ?_, ?_⟩
      · split_ifs at hb
        omega
      · split_ifs at ha
        omega
    · cases hm
  · intro ⟨hm, hb, ha⟩
    rw [if_pos hm, if_neg (by omega), if_neg (by omega), if_neg (by omega), if_neg (by omega)]
    exact ⟨rfl, rfl, rfl⟩

/-! ### One signal -/

/-- What holds of every anomaly signal: its points are not negative, and a critical flag
comes with at least 35 of them. -/
structure Scored (signal : List AnomalyFlag × Int) : Prop where
  nonneg : 0 ≤ signal.2
  high : HasHigh signal.1 → 35 ≤ signal.2

/-- The first signal raises no more than the second. -/
structure Below (signal signal' : List AnomalyFlag × Int) : Prop where
  high : HasHigh signal.1 → HasHigh signal'.1
  points : signal.2 ≤ signal'.2

/-- Every signal is below itself. -/
theorem Below.refl (signal : List AnomalyFlag × Int) : Below signal signal :=
  ⟨id, le_refl _⟩

/-- A single flag is the high one or there is none. -/
theorem hasHigh_singleton (f : AnomalyFlag) : HasHigh [f] ↔ f.severity = .high := by
  simp [HasHigh]

/-- No flags, no high one. -/
theorem not_hasHigh_nil : ¬ HasHigh [] := fun ⟨_, hf, _⟩ => nomatch hf

section

variable {A B A' B' : Prop} [Decidable A] [Decidable B] [Decidable A'] [Decidable B']
  {f g f' g' : AnomalyFlag} {points points' : Int}

/-- A signal of two grades, of which only the upper one is critical. -/
theorem Scored.graded (hpoints : 35 ≤ points) (hpoints' : 0 ≤ points')
    (hg : g.severity ≠ .high) :
    Scored (if A then ([f], points) else if B then ([g], points') else ([], 0)) := by
  split
  · exact ⟨by show 0 ≤ points; omega, fun _ => hpoints⟩
  · split
    · exact ⟨hpoints', fun h => absurd ((hasHigh_singleton g).mp h) hg⟩
    · exact ⟨le_refl _, fun h => absurd h not_hasHigh_nil⟩

/-- Two readings of one graded signal: what reaches a grade in the first reaches at least
that grade in the second. -/
theorem Below.graded (hpoints : points' ≤ points) (hpoints' : 0 ≤ points')
    (hf' : f'.severity = .high) (hg : g.severity ≠ .high) (hA : A → A')
    (hB : B → A' ∨ B') :
    Below (if A then ([f], points) else if B then ([g], points') else ([], 0))
      (if A' then ([f'], points) else if B' then ([g'], points') else ([], 0)) := by
  have htop : HasHigh [f'] := (hasHigh_singleton f').mpr hf'
  split
  · -- The upper grade stays the upper grade.
    rename_i h
    rw [if_pos (hA h)]
    exact ⟨fun _ => htop, le_refl _⟩
  · split
    · -- The lower grade stays or becomes the upper one.
      rename_i h
      refine ⟨fun h => absurd ((hasHigh_singleton g).mp h) hg, ?_⟩
      show points' ≤ _
      split
      · exact hpoints
      · rename_i hA'
        rw [if_pos ((hB h).resolve_left hA')]
    · refine ⟨fun h => absurd h not_hasHigh_nil, ?_⟩
      show 0 ≤ _
      split
      · show 0 ≤ points
        omega
      · split
        · exact hpoints'
        · exact le_refl _

end

/-- The amount signal scores what its flags weigh. -/
theorem amountSignal_scored (signals : AnomalySignals) : Scored (amountSignal signals) := by
  unfold amountSignal
  split
  · exact .graded (by omega) (by omega) fun h => nomatch h
  · exact ⟨le_refl _, fun h => absurd h not_hasHigh_nil⟩

/-- The term signal scores what its flags weigh. -/
theorem termSignal_scored (signals : AnomalySignals) : Scored (termSignal signals) :=
  .graded (by omega) (by omega) fun h => nomatch h

/-- The default signal scores what its flags weigh. -/
theorem defaultSignal_scored (signals : AnomalySignals) : Scored (defaultSignal signals) :=
  .graded (by omega) (by omega) fun h => nomatch h

/-- The flags and the score together. -/
def AnomalyResult.signal (result : AnomalyResult) : List AnomalyFlag × Int :=
  (result.flags, result.score)

/-- A critical flag comes with at least 35 points of the whole score. -/
theorem runAnomalyDetection_scored (signals : AnomalySignals) :
    Scored (runAnomalyDetection signals).signal := by
  have ha := amountSignal_scored signals
  have ht := termSignal_scored signals
  have hd := defaultSignal_scored signals
  have hnonneg := ha.nonneg
  have hnonneg' := ht.nonneg
  have hnonneg'' := hd.nonneg
  constructor
  · show 0 ≤ (amountSignal signals).2 + (termSignal signals).2 + (defaultSignal signals).2
    omega
  · show HasHigh ((amountSignal signals).1 ++ (termSignal signals).1 ++
      (defaultSignal signals).1) →
        35 ≤ (amountSignal signals).2 + (termSignal signals).2 + (defaultSignal signals).2
    rw [hasHigh_append, hasHigh_append]
    intro h
    rcases h with (h | h) | h
    · have := ha.high h
      omega
    · have := ht.high h
      omega
    · have := hd.high h
      omega

/-- The score is the sum of the signals, and its flags are those of the signals. -/
theorem runAnomalyDetection_below {signals signals' : AnomalySignals}
    (ha : Below (amountSignal signals) (amountSignal signals'))
    (ht : Below (termSignal signals) (termSignal signals'))
    (hd : Below (defaultSignal signals) (defaultSignal signals')) :
    Below (runAnomalyDetection signals).signal (runAnomalyDetection signals').signal := by
  constructor
  · show HasHigh (_ ++ _ ++ _) → HasHigh (_ ++ _ ++ _)
    simp only [hasHigh_append]
    exact Or.imp (Or.imp ha.high ht.high) hd.high
  · exact add_le_add (add_le_add ha.points ht.points) hd.points

/-- The decision is the most severe of the verdicts on the outputs of the three layers, which
the result returns. So an approval has a passing match, passing anomaly signals, no critical
flag, and a confidence above 20 that is not clamped, and signals that fail are never
approved. -/
theorem decision_is_join (cmd : AssessInvoiceRiskCommand) (now : Timestamp) :
    let result := assessInvoiceRisk cmd now
    let matched := runThreeWayMatch cmd.threeWayMatchInput
    let buyerScore := assessBuyer cmd.anomalySignals
    let anomaly := runAnomalyDetection cmd.anomalySignals
    (result.threeWayMatch = matched ∧ result.buyerRiskScore = buyerScore ∧
        result.anomalyResult = anomaly) ∧
      result.decision =
        max (matchVerdict matched) (max (buyerVerdict buyerScore) (anomalyVerdict anomaly)) ∧
      (result.decision = .approve →
        matched.passed = true ∧ anomaly.passed = true ∧ ¬ HasHigh anomaly.flags ∧
        result.confidenceScore = 100 - buyerScore - anomaly.score ∧
        20 < result.confidenceScore) ∧
      (anomaly.passed = false → result.decision ≠ .approve) := by
  intro result matched buyerScore anomaly
  have happrove : result.decision = .approve ↔
      matched.passed = true ∧ buyerScore < 50 ∧ anomaly.score < 30 := approve_iff cmd now
  have hscored : Scored anomaly.signal := runAnomalyDetection_scored cmd.anomalySignals
  have hpassed : anomaly.passed = decide (anomaly.score ≤ 50) := rfl
  refine ⟨assessInvoiceRisk_layers cmd now, decision_eq_max cmd now, ?_, ?_⟩
  · intro h
    obtain ⟨hmatch, hbuyer, hanomaly⟩ := happrove.mp h
    have hconfidence : result.confidenceScore = max 0 (100 - buyerScore - anomaly.score) :=
      confidence_of_approve h
    rw [max_eq_right (by omega)] at hconfidence
    -- Below 50 and 30 points the confidence is not clamped, and no flag is critical.
    refine ⟨hmatch, ?_, fun hhigh => ?_, hconfidence, by omega⟩
    · rw [hpassed, decide_eq_true_iff]
      omega
    · have : 35 ≤ anomaly.score := hscored.high hhigh
      omega
  · intro hfailed h
    have hanomaly := (happrove.mp h).2.2
    rw [hpassed, decide_eq_false_iff_not] at hfailed
    omega

/-! ### Two commands -/

/-- A match that fails has the higher verdict. -/
theorem matchVerdict_mono {result result' : ThreeWayMatchResult}
    (h : result'.passed = true → result.passed = true) :
    matchVerdict result ≤ matchVerdict result' := by
  unfold matchVerdict
  by_cases h' : result'.passed = true
  · rw [if_pos (h h')]
    exact RiskDecision.approve_le _
  · rw [if_neg h']
    exact RiskDecision.le_reject _

/-- A higher buyer score has the higher verdict. -/
theorem buyerVerdict_mono {score score' : Int} (h : score ≤ score') :
    buyerVerdict score ≤ buyerVerdict score' := by
  unfold buyerVerdict
  split
  · rw [if_pos (by omega)]
  · split
    · split
      · exact RiskDecision.le_reject _
      · rw [if_pos (by omega)]
    · exact RiskDecision.approve_le _

/-- A signal that is below another has the lower verdict. -/
theorem anomalyVerdict_mono {result result' : AnomalyResult}
    (h : Below result.signal result'.signal) :
    anomalyVerdict result ≤ anomalyVerdict result' := by
  have hscore : result.score ≤ result'.score := h.points
  unfold anomalyVerdict
  split
  · rename_i hcritical
    rw [if_pos ⟨h.high hcritical.1, by omega⟩]
  · split
    · split
      · exact RiskDecision.le_reject _
      · rw [if_pos (by omega)]
    · exact RiskDecision.approve_le _

/-- The decision is monotone in the three layers. -/
theorem decision_mono {cmd cmd' : AssessInvoiceRiskCommand} {now now' : Timestamp}
    (hm : (runThreeWayMatch cmd'.threeWayMatchInput).passed = true →
      (runThreeWayMatch cmd.threeWayMatchInput).passed = true)
    (hb : assessBuyer cmd.anomalySignals ≤ assessBuyer cmd'.anomalySignals)
    (ha : Below (runAnomalyDetection cmd.anomalySignals).signal
      (runAnomalyDetection cmd'.anomalySignals).signal) :
    (assessInvoiceRisk cmd now).decision ≤ (assessInvoiceRisk cmd' now').decision := by
  rw [decision_eq_max, decision_eq_max]
  exact max_le_max (matchVerdict_mono hm)
    (max_le_max (buyerVerdict_mono hb) (anomalyVerdict_mono ha))

/-- The second component of the buyer score. -/
def recencyPoints (daysSinceLastPayment : Int) : Int :=
  if 180 < daysSinceLastPayment then 30
  else if 90 < daysSinceLastPayment then 20
  else if 30 < daysSinceLastPayment then 10
  else 0

/-- The buyer score of the engine: nothing is outstanding, so the credit limit is not used,
and the score has two components. -/
theorem assessBuyer_eq (signals : AnomalySignals) :
    assessBuyer signals =
      min (max (min (signals.priorDefaultCount * 15) 40 + recencyPoints signals.daysUntilDue) 0)
        100 := by
  have hcredit : ((0 : Int) : Rat) / ((1000000000 : Int) : Rat) = 0 := by norm_num
  simp only [assessBuyer, scoreBuyerRisk, recencyPoints, hcredit]
  norm_num

/-- A command that `AssessRiskSchema` has accepted. -/
def SchemaValid (cmd : AssessInvoiceRiskCommand) : Prop :=
  ∃ body, assessRiskSchema body = some cmd

/-- The amount of the signals is positive, and the other numbers are not negative. -/
theorem SchemaValid.signals {cmd : AssessInvoiceRiskCommand} (h : SchemaValid cmd) :
    0 < cmd.anomalySignals.amountCents ∧ 0 ≤ cmd.anomalySignals.avgInvoiceAmountCents ∧
      0 ≤ cmd.anomalySignals.daysUntilDue ∧ 0 ≤ cmd.anomalySignals.priorDefaultCount := by
  obtain ⟨body, h⟩ := h
  simp only [assessRiskSchema, positiveInt, naturalInt, Bool.and_eq_true,
    decide_eq_true_iff] at h
  split at h
  · rename_i hvalid
    cases h
    exact ⟨hvalid.2.2.2.2.2.1.1, hvalid.2.2.2.2.2.2.1.1, hvalid.2.2.2.2.2.2.2.1.1,
      hvalid.2.2.2.2.2.2.2.2.1⟩
  · cases h

/-! ### Riskier evidence -/

/-- The second command is the first with as many defaults or more, an amount as high or
higher, an average as low or lower, and a delivery as low or lower. Both averages are
positive. -/
structure RiskierEvidence (c c' : AssessInvoiceRiskCommand) : Prop where
  /-- Nothing else differs. -/
  same : c' =
    { c with
        threeWayMatchInput :=
          { c.threeWayMatchInput with
              deliveryAmountCents := c'.threeWayMatchInput.deliveryAmountCents }
        anomalySignals :=
          { c.anomalySignals with
              priorDefaultCount := c'.anomalySignals.priorDefaultCount
              amountCents := c'.anomalySignals.amountCents
              avgInvoiceAmountCents := c'.anomalySignals.avgInvoiceAmountCents } }
  defaults : c.anomalySignals.priorDefaultCount ≤ c'.anomalySignals.priorDefaultCount
  amount : c.anomalySignals.amountCents ≤ c'.anomalySignals.amountCents
  average : c'.anomalySignals.avgInvoiceAmountCents ≤ c.anomalySignals.avgInvoiceAmountCents
  average_pos : 0 < c.anomalySignals.avgInvoiceAmountCents
  average_pos' : 0 < c'.anomalySignals.avgInvoiceAmountCents
  delivery : c'.threeWayMatchInput.deliveryAmountCents ≤
    c.threeWayMatchInput.deliveryAmountCents

/-- The absolute value of the deviation does not matter above 100%: an amount below the
average deviates by less than that. -/
theorem lt_deviation_iff {amount average : Int} (hamount : 0 < amount)
    (haverage : 0 < average) {pct : Rat} (hpct : 100 ≤ pct) :
    pct < |((amount - average : Int) : Rat) / (average : Rat)| * 100 ↔
      (pct + 100) * (average : Rat) < 100 * (amount : Rat) := by
  have ha : (0 : Rat) < (amount : Rat) := by exact_mod_cast hamount
  have hm : (0 : Rat) < (average : Rat) := by exact_mod_cast haverage
  rw [abs_div, abs_of_pos hm, div_mul_eq_mul_div, lt_div_iff₀ hm, Int.cast_sub]
  -- Above the average the bars can go, below it neither side is reached.
  rcases le_total (average : Rat) (amount : Rat) with h | h
  · rw [abs_of_nonneg (by linarith)]
    constructor <;> intro hlt <;> linarith
  · rw [abs_of_nonpos (by linarith)]
    have hlow : 100 * (average : Rat) ≤ pct * (average : Rat) := by
      exact mul_le_mul_of_nonneg_right hpct hm.le
    constructor <;> intro hlt <;> linarith

/-- The deviation grows with the amount and falls with the average. -/
theorem deviation_mono {amount amount' average average' : Int} (hamount : 0 < amount)
    (haverage' : 0 < average') (ha : amount ≤ amount') (hm : average' ≤ average) {pct : Rat}
    (hpct : 100 ≤ pct)
    (h : pct < |((amount - average : Int) : Rat) / (average : Rat)| * 100) :
    pct < |((amount' - average' : Int) : Rat) / (average' : Rat)| * 100 := by
  rw [lt_deviation_iff hamount (by omega) hpct] at h
  rw [lt_deviation_iff (by omega) haverage' hpct]
  have hm' : (average' : Rat) ≤ (average : Rat) := by exact_mod_cast hm
  have ha' : (amount : Rat) ≤ (amount' : Rat) := by exact_mod_cast ha
  calc (pct + 100) * (average' : Rat)
      ≤ (pct + 100) * (average : Rat) := mul_le_mul_of_nonneg_left hm' (by linarith)
    _ < 100 * (amount : Rat) := h
    _ ≤ 100 * (amount' : Rat) := by linarith

/-- A larger amount against a smaller average raises the amount signal. -/
theorem amountSignal_below {s s' : AnomalySignals} (hamount : 0 < s.amountCents)
    (haverage' : 0 < s'.avgInvoiceAmountCents) (ha : s.amountCents ≤ s'.amountCents)
    (hm : s'.avgInvoiceAmountCents ≤ s.avgInvoiceAmountCents) :
    Below (amountSignal s) (amountSignal s') := by
  unfold amountSignal
  rw [if_pos haverage', if_pos (show 0 < s.avgInvoiceAmountCents by omega)]
  refine .graded (by omega) (by omega) rfl (fun h => nomatch h) ?_ fun h => Or.inr ?_
  · exact deviation_mono hamount haverage' ha hm (by norm_num)
  · exact deviation_mono hamount haverage' ha hm (by norm_num) h

/-- A shorter term and a higher amount. -/
theorem termSignal_below {s s' : AnomalySignals} (hd : s'.daysUntilDue ≤ s.daysUntilDue)
    (ha : s.amountCents ≤ s'.amountCents) : Below (termSignal s) (termSignal s') :=
  .graded (by omega) (by omega) rfl (fun h => nomatch h)
    (fun h => ⟨by omega, by omega⟩) fun h => Or.inr (by omega)

/-- More defaults raise the default signal. -/
theorem defaultSignal_below {s s' : AnomalySignals}
    (h : s.priorDefaultCount ≤ s'.priorDefaultCount) :
    Below (defaultSignal s) (defaultSignal s') :=
  .graded (by omega) (by omega) rfl (fun h => nomatch h) (fun h => by omega)
    fun h => Or.inr (by omega)

/-- More defaults raise the buyer score, for the same term. -/
theorem assessBuyer_mono {s s' : AnomalySignals} (hd : s.daysUntilDue = s'.daysUntilDue)
    (h : s.priorDefaultCount ≤ s'.priorDefaultCount) : assessBuyer s ≤ assessBuyer s' := by
  rw [assessBuyer_eq, assessBuyer_eq, hd]
  omega

/-- Riskier evidence never softens the decision. Only the first command has to pass the
schema. -/
theorem decision_le_of_riskier {c c' : AssessInvoiceRiskCommand} (hc : SchemaValid c)
    (h : RiskierEvidence c c') (now now' : Timestamp) :
    (assessInvoiceRisk c now).decision ≤ (assessInvoiceRisk c' now').decision := by
  have hdays : c.anomalySignals.daysUntilDue = c'.anomalySignals.daysUntilDue := by
    rw [h.same]
  refine decision_mono ?_ (assessBuyer_mono hdays h.defaults) (runAnomalyDetection_below
    (amountSignal_below hc.signals.1 h.average_pos' h.amount h.average)
    (termSignal_below hdays.ge h.amount) (defaultSignal_below h.defaults))
  -- A lower delivery can only fail the match.
  have hdelivery := h.delivery
  rw [runThreeWayMatch_passed_iff, runThreeWayMatch_passed_iff, h.same]
  intro ⟨hpo, hpos, hreceipt, hvariance, hcovers⟩
  dsimp only at hpo hpos hreceipt hvariance hcovers
  exact ⟨hpo, hpos, hreceipt, hvariance, by omega⟩

/-- The sample assessment with other signals. -/
def sampleSignals (priorDefaultCount daysUntilDue amountCents avgInvoiceAmountCents : Int) :
    AssessInvoiceRiskCommand :=
  { sampleAssessment 1000 with
      anomalySignals :=
        { (sampleAssessment 1000).anomalySignals with
            priorDefaultCount := priorDefaultCount
            daysUntilDue := daysUntilDue
            amountCents := amountCents
            avgInvoiceAmountCents := avgInvoiceAmountCents } }

/-- A spike of the amount, with two defaults. -/
theorem decision_le_of_spike :
    SchemaValid (sampleSignals 0 30 1000 1000) ∧
      RiskierEvidence (sampleSignals 0 30 1000 1000) (sampleSignals 2 30 5000 900) ∧
      (assessInvoiceRisk (sampleSignals 0 30 1000 1000) 0).decision ≤
        (assessInvoiceRisk (sampleSignals 2 30 5000 900) 0).decision := by
  have hc : SchemaValid (sampleSignals 0 30 1000 1000) :=
    ⟨sampleSignals 0 30 1000 1000, by decide +kernel⟩
  have h : RiskierEvidence (sampleSignals 0 30 1000 1000) (sampleSignals 2 30 5000 900) :=
    ⟨rfl, by decide, by decide, by decide, by decide, by decide, by decide⟩
  exact ⟨hc, h, decision_le_of_riskier hc h 0 0⟩

/-! ### The payment term -/

/-- Two numbers of days on the same side of each threshold of `scoreBuyerRisk`. -/
def SameRecency (days days' : Int) : Prop :=
  (30 < days ↔ 30 < days') ∧ (90 < days ↔ 90 < days') ∧ (180 < days ↔ 180 < days')

/-- Whether two numbers of days count alike can be decided. -/
instance (days days' : Int) : Decidable (SameRecency days days') :=
  inferInstanceAs (Decidable (_ ∧ _ ∧ _))

/-- The points depend on the side of 30, 90 and 180 days only. -/
theorem recencyPoints_eq_iff {days days' : Int} :
    recencyPoints days = recencyPoints days' ↔ SameRecency days days' := by
  unfold recencyPoints SameRecency
  constructor
  · intro h
    split_ifs at h <;> omega
  · intro h
    split_ifs <;> omega

/-- The components of the score stay below its bounds, so two terms get one score when they
get the same points. -/
theorem assessBuyer_eq_iff {s s' : AnomalySignals} (h : 0 ≤ s.priorDefaultCount)
    (hsame : s.priorDefaultCount = s'.priorDefaultCount) :
    assessBuyer s = assessBuyer s' ↔ SameRecency s.daysUntilDue s'.daysUntilDue := by
  have hpoints : ∀ days, 0 ≤ recencyPoints days ∧ recencyPoints days ≤ 30 := by
    intro days
    unfold recencyPoints
    split_ifs <;> omega
  have hp := hpoints s.daysUntilDue
  have hp' := hpoints s'.daysUntilDue
  rw [assessBuyer_eq, assessBuyer_eq, ← hsame, ← recencyPoints_eq_iff]
  omega

/-- A longer term leaves the buyer score as it is, and the decision as mild as it was,
exactly when it stays between the same thresholds of the buyer score. -/
theorem longer_term_iff {c c' : AssessInvoiceRiskCommand} (hc : SchemaValid c)
    (hsame : c' =
      { c with
          anomalySignals :=
            { c.anomalySignals with daysUntilDue := c'.anomalySignals.daysUntilDue } })
    (hd : c.anomalySignals.daysUntilDue ≤ c'.anomalySignals.daysUntilDue)
    (now now' : Timestamp) :
    (assessInvoiceRisk c' now').decision ≤ (assessInvoiceRisk c now).decision ∧
        (assessInvoiceRisk c' now').buyerRiskScore =
          (assessInvoiceRisk c now).buyerRiskScore ↔
      SameRecency c.anomalySignals.daysUntilDue c'.anomalySignals.daysUntilDue := by
  have hdefaults : c.anomalySignals.priorDefaultCount = c'.anomalySignals.priorDefaultCount := by
    rw [hsame]
  have hamount : c'.anomalySignals.amountCents = c.anomalySignals.amountCents := by
    rw [hsame]
  have hscore := assessBuyer_eq_iff hc.signals.2.2.2 hdefaults
  rw [(assessInvoiceRisk_layers c now).2.1, (assessInvoiceRisk_layers c' now').2.1,
    eq_comm (a := assessBuyer c'.anomalySignals), hscore]
  constructor
  · intro h
    exact h.2
  · intro h
    refine ⟨decision_mono ?_ (hscore.mpr h).ge (runAnomalyDetection_below ?_
      (termSignal_below hd hamount.le) (defaultSignal_below hdefaults.ge)), h⟩
    · -- The documents are the same.
      rw [hsame]
      exact id
    · rw [hsame]
      exact .refl _

/-- Two terms below the first threshold. -/
theorem longer_term_below_threshold :
    (assessInvoiceRisk (sampleSignals 2 29 1000 1000) 0).decision ≤
        (assessInvoiceRisk (sampleSignals 2 20 1000 1000) 0).decision ∧
      (assessInvoiceRisk (sampleSignals 2 29 1000 1000) 0).buyerRiskScore =
        (assessInvoiceRisk (sampleSignals 2 20 1000 1000) 0).buyerRiskScore :=
  (longer_term_iff ⟨sampleSignals 2 20 1000 1000, by decide +kernel⟩ rfl (by decide) 0 0).mpr
    (by decide)

/-- A buyer with two defaults: an invoice due in 20 days is approved, and the same invoice
due in 100 days goes to the manual review. -/
theorem longer_term_looks_riskier :
    SchemaValid (sampleSignals 2 20 1000 1000) ∧ SchemaValid (sampleSignals 2 100 1000 1000) ∧
      (assessInvoiceRisk (sampleSignals 2 20 1000 1000) 0).decision = .approve ∧
      (assessInvoiceRisk (sampleSignals 2 100 1000 1000) 0).decision = .manualReview ∧
      ¬ ((assessInvoiceRisk (sampleSignals 2 100 1000 1000) 0).decision ≤
          (assessInvoiceRisk (sampleSignals 2 20 1000 1000) 0).decision ∧
        (assessInvoiceRisk (sampleSignals 2 100 1000 1000) 0).buyerRiskScore =
          (assessInvoiceRisk (sampleSignals 2 20 1000 1000) 0).buyerRiskScore) :=
  ⟨⟨sampleSignals 2 20 1000 1000, by decide +kernel⟩,
    ⟨sampleSignals 2 100 1000 1000, by decide +kernel⟩,
    by decide +kernel, by decide +kernel, by decide +kernel⟩

/-! ### The second gate -/

/-- The result is a veto of the buyer score. -/
def VetoedByBuyer (result : RiskAssessmentResult) : Prop :=
  result.decision = .reject ∧ 75 ≤ result.buyerRiskScore ∧
    result.reasonCode = "BUYER_RISK_TOO_HIGH"

/-- The buyer score is 70 at most. -/
theorem assessBuyer_le (signals : AnomalySignals) : assessBuyer signals ≤ 70 := by
  rw [assessBuyer_eq]
  unfold recencyPoints
  split_ifs <;> omega

/-- No command is vetoed by the buyer score: the worst signals make 70 points. -/
theorem buyer_gate_dead (cmd : AssessInvoiceRiskCommand) (now : Timestamp) :
    (3 ≤ cmd.anomalySignals.priorDefaultCount → 180 < cmd.anomalySignals.daysUntilDue →
        (assessInvoiceRisk cmd now).buyerRiskScore = 70) ∧
      ¬ VetoedByBuyer (assessInvoiceRisk cmd now) := by
  have hbuyer := (assessInvoiceRisk_layers cmd now).2.1
  constructor
  · intro hdefaults hdays
    rw [hbuyer, assessBuyer_eq, recencyPoints, if_pos hdays]
    omega
  · intro ⟨_, hscore, _⟩
    have := assessBuyer_le cmd.anomalySignals
    omega

/-- Five defaults and 200 days, the input of the test for this gate. -/
theorem worst_buyer_not_vetoed :
    SchemaValid (sampleSignals 5 200 1000 1000) ∧
      (runThreeWayMatch (sampleSignals 5 200 1000 1000).threeWayMatchInput).passed = true ∧
      (assessInvoiceRisk (sampleSignals 5 200 1000 1000) 0).decision = .manualReview ∧
      ¬ VetoedByBuyer (assessInvoiceRisk (sampleSignals 5 200 1000 1000) 0) :=
  ⟨⟨sampleSignals 5 200 1000 1000, by decide +kernel⟩, by decide +kernel, by decide +kernel,
    fun h => absurd h.1 (by decide +kernel)⟩

end Vanguard
