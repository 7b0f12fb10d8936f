import Vanguard.Library.History
import Vanguard.Proofs.Accounts
import Mathlib.Tactic.FieldSimp
import Mathlib.Tactic.Linarith

/-!
# `Vanguard.Proofs.RiskGate`: the risk decision and the advance

Two laws about the risk engine and the money that depends on it:

* `RiskGated`: an advance is booked only for an invoice whose last assessment is an
  approval. `createVan` looks at the status of the invoice and not at its assessments.
  `riskGated_of_run` proves the law for the runs in which `createVan` is called on approved
  invoices, and `advance_without_assessment` is a run that breaks it;
* `Justified`: an approved invoice passes the hard gate on its stored amount and parties.
  The engine looks at the copies in the request. `approvalsJustified_of_run` proves the law
  for the runs in which the copies agree with the stored row, and `approval_of_other_amount`
  is a run that breaks it.

`runThreeWayMatch_passed_iff` is the specification of the hard gate.
-/

set_option autoImplicit false

namespace Vanguard

open ReadCommitted Database

/-! ### Advances -/

/-- The decision of an assessment event. -/
def InvoiceEvent.assessment? (e : InvoiceEvent) : Option RiskDecision :=
  [RiskDecision.approve, .reject, .manualReview].find? fun d => e.eventType == d.eventType

/-- The decision of the last assessment of an invoice. -/
def Database.latestAssessment (db : Database) (id : Uuid) : Option RiskDecision :=
  ((db.eventsOf id).filterMap InvoiceEvent.assessment?).getLast?

/-- A committed advance belongs to an account of an invoice whose last assessment before the
commit is an approval. -/
def RiskGated (t : Log) (rows : List RowVersion) : Prop :=
  ∀ e, .ledgerEntry e ∈ rows → e.entryType = .debit →
    ∃ v, (t.commit rows).now.van e.virtualAccountId = some v ∧
      (∃ text : UuidText, text.uuid = v.invoiceId ∧ e.idempotencyKey = advanceKey text) ∧
      t.now.latestAssessment v.invoiceId = some .approve

/-- The call passes the guards of `createVan` and the constraints of its statements. -/
structure BooksAdvance (db : Database) (cmd : CreateVanCommand) : Prop where
  requested : db.statusOf cmd.invoiceId = some .financingRequested
  noAccount : ∀ v ∈ db.virtualAccounts, v.invoiceId ≠ cmd.invoiceId
  positive : 0 < cmd.expectedAmountCents
  fresh : ∀ e ∈ db.ledgerEntries, e.idempotencyKey ≠ advanceKey cmd.invoiceText

/-- An advance is only asked for an invoice whose last assessment is an approval. -/
def ApprovedWhenAdvanced (c : Call) (db : Database) : Prop :=
  ∀ cmd, c = .createVan cmd → BooksAdvance db cmd →
    db.latestAssessment cmd.invoiceId = some .approve

/-- The steps of complete calls of which each satisfies `ApprovedWhenAdvanced` at its
start. -/
def ApprovedAdvanceStep (w : ServiceWorld) (a : Step) : Prop :=
  SerialStep w a ∧ ∀ c, a = .spawn c → ApprovedWhenAdvanced c w.db

/-- One commit of a call that nobody interferes with. -/
theorem Commit.riskGated {born seen t : Log} {c : Call} {rows : List RowVersion}
    (h : Commit Interference.alone born seen t c rows)
    (hc : ApprovedWhenAdvanced c born.now) : RiskGated t rows := by
  intro e he hdebit
  rcases h.entry_cases he with ⟨cmd, inv, van, start, rfl, rfl, hinvoice, hvan⟩ |
    ⟨cmd, van, v, start, -, rfl, -⟩
  · refine ⟨van, hvan, ⟨cmd.invoiceText, hinvoice.symm, rfl⟩, ?_⟩
    rw [hinvoice]
    -- Nobody interferes, so the guards have read the tables of the call's start.
    cases h with
    | created inv' van' start' hborn hseen hinv hstatus hinvoice' _ _ _ hpos hid hkeys hkey =>
        obtain rfl : born = seen := hborn
        obtain rfl : born = t := hseen
        refine hc cmd rfl ⟨?_, fun v hv => ?_, hpos, hkey⟩
        · rw [statusOf, hinv, Option.map_some, hstatus]
        · rw [← hinvoice']
          exact (hkeys v hv).2
  · -- The entry of a payment is a credit.
    cases hdebit

/-- Complete calls book advances on approved invoices only, when each advance is asked for
an approved invoice. -/
theorem riskGated_of_run {db : Database} {w : ServiceWorld}
    (h : Runs ApprovedAdvanceStep (.start db) w) : Timeline.Commits RiskGated w.timeline := by
  refine Runs.commit_induction (I := Interference.alone)
    (C := fun c born => ApprovedWhenAdvanced c born.now) (Or.inr fun _ _ ha => ha.1)
    (fun _ c ha => ha.2 c rfl) (Timeline.commits_start _ _) ?_ h
  intro w i env s _ _ _ hC hc ih
  exact Timeline.commits_commit ih (hc.riskGated hC)

/-- For each advance of the last commit, the last assessment of its invoice. -/
def lastAdvances (t : Log) : List (Option RiskDecision) :=
  match t with
  | .start _ => []
  | .commit u rows => rows.filterMap fun
    | .ledgerEntry e =>
      if e.entryType = .debit then
        some (((u.commit rows).now.van e.virtualAccountId).bind fun v =>
          u.now.latestAssessment v.invoiceId)
      else none
    | _ => none

/-- Where every commit is gated, each advance of the last one follows an approval. -/
theorem lastAdvances_approved {t : Log} (h : Timeline.Commits RiskGated t)
    {d : Option RiskDecision} (hd : d ∈ lastAdvances t) : d = some .approve := by
  cases t with
  | start db => cases hd
  | commit u rows =>
      obtain ⟨row, hrow, hrd⟩ := List.mem_filterMap.mp hd
      cases row with
      | ledgerEntry e =>
          dsimp only at hrd
          split at hrd
          · rename_i hdebit
            obtain ⟨v, hv, -, hassessed⟩ := h u rows (le_refl _) e hrow hdebit
            rw [hv, Option.bind_some, hassessed] at hrd
            exact (Option.some.inj hrd).symm
          · cases hrd
      | invoice r => cases hrd
      | virtualAccount v => cases hrd
      | invoiceEvent e => cases hrd

/-- A check that is enough for `ApprovedAdvanceStep`. -/
def approvedCheck (w : ServiceWorld) : Step → Bool
  | .spawn (.createVan cmd) => w.quiescent &&
    w.db.latestAssessment cmd.invoiceId == some .approve
  | .spawn _ => w.quiescent
  | .step _ _ => true

/-- A step that passes `approvedCheck` meets `ApprovedAdvanceStep`. -/
theorem approvedStep_of_check (w : ServiceWorld) (a : Step) (h : approvedCheck w a = true) :
    ApprovedAdvanceStep w a := by
  cases a with
  | step i env => exact ⟨fun _ hc => (nomatch hc), fun _ hc => nomatch hc⟩
  | spawn c =>
      cases c with
      | createVan cmd =>
          simp only [approvedCheck, Bool.and_eq_true, beq_iff_eq] at h
          refine ⟨fun _ _ => h.1, ?_⟩
          rintro c hc cmd' rfl -
          cases hc
          exact h.2
      | _ => exact ⟨fun _ _ => h, fun _ hc cmd he => by subst he; cases hc⟩

/-- An account for an approved invoice. -/
theorem riskGated_of_approved_invoice : ∃ w : ServiceWorld,
    Runs ApprovedAdvanceStep (.start sampleDb) w ∧
      lastAdvances w.timeline = [some .approve] ∧ Timeline.Commits RiskGated w.timeline := by
  have h : (play approvedCheck (.start sampleDb) (stepsToRequested ++
      .spawn (.assessAndRecord (sampleAssessment 1000) sampleId) :: steps 3 7 ++
      .spawn sampleCreateVan :: steps 4 12)).map (fun w => lastAdvances w.timeline) =
      some [some .approve] := by decide +kernel
  obtain ⟨w, hrun, hl⟩ := exists_run_of_play approvedStep_of_check h
  exact ⟨w, hrun, hl, riskGated_of_run hrun⟩

/-- Complete calls book an advance for an invoice that nobody has assessed: submit, approve,
request financing and create the account. -/
theorem advance_without_assessment : ∃ w : ServiceWorld,
    Runs SerialStep (.start sampleDb) w ∧ w.quiescent = true ∧
      ¬ Timeline.Commits RiskGated w.timeline := by
  have h : (play serialCheck (.start sampleDb) stepsToAccount).map
      (fun w => (w.quiescent, lastAdvances w.timeline)) = some (true, [none]) := by
    decide +kernel
  obtain ⟨w, hrun, hl⟩ := exists_run_of_play serialStep_of_check h
  simp only [Prod.mk.injEq] at hl
  refine ⟨w, hrun, hl.1, fun hgated => ?_⟩
  have hnone : none ∈ lastAdvances w.timeline := by
    rw [hl.2]
    exact List.mem_singleton_self _
  cases lastAdvances_approved hgated hnone

/-! ### The hard gate -/

/-- The variance test of the engine, in integers. -/
theorem variance_le_iff {invoice po : Int} (hpo : 0 < po) :
    ¬ maxVariancePct < (((invoice - po).natAbs : Int) : Rat) / (po : Rat) * 100 ↔
      |invoice - po| * 50 ≤ po := by
  have hpo' : (0 : Rat) < (po : Rat) := by exact_mod_cast hpo
  rw [not_lt, maxVariancePct, div_mul_eq_mul_div, div_le_iff₀ hpo', ← Int.abs_eq_natAbs]
  -- `|invoice - po| * 100 ≤ 2 * po`, on both sides.
  constructor
  · intro h
    have : (|invoice - po| * 100 : Int) ≤ 2 * po := by exact_mod_cast h
    omega
  · intro h
    have : (|invoice - po| * 100 : Int) ≤ 2 * po := by omega
    exact_mod_cast this

/-- The hard gate: a purchase order with a positive amount, a delivery receipt, at most two
percent variance, and a delivery that covers the invoice. -/
theorem runThreeWayMatch_passed_iff (input : ThreeWayMatchInput) :
    (runThreeWayMatch input).passed = true ↔
      input.poNumber ≠ "" ∧ 0 < input.poAmountCents ∧ input.deliveryReceiptId ≠ "" ∧
        |input.invoiceAmountCents - input.poAmountCents| * 50 ≤ input.poAmountCents ∧
        input.invoiceAmountCents ≤ input.deliveryAmountCents := by
  unfold runThreeWayMatch
  split
  · -- No purchase order, or one without a positive amount.
    rename_i hpo
    simp only [Bool.false_eq_true, false_iff]
    rintro ⟨hne, hpos, -⟩
    rcases hpo with h | h
    · exact hne h
    · omega
  · rename_i hpo
    rw [not_or, not_le] at hpo
    split
    · rename_i hreceipt
      simp [hreceipt]
    · rename_i hreceipt
      dsimp only
      split
      · rename_i hvar
        have hlt : ¬ |input.invoiceAmountCents - input.poAmountCents| * 50 ≤
            input.poAmountCents :=
          (variance_le_iff hpo.2).not.mp (not_not.mpr hvar)
        simp [hlt]
      · rename_i hvar
        rw [variance_le_iff hpo.2] at hvar
        split
        · rename_i hdel
          simp [not_le.mpr hdel]
        · rename_i hdel
          simp [hpo, hreceipt, hvar, not_lt.mp hdel]

/-- An approved command has passed the hard gate. -/
theorem passed_of_approve {cmd : AssessInvoiceRiskCommand} {now : Timestamp}
    (h : (assessInvoiceRisk cmd now).decision = .approve) :
    (runThreeWayMatch cmd.threeWayMatchInput).passed = true := by
  unfold assessInvoiceRisk at h
  dsimp only at h
  split at h
  · cases h
  · rename_i hp
    simpa using hp

/-- The approval is justified for the stored row: its amount passes the hard gate with the
documents of the request, and the anomaly signals were those of the row. -/
structure Justified (r : Invoice) (cmd : AssessInvoiceRiskCommand) : Prop where
  variance : |r.amountCents - cmd.threeWayMatchInput.poAmountCents| * 50 ≤
    cmd.threeWayMatchInput.poAmountCents
  delivery : r.amountCents ≤ cmd.threeWayMatchInput.deliveryAmountCents
  amount : cmd.anomalySignals.amountCents = r.amountCents
  supplier : cmd.anomalySignals.supplierId = r.supplierId
  buyer : cmd.anomalySignals.buyerId = r.buyerId

/-- The copies of the amount, of the supplier and of the buyer in the command are the columns
of the stored row. -/
structure CopiesAgree (r : Invoice) (cmd : AssessInvoiceRiskCommand) : Prop where
  invoiceAmount : cmd.threeWayMatchInput.invoiceAmountCents = r.amountCents
  amount : cmd.anomalySignals.amountCents = r.amountCents
  supplier : cmd.anomalySignals.supplierId = r.supplierId
  buyer : cmd.anomalySignals.buyerId = r.buyerId

/-- When the gate has seen the stored amount, an approval is justified exactly when the other
copies agree too: the gate itself has checked the documents. -/
theorem justified_iff {r : Invoice} {cmd : AssessInvoiceRiskCommand} {now : Timestamp}
    (h : (assessInvoiceRisk cmd now).decision = .approve)
    (hinvoice : cmd.threeWayMatchInput.invoiceAmountCents = r.amountCents) :
    Justified r cmd ↔ CopiesAgree r cmd := by
  constructor
  · intro hj
    exact ⟨hinvoice, hj.amount, hj.supplier, hj.buyer⟩
  · intro hcopies
    obtain ⟨-, -, -, hvariance, hdelivery⟩ :=
      (runThreeWayMatch_passed_iff _).mp (passed_of_approve h)
    rw [hinvoice] at hvariance hdelivery
    exact ⟨hvariance, hdelivery, hcopies.amount, hcopies.supplier, hcopies.buyer⟩

/-- Later versions of the row have the same amount and parties. -/
theorem Justified.evolves {r r' : Invoice} {cmd : AssessInvoiceRiskCommand}
    (h : Justified r cmd) (hr : r.Evolves r') : Justified r' cmd := by
  constructor
  · rw [hr.amountCents]
    exact h.variance
  · rw [hr.amountCents]
    exact h.delivery
  · exact h.amount.trans hr.amountCents.symm
  · exact h.supplier.trans hr.supplierId.symm
  · exact h.buyer.trans hr.buyerId.symm

/-- The types of the three assessments are different. -/
theorem RiskDecision.eventType_injective : Function.Injective RiskDecision.eventType := by
  intro d d' h
  cases d <;> cases d' <;> first | rfl | exact absurd h (by decide)

/-- An approval that an assessment commits: the engine has approved the command, and the
invoice is stored. -/
theorem Commit.approval {I : Interference Database RowVersion} {born seen t : Log}
    {cmd : AssessInvoiceRiskCommand} {actorId : Uuid} {rows : List RowVersion}
    (h : Commit I born seen t (.assessAndRecord cmd actorId) rows) {e : InvoiceEvent}
    (he : .invoiceEvent e ∈ rows) (happrove : e.eventType = RiskDecision.approve.eventType) :
    e.invoiceId = cmd.invoiceId ∧
      (∃ assessedAt, (assessInvoiceRisk cmd assessedAt).decision = .approve) ∧
      ∃ r, t.now.invoice cmd.invoiceId = some r := by
  -- Both commits of an assessment append one event, and neither looks at the stored amount.
  cases h with
  | assessed inv assessedAt now _ hseen hinv _ _ =>
      obtain rfl : e = assessmentEvent cmd actorId assessedAt now := by simpa using he
      exact ⟨rfl, ⟨assessedAt, RiskDecision.eventType_injective happrove⟩,
        invoice_of_le (I.le hseen) hinv⟩
  | rejected inv r assessedAt now _ _ _ _ _ hr =>
      obtain rfl : e = assessmentEvent cmd actorId assessedAt now := by simpa using he
      exact ⟨rfl, ⟨assessedAt, RiskDecision.eventType_injective happrove⟩, r, hr⟩

/-- The runs of the services in which every session remembers the rows that it has
committed. -/
abbrev AuditedRuns (ok : ServiceWorld → (Nat → List RowVersion) → Step → Prop) (db : Database) :
    ServiceWorld → (Nat → List RowVersion) → Prop :=
  HistoryRun postgres (fun c : Call => c.body.run) History.rows ok (World.start (.start db))

/-- Every approval that an assessment has committed is justified for the stored invoice of the
event. -/
def ApprovalsJustified (w : ServiceWorld) (rows : Nat → List RowVersion) : Prop :=
  ∀ (i : Nat) s cmd actorId e, w.sessions[i]? = some s → s.call = .assessAndRecord cmd actorId →
    .invoiceEvent e ∈ rows i → e.eventType = RiskDecision.approve.eventType →
    ∃ r, w.db.invoice e.invoiceId = some r ∧ Justified r cmd

/-- A step of an assessment that commits finds the copies of its command equal to the stored
row. -/
def AgreeingStep (w : ServiceWorld) (_ : Nat → List RowVersion) (a : Step) : Prop :=
  ∀ i env s cmd actorId r, a = .step i env → w.sessions[i]? = some s →
    s.call = .assessAndRecord cmd actorId → w.batch postgres i env ≠ [] →
    w.db.invoice cmd.invoiceId = some r → CopiesAgree r cmd

/-- A step keeps an approval justified, since no commit changes the amount or the parties. -/
theorem Justified.step {r : Invoice} {cmd : AssessInvoiceRiskCommand} (h : Justified r cmd)
    {db : Database} {w w' : ServiceWorld} {a : Step} (hw : Runs (fun _ _ => True) (.start db) w)
    (hstep : w.step postgres (fun c : Call => c.body.run) a = some w') {id : Uuid}
    (hr : w.db.invoice id = some r) : ∃ r', w'.db.invoice id = some r' ∧ Justified r' cmd := by
  have hev : Evolving w'.timeline :=
    Runs.evolving (I := Interference.concurrent) (Or.inl Interference.concurrent_shared)
      (Timeline.commits_start _ _) (hw.step _ trivial hstep)
  have hle : w.timeline ≤ w'.timeline := by
    rcases World.step_cases hstep with ⟨c, -, rfl⟩ | ⟨j, env, s, c, k, -, -, -, -, -, rfl⟩
    · exact le_refl _
    · exact Timeline.le_publish _ (le_refl _)
  obtain ⟨r', hr', hevolves⟩ := (hev.evolves hle).invoice id r hr
  exact ⟨r', hr', h.evolves hevolves⟩

/-- In every run of agreeing steps, every approval is justified. -/
theorem approvalsJustified_of_run {db : Database} {w : ServiceWorld}
    {rows : Nat → List RowVersion} (h : AuditedRuns AgreeingStep db w rows) :
    ApprovalsJustified w rows := by
  induction h with
  | refl =>
      intro i s _ _ _ hs
      simp [World.start] at hs
  | @step w w' rows a hrun hok hstep ih =>
      intro i s cmd actorId e hs hcall he happrove
      have hw := hrun.run
      rcases World.step_cases hstep with ⟨c, rfl, rfl⟩ |
        ⟨j, env, s₀, c, k, rfl, hj, hk, hb, -, rfl⟩
      · -- A new call has committed nothing.
        rcases getElem?_snoc_cases hs with hs | ⟨rfl, rfl⟩
        · exact ih i s cmd actorId e hs hcall he happrove
        · have hfresh : rows w.sessions.length = [] :=
            hrun.fresh (List.getElem?_eq_none_iff.mpr (le_refl _))
          rw [World.record, hfresh] at he
          cases he
      · by_cases hij : i = j
        · subst hij
          rw [List.getElem?_set_self (List.getElem?_eq_some_iff.mp hj).1] at hs
          obtain rfl := Option.some.inj hs
          rw [World.record_rows, List.mem_append] at he
          rcases he with he | he
          · obtain ⟨r, hr, hjust⟩ := ih i s₀ cmd actorId e hj hcall he happrove
            exact hjust.step hw hstep hr
          · -- The approval of this step: the engine has compared the stored amount.
            have hne := List.ne_nil_of_mem he
            have hc := Runs.commit_of_step (I := Interference.concurrent)
              (Or.inl Interference.concurrent_shared) hw hj hne
            rw [show s₀.call = .assessAndRecord cmd actorId from hcall] at hc
            obtain ⟨hid, ⟨assessedAt, hdecision⟩, r, hr⟩ := hc.approval he happrove
            rw [hid]
            have hcopies := hok i env s₀ cmd actorId r rfl hj hcall hne hr
            have hjust := (justified_iff hdecision hcopies.invoiceAmount).mpr hcopies
            exact hjust.step hw hstep hr
        · rw [List.getElem?_set_ne (Ne.symm hij)] at hs
          rw [World.record_ne hij] at he
          obtain ⟨r, hr, hjust⟩ := ih i s cmd actorId e hs hcall he happrove
          exact hjust.step hw hstep hr

/-- A check that is enough for `AgreeingStep`. -/
def agreeingCheck (w : ServiceWorld) (_ : Nat → List RowVersion) : Step → Bool
  | .spawn _ => true
  | .step i env =>
    match w.sessions[i]? with
    | some s =>
      match s.call with
      | .assessAndRecord cmd _ => (w.batch postgres i env).isEmpty ||
        (w.db.invoice cmd.invoiceId).all fun r =>
          cmd.threeWayMatchInput.invoiceAmountCents == r.amountCents &&
            cmd.anomalySignals.amountCents == r.amountCents &&
            cmd.anomalySignals.supplierId == r.supplierId &&
            cmd.anomalySignals.buyerId == r.buyerId
      | _ => true
    | none => true

/-- A step that passes `agreeingCheck` meets `AgreeingStep`. -/
theorem agreeingStep_of_check (w : ServiceWorld) (rows : Nat → List RowVersion) (a : Step)
    (h : agreeingCheck w rows a = true) : AgreeingStep w rows a := by
  rintro i env s cmd actorId r rfl hs hcall hne hr
  simp only [agreeingCheck, hs, hcall, hr, Option.all_some, Bool.or_eq_true, Bool.and_eq_true,
    beq_iff_eq, List.isEmpty_iff] at h
  obtain ⟨⟨⟨hinvoice, hamount⟩, hsupplier⟩, hbuyer⟩ := h.resolve_left hne
  exact ⟨hinvoice, hamount, hsupplier, hbuyer⟩

/-- The steps to an approval of the sample invoice over 1000 paise, with one amount in every
copy of the command. -/
def stepsToApproval (amountCents : Int) : List Step :=
  stepsToRequested ++ .spawn (.assessAndRecord (sampleAssessment amountCents) sampleId) ::
    steps 3 7

/-- What a run has of an assessment: its command, the types of its events, and the amount of
the stored sample invoice. -/
def assessmentFigures (w : ServiceWorld) (rows : Nat → List RowVersion) :
    Option Call × List (Uuid × String) × Option Int :=
  ((w.sessions[3]?).map (·.call),
    (rows 3).filterMap (fun
      | .invoiceEvent e => some (e.invoiceId, e.eventType)
      | _ => none),
    (w.db.invoice sampleId).map Invoice.amountCents)

/-- A list of steps that commits an approval of the sample invoice is such a run. -/
theorem exists_approval (amountCents : Int)
    (p : ServiceWorld → (Nat → List RowVersion) → Step → Bool)
    {ok : ServiceWorld → (Nat → List RowVersion) → Step → Prop}
    (hok : ∀ w rows a, p w rows a = true → ok w rows a)
    (h : (World.execRecorded postgres (fun c : Call => c.body.run) History.rows p
      (World.start (.start sampleDb)) (fun _ => []) (stepsToApproval amountCents)).map
        (fun r => assessmentFigures r.1 r.2) =
      some (some (.assessAndRecord (sampleAssessment amountCents) sampleId),
        [(sampleId, RiskDecision.approve.eventType)], some 1000)) :
    ∃ w rows, AuditedRuns ok sampleDb w rows ∧ ∃ s e r,
      w.sessions[3]? = some s ∧ s.call = .assessAndRecord (sampleAssessment amountCents) sampleId ∧
      .invoiceEvent e ∈ rows 3 ∧ e.eventType = RiskDecision.approve.eventType ∧
      w.db.invoice e.invoiceId = some r ∧ r.amountCents = 1000 := by
  obtain ⟨⟨w, rows⟩, hw, hl⟩ := Option.map_eq_some_iff.mp h
  simp only [assessmentFigures, Prod.mk.injEq, Option.map_eq_some_iff] at hl
  obtain ⟨⟨s, hs, hcall⟩, hevents, r, hr, hamount⟩ := hl
  have hmem : (sampleId, RiskDecision.approve.eventType) ∈ (rows 3).filterMap _ :=
    hevents ▸ List.mem_singleton_self _
  obtain ⟨row, hrow, he⟩ := List.mem_filterMap.mp hmem
  refine ⟨w, rows, HistoryRun.of_exec hok .refl hw, s, ?_⟩
  cases row with
  | invoiceEvent e =>
      simp only [Option.some.injEq, Prod.mk.injEq] at he
      exact ⟨e, r, hs, hcall, hrow, he.2, he.1 ▸ hr, hamount⟩
  | invoice r => cases he
  | virtualAccount v => cases he
  | ledgerEntry l => cases he

/-- The assessment with the stored amount in every copy approves the sample invoice, and the
approval is justified. -/
theorem approval_of_stored_amount : ∃ (w : ServiceWorld) (rows : Nat → List RowVersion),
    AuditedRuns AgreeingStep sampleDb w rows ∧ ApprovalsJustified w rows ∧
      ∃ e r, .invoiceEvent e ∈ rows 3 ∧ e.eventType = RiskDecision.approve.eventType ∧
        w.db.invoice e.invoiceId = some r ∧ Justified r (sampleAssessment 1000) := by
  obtain ⟨w, rows, hrun, s, e, r, hs, hcall, he, happrove, hr, -⟩ :=
    exists_approval 1000 agreeingCheck agreeingStep_of_check (by decide +kernel)
  have hjustified := approvalsJustified_of_run hrun
  obtain ⟨r', hr', hjust⟩ := hjustified 3 s _ _ e hs hcall he happrove
  exact ⟨w, rows, hrun, hjustified, e, r', he, happrove, hr', hjust⟩

/-- Documents and signals over one paisa get the sample invoice over 1000 paise approved. -/
theorem approval_of_other_amount : ∃ (w : ServiceWorld) (rows : Nat → List RowVersion),
    AuditedRuns (fun _ _ _ => True) sampleDb w rows ∧ ¬ ApprovalsJustified w rows := by
  obtain ⟨w, rows, hrun, s, e, r, hs, hcall, he, happrove, hr, hamount⟩ :=
    exists_approval 1 (fun _ _ _ => true) (fun _ _ _ _ => trivial) (by decide +kernel)
  refine ⟨w, rows, hrun, fun hjustified => ?_⟩
  obtain ⟨r', hr', hjust⟩ := hjustified 3 s _ _ e hs hcall he happrove
  obtain rfl : r = r' := Option.some.inj (hr.symm.trans hr')
  have hdelivery : r.amountCents ≤ 1 := hjust.delivery
  omega

end Vanguard
