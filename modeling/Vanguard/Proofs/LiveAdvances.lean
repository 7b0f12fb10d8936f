import Vanguard.Proofs.Accounts
import Vanguard.Proofs.StateMachine

/-!
# `Vanguard.Proofs.LiveAdvances`: an account belongs to a live invoice

`createVan` books the advance and leaves the invoice in `FINANCING_REQUESTED`, the status in
which `assessAndRecord` may still cancel it. Two laws say that an advance outlives no invoice:

* `AdvancesLive`: the invoice of every account is requested, funded, repaid or defaulted;
* `CreditsLive`: no payment is credited for a cancelled invoice.

`advancesLive_of_run` proves both for the runs of complete calls in which no assessment that
decides to reject is called on an invoice with an account. `advance_of_cancelled_invoice` is a
run with such a call.
-/

set_option autoImplicit false

namespace Vanguard

open ReadCommitted Database

/-! ### The laws -/

/-- The statuses of an invoice whose advance has been booked. -/
def InvoiceStatus.isLive (status : InvoiceStatus) : Bool :=
  status ∈ [financingRequested, funded, repaid, defaulted]

/-- Every account belongs to a live invoice. -/
def Database.AdvancesLive (db : Database) : Prop :=
  ∀ v ∈ db.virtualAccounts, ∃ r, db.invoice v.invoiceId = some r ∧ r.status.isLive = true

/-- A committed credit belongs to an account whose invoice is not cancelled. -/
def CreditsLive (t : Log) (rows : List RowVersion) : Prop :=
  ∀ e, .ledgerEntry e ∈ rows → e.entryType = .credit → ∃ v r,
    t.now.van e.virtualAccountId = some v ∧ t.now.invoice v.invoiceId = some r ∧
    r.status ≠ .cancelled

/-- The call is no assessment that would reject an invoice with an account. -/
def SparesAdvances (c : Call) (db : Database) : Prop :=
  ∀ cmd actorId now, c = .assessAndRecord cmd actorId →
    db.statusOf cmd.invoiceId = some .financingRequested →
    (∃ v ∈ db.virtualAccounts, v.invoiceId = cmd.invoiceId) →
    (assessInvoiceRisk cmd now).decision ≠ .reject

/-- The steps of complete calls of which each satisfies `SparesAdvances` at its start. -/
def SparingStep (w : ServiceWorld) (a : Step) : Prop :=
  SerialStep w a ∧ ∀ c, a = .spawn c → SparesAdvances c w.db

/-! ### One commit -/

/-- An assessment that rewrites an invoice has rejected it. -/
theorem Commit.rejects {I : Interference Database RowVersion} {born seen t : Log}
    {cmd : AssessInvoiceRiskCommand} {actorId : Uuid} {rows : List RowVersion}
    (h : Commit I born seen t (.assessAndRecord cmd actorId) rows) {id : Uuid}
    (hne : (t.commit rows).now.invoice id ≠ t.now.invoice id) :
    I.rel [] born t ∧ id = cmd.invoiceId ∧
      ∃ now, (assessInvoiceRisk cmd now).decision = .reject := by
  cases h with
  | assessed => exact absurd rfl hne
  | rejected inv r assessedAt now hborn hseen _ _ hdecision hrow =>
      refine ⟨I.trans hborn hseen, ?_, assessedAt, hdecision⟩
      by_contra hid
      have hrid : r.id ≠ id := fun h => hid (h.symm.trans (invoice_id hrow))
      simp [hrid] at hne

/-- An edge of the table from a live status leads to a live status or to `CANCELLED`. -/
theorem InvoiceStatus.isLive_of_edge {status next : InvoiceStatus} (h : status.isLive = true)
    (hedge : next ∈ validTransitions status) : next.isLive = true ∨ next = .cancelled := by
  cases status with
  | financingRequested | funded =>
      simp only [validTransitions, List.mem_cons, List.not_mem_nil, or_false] at hedge
      rcases hedge with rfl | rfl <;> simp [isLive]
  | repaid | defaulted => cases hedge
  | draft | submitted | buyerApproved | cancelled => cases h

/-- A commit of a call that nobody interferes with keeps a live invoice with an account
live. -/
theorem Commit.live {born seen t : Log} {c : Call} {rows : List RowVersion}
    (h : Commit Interference.alone born seen t c rows) (hc : SparesAdvances c born.now)
    {v : VirtualAccount} (hv : v ∈ t.now.virtualAccounts) {r : Invoice}
    (hr : t.now.invoice v.invoiceId = some r) (hlive : r.status.isLive = true) :
    ∃ r', (t.commit rows).now.invoice v.invoiceId = some r' ∧ r'.status.isLive = true := by
  cases h.invoice_change v.invoiceId with
  | kept hsame _ => exact ⟨r, hsame ▸ hr, hlive⟩
  | draft _ _ _ _ _ hnone =>
      rw [hr] at hnone
      cases hnone
  | rewritten x r' hx hr' hw =>
      obtain rfl : r = x := Option.some.inj (hr.symm.trans hx)
      refine ⟨r', hr', ?_⟩
      have hid : r.id = v.invoiceId := invoice_id hr
      have hedge := fun hguard => hw.edge_of_alone hguard (hid ▸ hr)
      cases hw with
      | requested | repaid => rfl
      | submitted env u now hbefore henv =>
          rw [draft_of_alone hbefore henv (hid ▸ hr)] at hlive
          cases hlive
      | approved =>
          rcases InvoiceStatus.isLive_of_edge hlive (hedge rfl).2 with hnext | hnext
          · cases hnext
          · cases hnext
      | @rejected cmd actorId _ inv now _ hinv hstatus =>
          -- The call has been started on this very account.
          obtain ⟨rfl, -⟩ := hedge rfl
          rw [hid, hr] at hinv
          obtain rfl := Option.some.inj hinv
          have hne : (seen.commit rows).now.invoice v.invoiceId ≠ seen.now.invoice v.invoiceId := by
            intro heq
            rw [hr', hr] at heq
            have hcancelled := congrArg Invoice.status (Option.some.inj heq)
            rw [hstatus] at hcancelled
            cases hcancelled
          obtain ⟨hborn, hcmd, now', hdecision⟩ := h.rejects hne
          obtain rfl : born = seen := hborn
          have hrequested : born.now.statusOf cmd.invoiceId = some .financingRequested := by
            rw [← hcmd, statusOf, hr, Option.map_some, hstatus]
          exact absurd hdecision (hc cmd actorId now' rfl hrequested ⟨v, hv, hcmd⟩)

/-- A sparing commit keeps the advances live. -/
theorem Database.AdvancesLive.commit {born seen t : Log} {c : Call} {rows : List RowVersion}
    (h : t.now.AdvancesLive) (hc : Commit Interference.alone born seen t c rows)
    (hspares : SparesAdvances c born.now) : (t.commit rows).now.AdvancesLive := by
  intro v hv
  rcases hc.van_origin (mem_virtualAccounts.mp hv) with ⟨v₀, hv₀, hev⟩ |
    ⟨cmd, inv, rfl, hinv, hstatus, hinvoice, -⟩
  · have hmem : v₀ ∈ t.now.virtualAccounts := mem_virtualAccounts.mpr (van_id hv₀ ▸ hv₀)
    obtain ⟨r, hr, hlive⟩ := h v₀ hmem
    rw [hev.invoiceId]
    exact hc.live hspares hmem hr hlive
  · -- A new account: its invoice is the one that the call has read.
    obtain rfl : seen = t := (hc.rel fun _ _ => by simp).2
    rw [hinvoice]
    cases hc with
    | created => exact ⟨inv, hinv, by rw [hstatus]; rfl⟩

/-- No advance outlives its invoice in the runs of complete calls without a rejection of an
invoice that has an account. -/
theorem advancesLive_of_run {db : Database} (hdb : db.Initial) {w : ServiceWorld}
    (h : Runs SparingStep (.start db) w) :
    (∀ u ≤ w.timeline, u.now.AdvancesLive) ∧ Timeline.Commits CreditsLive w.timeline := by
  have hfit : Fits (Interference.alone (D := Database)) SparingStep :=
    Or.inr fun _ _ ha => ha.1
  have hlive : ∀ w : ServiceWorld, Runs SparingStep (.start db) w →
      ∀ u ≤ w.timeline, u.now.AdvancesLive := by
    intro w h
    refine Runs.invariant (C := fun c born => SparesAdvances c born.now) hfit
      (fun _ c ha => ha.2 c rfl) (Timeline.commits_start _ _) (fun u hu => ?_) ?_ h
    · rw [Timeline.le_start_iff.mp hu]
      intro v hv
      have hv := mem_virtualAccounts.mp hv
      rw [Timeline.now_start, hdb.van] at hv
      cases hv
    · intro c born seen t rows hspares hc _ ih
      exact (ih t (le_refl t)).commit hc hspares
  refine ⟨hlive w h, ?_⟩
  refine Runs.commit_induction (C := fun _ _ => True) hfit (fun _ _ _ => trivial)
    (Timeline.commits_start _ _) ?_ h
  intro w i env s hw _ _ _ hc ih
  refine Timeline.commits_commit ih fun e he hcredit => ?_
  rcases hc.entry_cases he with ⟨_, _, _, _, -, rfl, -⟩ | ⟨cmd, van, v, start, -, rfl, hpaying⟩
  · -- The advance is a debit.
    cases hcredit
  · -- The account that the payment has locked is there, and its invoice is live.
    have hv := hpaying.hrow
    obtain ⟨r, hr, hlive'⟩ := hlive w hw _ (le_refl _) v
      (mem_virtualAccounts.mpr (van_id hv ▸ hv))
    refine ⟨v, r, hv, hr, fun hs => ?_⟩
    rw [hs] at hlive'
    cases hlive'

/-- The check of `SparingStep`. -/
def sparingCheck (w : ServiceWorld) : Step → Bool
  | .spawn (.assessAndRecord cmd _) => w.quiescent &&
    ((assessInvoiceRisk cmd 0).decision != .reject ||
      w.db.virtualAccounts.rows.all fun v => v.invoiceId != cmd.invoiceId)
  | .spawn _ => w.quiescent
  | .step _ _ => true

/-- The time of an assessment does not change its decision. -/
theorem decision_eq (cmd : AssessInvoiceRiskCommand) (now now' : Timestamp) :
    (assessInvoiceRisk cmd now).decision = (assessInvoiceRisk cmd now').decision := by
  simp only [assessInvoiceRisk]
  split
  · rfl
  · split
    · rfl
    · split
      · rfl
      · split <;> rfl

/-- A step that passes `sparingCheck` meets `SparingStep`. -/
theorem sparingStep_of_check (w : ServiceWorld) (a : Step) (h : sparingCheck w a = true) :
    SparingStep w a := by
  cases a with
  | step i env => exact ⟨fun _ hc => (nomatch hc), fun _ hc => nomatch hc⟩
  | spawn c =>
      cases c with
      | assessAndRecord cmd actorId =>
          simp only [sparingCheck, Bool.and_eq_true, Bool.or_eq_true, bne_iff_ne,
            List.all_eq_true] at h
          refine ⟨fun _ _ => h.1, ?_⟩
          rintro c hc cmd' actorId' now rfl hstatus ⟨v, hv, hinvoice⟩
          cases hc
          rcases h.2 with hne | hall
          · rw [decision_eq cmd now 0]
            exact hne
          · exact absurd hinvoice (hall v hv)
      | _ => exact ⟨fun _ _ => h, fun _ hc cmd _ _ he => by subst he; cases hc⟩

/-- An approved assessment after the advance, and a payment of it. -/
theorem advancesLive_of_settled_invoice : ∃ w : ServiceWorld,
    Runs SparingStep (.start sampleDb) w ∧ w.quiescent = true ∧
      w.db.statusOf sampleId = some .repaid ∧
      (∀ u ≤ w.timeline, u.now.AdvancesLive) ∧ Timeline.Commits CreditsLive w.timeline := by
  have h : (play sparingCheck (.start sampleDb) (stepsToAccount ++
      .spawn (.assessAndRecord (sampleAssessment 1000) sampleId) :: steps 4 7 ++
      .spawn (.recordPayment (samplePayment 1000 "k")) :: steps 5 17)).map
      (fun w => (w.quiescent, w.db.statusOf sampleId)) = some (true, some .repaid) := by
    decide +kernel
  obtain ⟨w, hrun, hl⟩ := exists_run_of_play sparingStep_of_check h
  simp only [Prod.mk.injEq] at hl
  exact ⟨w, hrun, hl.1, hl.2, advancesLive_of_run initial_sampleDb hrun⟩

/-- An assessment rejects the invoice after its advance is booked. A payment of a part of the
advance is credited for the cancelled invoice. -/
theorem advance_of_cancelled_invoice : ∃ w : ServiceWorld,
    Runs SerialStep (.start sampleDb) w ∧ w.quiescent = true ∧
      w.db.statusOf sampleId = some .cancelled ∧
      w.db.ledgerEntries.map LedgerEntry.amountCents = [1000, 400] ∧
      ¬ w.db.AdvancesLive := by
  have h : (play serialCheck (.start sampleDb) (stepsToAccount ++
      .spawn (.assessAndRecord sampleRejection sampleId) :: steps 4 8 ++
      .spawn (.recordPayment (samplePayment 400 "k")) :: steps 5 10)).map
      (fun w => (w.quiescent, w.db.statusOf sampleId,
        w.db.ledgerEntries.map LedgerEntry.amountCents,
        w.db.virtualAccounts.rows.map fun v => w.db.statusOf v.invoiceId)) =
      some (true, some .cancelled, [1000, 400], [some .cancelled]) := by
    decide +kernel
  obtain ⟨w, hrun, hl⟩ := exists_run_of_play serialStep_of_check h
  simp only [Prod.mk.injEq] at hl
  refine ⟨w, hrun, hl.1, hl.2.1, hl.2.2.1, fun hlive => ?_⟩
  obtain ⟨v, hrows, hstatus⟩ := List.map_eq_singleton_iff.mp hl.2.2.2
  have hmem : v ∈ w.db.virtualAccounts := by
    show v ∈ w.db.virtualAccounts.rows
    rw [hrows]
    exact List.mem_singleton_self v
  obtain ⟨r, hr, hs⟩ := hlive v hmem
  rw [statusOf, hr, Option.map_some, Option.some.injEq] at hstatus
  rw [hstatus] at hs
  cases hs

end Vanguard
