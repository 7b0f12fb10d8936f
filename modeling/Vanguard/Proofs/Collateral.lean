import Vanguard.Proofs.Accounts

/-!
# `Vanguard.Proofs.Collateral`: everything rests on the buyer's approval

`Database.Collateral` says that whatever rests on an invoice (its later statuses, its
account, an assessment of it) has a signature of the buyer behind it, and that the event log
shows who has approved and who has asked for financing. `collateral_of_run` proves it for
every committed moment of the runs of the HTTP operations.

The guards of the calls are evaluated on stale reads, so the invariant `Signed` is about
signatures, which nothing erases, and not about the status, which a late write can move
back: what a call has seen to be signed is signed when the call commits.
-/

set_option autoImplicit false

namespace Vanguard

open ReadCommitted Database

/-! ### The property -/

/-- Something rests on the approval of the invoice: its status, an account, or an
assessment. -/
inductive Database.RestsOnApproval (db : Database) (id : Uuid) : Prop where
  | status (r : Invoice) (hr : db.invoice id = some r)
      (hs : r.status = .buyerApproved ∨ r.status = .financingRequested ∨ r.status = .repaid)
  | account (v : VirtualAccount) (hv : v ∈ db.virtualAccounts) (hi : v.invoiceId = id)
  | assessment (e : InvoiceEvent) (he : e ∈ db.invoiceEvents) (hi : e.invoiceId = id)
      (d : RiskDecision) (htype : e.eventType = d.eventType)

/-- The invoice carries a signature, and an event of its buyer has approved it with this
signature. -/
def Database.ApprovedByBuyer (db : Database) (r : Invoice) : Prop :=
  ∃ signature, r.buyerSignature = some signature ∧ 10 ≤ jsLength signature ∧
    ∃ e ∈ db.invoiceEvents, e.invoiceId = r.id ∧ e.eventType = "invoice.buyer_approved" ∧
      e.actorId = some r.buyerId ∧
      ∃ approvedAt, e.payload = .buyerApproved r.buyerId signature approvedAt

/-- The supplier of the invoice has made the request. -/
def Database.RequestedBySupplier (db : Database) (e : InvoiceEvent) : Prop :=
  ∃ r, db.invoice e.invoiceId = some r ∧ e.actorId = some r.supplierId

/-- Buyer approval is the collateral. -/
structure Database.Collateral (db : Database) : Prop where
  approved : ∀ id, db.RestsOnApproval id →
    ∃ r, db.invoice id = some r ∧ db.ApprovedByBuyer r ∧ r.buyerId ≠ r.supplierId
  requested : ∀ e ∈ db.invoiceEvents, e.eventType = "invoice.financing_requested" →
    db.RequestedBySupplier e

/-! ### The invariant -/

/-- The invariant: every signature comes from an approval, and what rests on an approval
has a signature. -/
structure Database.Signed (db : Database) : Prop where
  signature : ∀ id r, db.invoice id = some r → r.buyerSignature ≠ none → db.ApprovedByBuyer r
  parties : ∀ id r, db.invoice id = some r → r.buyerId ≠ r.supplierId
  backed : ∀ id, db.RestsOnApproval id → ∃ r, db.invoice id = some r ∧ r.buyerSignature ≠ none
  requested : ∀ e ∈ db.invoiceEvents, e.eventType = "invoice.financing_requested" →
    db.RequestedBySupplier e

/-- Signed approvals are the collateral of what comes after them. -/
theorem Database.Signed.collateral {db : Database} (h : db.Signed) : db.Collateral where
  approved id hb := by
    obtain ⟨r, hr, hsig⟩ := h.backed id hb
    exact ⟨r, hr, h.signature id r hr hsig, h.parties id r hr⟩
  requested := h.requested

/-- A database without invoices is signed. -/
theorem Database.Initial.signed {db : Database} (h : db.Initial) : db.Signed where
  signature id r hr := by
    rw [h.invoice] at hr
    cases hr
  parties id r hr := by
    rw [h.invoice] at hr
    cases hr
  backed id hb := by
    cases hb with
    | status r hr =>
        rw [h.invoice] at hr
        cases hr
    | account v hv =>
        rw [mem_virtualAccounts, h.van] at hv
        cases hv
    | assessment e he =>
        rw [h.events] at he
        cases he
  requested e he := by
    rw [h.events] at he
    cases he

/-! ### What an evolution keeps -/

/-- A buyer's approval stays one while the signature stays. -/
theorem Database.ApprovedByBuyer.evolves {db db' : Database} {r r' : Invoice}
    (h : db.ApprovedByBuyer r) (hdb : db.Evolves db') (hr : r.Evolves r')
    (hsig : r.buyerSignature = r'.buyerSignature) : db'.ApprovedByBuyer r' := by
  obtain ⟨signature, hs, hlen, e, he, hid, htype, hactor, approvedAt, hpayload⟩ := h
  refine ⟨signature, hsig ▸ hs, hlen, e, hdb.events.subset he, ?_, htype, ?_, approvedAt, ?_⟩
  · rw [hid, hr.id]
  · rw [hactor, hr.buyerId]
  · rw [hpayload, hr.buyerId]

/-- A supplier's request stays one. -/
theorem Database.RequestedBySupplier.evolves {db db' : Database} {e : InvoiceEvent}
    (h : db.RequestedBySupplier e) (hdb : db.Evolves db') : db'.RequestedBySupplier e := by
  obtain ⟨r, hr, hactor⟩ := h
  obtain ⟨r', hr', hev⟩ := hdb.invoice _ r hr
  exact ⟨r', hr', by rw [hactor, hev.supplierId]⟩

/-- What rests on an approval keeps its signature. -/
theorem Database.Signed.backed_later {db db' : Database} (h : db.Signed) (hdb : db.Evolves db')
    {id : Uuid} (hb : db.RestsOnApproval id) :
    ∃ r, db'.invoice id = some r ∧ r.buyerSignature ≠ none := by
  obtain ⟨r, hr, hsig⟩ := h.backed id hb
  obtain ⟨r', hr', hev⟩ := hdb.invoice id r hr
  exact ⟨r', hr', hev.signature hsig⟩

/-! ### What a commit can change -/

/-- The signature of an invoice after a commit was there before, or an approval has written
it together with its event. -/
theorem Commit.signature_origin {I : Interference Database RowVersion} {born seen t : Log}
    {c : Call} {rows : List RowVersion} (h : Commit I born seen t c rows) {id : Uuid}
    {r : Invoice} (hr : (t.commit rows).now.invoice id = some r) (hsig : r.buyerSignature ≠ none) :
    (∃ r₀, t.now.invoice id = some r₀ ∧ r₀.buyerSignature = r.buyerSignature) ∨
    (∃ cmd actorId inv approvedAt now, c = .approveInvoice cmd actorId ∧ cmd.invoiceId = id ∧
      seen.now.invoice id = some inv ∧ inv.buyerId = cmd.buyerId ∧
      r.buyerSignature = some cmd.buyerSignature ∧ 10 ≤ jsLength cmd.buyerSignature ∧
      approvedEvent cmd actorId approvedAt now ∈ (t.commit rows).now.invoiceEvents) := by
  cases h.invoice_change id with
  | kept hsame _ => exact Or.inl ⟨r, hsame ▸ hr, rfl⟩
  | draft cmd actorId env _ _ _ hdraft =>
      rw [hdraft] at hr
      cases hr
      exact absurd rfl hsig
  | rewritten r₀ r' hr₀ hr' hw =>
      obtain rfl : r = r' := Option.some.inj (hr.symm.trans hr')
      have hid : r₀.id = id := invoice_id hr₀
      cases hw with
      | @approved cmd actorId _ inv approvedAt now _ hinv hbuyer _ hlen hcmd hevent =>
          exact Or.inr ⟨cmd, actorId, inv, approvedAt, now, rfl, hcmd.symm.trans hid, hid ▸ hinv,
            hbuyer, rfl, hlen, mem_invoiceEvents_commit hevent⟩
      | submitted | requested | rejected | repaid => exact Or.inl ⟨r₀, hr₀, rfl⟩

/-- What rests on an approval after a commit rested on it before, or the call has seen that
something rests on it, or the call is its approval. -/
theorem Commit.rests_origin {I : Interference Database RowVersion} {born seen t : Log}
    {c : Call} {rows : List RowVersion} (h : Commit I born seen t c rows) {id : Uuid}
    (hb : (t.commit rows).now.RestsOnApproval id) :
    t.now.RestsOnApproval id ∨ seen.now.RestsOnApproval id ∨
      ∃ r, (t.commit rows).now.invoice id = some r ∧ r.buyerSignature ≠ none := by
  cases hb with
  | account v hv hi =>
      rcases h.van_origin (mem_virtualAccounts.mp hv) with ⟨v₀, hv₀, hev⟩ |
        ⟨cmd, inv, -, hinv, hs, hid, -⟩
      · exact Or.inl (.account v₀ (mem_virtualAccounts.mpr (van_id hv₀ ▸ hv₀))
          (hev.invoiceId ▸ hi))
      · exact Or.inr (Or.inl (.status inv (hi ▸ hid ▸ hinv) (Or.inr (Or.inl hs))))
  | assessment e he hi d htype =>
      rcases h.event_origin he with he | happ
      · exact Or.inl (.assessment e he hi d htype)
      · obtain ⟨inv, hinv, hs⟩ := happ.of_assessment htype
        exact Or.inr (Or.inl (.status inv (hi ▸ hinv) (Or.inr (Or.inl hs))))
  | status r hr hs =>
      cases h.invoice_change id with
      | kept hsame _ => exact Or.inl (.status r (hsame ▸ hr) hs)
      | draft cmd actorId env _ _ _ hdraft =>
          rw [hdraft] at hr
          cases hr
          simp [SubmitInvoiceCommand.draft] at hs
      | rewritten r₀ r' hr₀ hr' hw =>
          obtain rfl : r = r' := Option.some.inj (hr.symm.trans hr')
          have hid : r₀.id = id := invoice_id hr₀
          cases hw with
          | submitted => simp at hs
          | approved => exact Or.inr (Or.inr ⟨_, hr, by simp [Invoice.setStatus, Invoice.sign]⟩)
          | requested inv now _ hinv hstatus =>
              -- Only `BUYER_APPROVED` leads to `FINANCING_REQUESTED`.
              refine Or.inr (Or.inl (.status inv (hid ▸ hinv) (Or.inl ?_)))
              revert hstatus
              cases inv.status <;> decide
          | rejected => simp at hs
          | repaid van v now hpaying _ hvan =>
              exact Or.inr (Or.inl (.account van
                (mem_virtualAccounts.mpr (vanByNumber_some hpaying.hvan).1) (hvan.symm.trans hid)))

/-! ### Runs -/

/-- The actor of a routed approval is the buyer of the command. -/
theorem Call.Routed.buyerId {cmd : ApproveInvoiceCommand} {actorId : Uuid}
    (h : (Call.approveInvoice cmd actorId).Routed) : cmd.buyerId = actorId := by
  obtain ⟨r, hr⟩ := h
  cases r <;> simp [Request.call] at hr
  obtain ⟨-, -, rfl, rfl⟩ := hr
  rfl

/-- The actor of a routed request for financing is the supplier of the command. -/
theorem Call.Routed.supplierId {cmd : RequestFinancingCommand} {actorId : Uuid}
    (h : (Call.requestFinancing cmd actorId).Routed) : cmd.supplierId = actorId := by
  obtain ⟨r, hr⟩ := h
  cases r <;> simp [Request.call] at hr
  obtain ⟨rfl, rfl⟩ := hr
  rfl

/-- A commit of a routed call keeps the invariant. -/
theorem Database.Signed.commit {I : Interference Database RowVersion} {born seen t : Log}
    {c : Call} {rows : List RowVersion} (hc : Commit I born seen t c rows) (hroute : c.Routed)
    (hev : seen.now.Evolves t.now) (hseen : seen.now.Signed) (h : t.now.Signed) :
    (t.commit rows).now.Signed where
  signature id r hr hsig := by
    rcases hc.signature_origin hr hsig with ⟨r₀, hr₀, hkept⟩ |
      ⟨cmd, actorId, inv, approvedAt, now, rfl, hid, hinv, hbuyer, hs, hlen, he⟩
    · -- An old signature keeps its event.
      obtain ⟨r', hr', hrev⟩ := hc.evolves.invoice id r₀ hr₀
      obtain rfl : r = r' := Option.some.inj (hr.symm.trans hr')
      exact (h.signature id r₀ hr₀ (hkept ▸ hsig)).evolves hc.evolves hrev hkept
    · -- A new signature: the buyer of the command is the one that the call has read.
      obtain ⟨r', hr', hrev⟩ := (hev.trans hc.evolves).invoice id inv hinv
      obtain rfl : r = r' := Option.some.inj (hr.symm.trans hr')
      have hbuyer' : r.buyerId = cmd.buyerId := hrev.buyerId.trans hbuyer
      refine ⟨cmd.buyerSignature, hs, hlen, _, he, ?_, rfl, ?_, approvedAt, ?_⟩
      · exact hid.trans (invoice_id hr).symm
      · rw [hbuyer', hroute.buyerId]
        rfl
      · rw [hbuyer']
        rfl
  parties id r hr := by
    rcases hc.invoice_origin hr with ⟨r₀, hr₀, hrev⟩ | ⟨cmd, actorId, env, -, hparties, rfl⟩
    · rw [hrev.buyerId, hrev.supplierId]
      exact h.parties id r₀ hr₀
    · exact hparties
  backed id hb := by
    -- The call may rest on a stale read: what it has seen signed is still signed.
    rcases hc.rests_origin hb with hb | hb | hsigned
    · exact h.backed_later hc.evolves hb
    · exact hseen.backed_later (hev.trans hc.evolves) hb
    · exact hsigned
  requested e he htype := by
    rcases hc.event_origin he with he | happ
    · exact (h.requested e he htype).evolves hc.evolves
    · obtain ⟨cmd, actorId, inv, rfl, hactor, hinv, hsupplier⟩ :=
        happ.of_financing_requested htype
      obtain ⟨r, hr, hrev⟩ := (hev.trans hc.evolves).invoice _ inv hinv
      refine ⟨r, hr, ?_⟩
      rw [hactor, hrev.supplierId, hsupplier, hroute.supplierId]

/-- Buyer approval is the collateral in every committed moment of the HTTP operations. -/
theorem collateral_of_run {db : Database} (hdb : db.Initial) {w : ServiceWorld}
    (h : Runs RoutedStep (.start db) w) : ∀ u ≤ w.timeline, u.now.Collateral := by
  have hsigned : ∀ u ≤ w.timeline, u.now.Signed := by
    refine Runs.invariant (C := fun c _ => c.Routed)
      (Or.inl Interference.concurrent_shared) (fun _ c ha => ha c rfl)
      (Timeline.commits_start _ _) (fun u hu => ?_) ?_ h
    · rw [Timeline.le_start_iff.mp hu]
      exact hdb.signed
    · intro c born seen t rows hroute hc hev ih
      exact Signed.commit hc hroute (hev.evolves hc.seen_le) (ih seen hc.seen_le)
        (ih t (le_refl t))
  exact fun u hu => (hsigned u hu).collateral

/-- The whole life of the sample invoice. -/
theorem collateral_of_repaid_invoice : ∃ w : ServiceWorld,
    Runs RoutedStep (.start sampleDb) w ∧ w.db.statusOf sampleId = some .repaid ∧
      ∀ u ≤ w.timeline, u.now.Collateral := by
  have h : (play (routedCheck (sampleRequests 1000 "k1")) (.start sampleDb) (stepsToRequested ++
      .spawn (.assessAndRecord (sampleAssessment 1000) sampleId) :: steps 3 7 ++
      .spawn sampleCreateVan :: steps 4 12 ++
      .spawn (.recordPayment (samplePayment 1000 "k1")) :: steps 5 17)).map
      (fun w => w.db.statusOf sampleId) = some (some .repaid) := by decide +kernel
  obtain ⟨w, hrun, hstatus⟩ := exists_run_of_play routedStep_of_check h
  exact ⟨w, hrun, hstatus, collateral_of_run initial_sampleDb hrun⟩

end Vanguard
