import Vanguard.Proofs.Collateral
import Vanguard.Proofs.Constraints

/-!
# `Vanguard.Proofs.AuditTrail`: every event tells the truth about the rows

`InvoiceEvent.Truthful db e`: the actor and the payload of the event `e` agree with the rows of
`db`. The actor of a submission and of a request for financing is the supplier, and the one of
an approval the buyer. A risk assessment has the invoice's own id as its actor, which its route
passes on from the body, and a new account and a settlement have none. A payload carries the
columns of the invoice or of the account. Every event but the first one is about a signed
invoice, and a settlement is about a settled account that carries the credit of the payment.

The events are written from rows that a call has read before its transaction, so the proof is
not about the row at the commit but about what no commit undoes (`Database.Extends`): the row
that was read and the row at the commit have these columns in common.

`Runs.audit` is the invariant. `audit_of_run` is the result for every committed moment, and for
every later one, since events are only appended.
-/

set_option autoImplicit false

namespace Vanguard

open ReadCommitted Database

/-! ### The property -/

/-- The type of the event that carries a payload. -/
def EventPayload.eventType : EventPayload → String
  | submitted .. => "invoice.submitted"
  | buyerApproved .. => "invoice.buyer_approved"
  | financingRequested .. => "invoice.financing_requested"
  | assessment decision .. => decision.eventType
  | vanCreated .. => "van.created"
  | repaid .. => "invoice.repaid"

/-- The actor of the event that carries a payload about the invoice `r`. -/
def EventPayload.actor (r : Invoice) : EventPayload → Option Uuid
  | submitted .. | financingRequested .. => some r.supplierId
  | buyerApproved .. => some r.buyerId
  -- The route passes the invoice id of the body.
  | assessment .. => some r.id
  | vanCreated .. | repaid .. => none

/-- The payload agrees with the rows about the invoice `r`. -/
def EventPayload.Agrees (db : Database) (r : Invoice) : EventPayload → Prop
  | submitted invoiceNumber amountCents buyerId supplierId =>
    invoiceNumber = r.invoiceNumber ∧ amountCents = r.amountCents ∧ buyerId = r.buyerId ∧
      supplierId = r.supplierId
  | buyerApproved buyerId buyerSignature _ =>
    buyerId = r.buyerId ∧ 10 ≤ jsLength buyerSignature ∧ r.buyerSignature ≠ none
  | financingRequested supplierId amountCents _ =>
    supplierId = r.supplierId ∧ amountCents = r.amountCents ∧ r.buyerSignature ≠ none
  | p@(assessment ..) =>
    (∃ cmd assessedAt, cmd.invoiceId = r.id ∧ p = (assessInvoiceRisk cmd assessedAt).payload) ∧
      r.buyerSignature ≠ none
  | vanCreated virtualAccountId accountNumber ifscCode expectedAmountCents expiresAt =>
    (∃ v, db.van virtualAccountId = some v ∧ v.invoiceId = r.id ∧
      v.accountNumber = accountNumber ∧ v.ifscCode = ifscCode ∧
      v.expectedAmountCents = expectedAmountCents ∧ v.expiresAt = expiresAt) ∧
      r.buyerSignature ≠ none
  | repaid virtualAccountId receivedAmountCents idempotencyKey _ =>
    (∃ v, db.van virtualAccountId = some v ∧ v.invoiceId = r.id ∧ v.status = .settled ∧
      number v.expectedAmountCents ≤ number receivedAmountCents) ∧
      (∃ e ∈ db.ledgerEntries, e.virtualAccountId = virtualAccountId ∧ e.entryType = .credit ∧
        e.idempotencyKey = idempotencyKey) ∧ r.buyerSignature ≠ none

/-- The event tells the truth about the rows. -/
def InvoiceEvent.Truthful (db : Database) (e : InvoiceEvent) : Prop :=
  e.eventType = e.payload.eventType ∧
    ∃ r, db.invoice e.invoiceId = some r ∧ e.actorId = e.payload.actor r ∧
      e.payload.Agrees db r

/-! ### What no commit undoes -/

/-- `Evolves`, with the other columns that no statement writes. -/
structure Database.Extends (db db' : Database) : Prop extends db.Evolves db' where
  invoiceColumns : ∀ id r r', db.invoice id = some r → db'.invoice id = some r' →
    r'.currency = r.currency ∧ r'.dueDate = r.dueDate
  accountColumns : ∀ id v v', db.van id = some v → db'.van id = some v' →
    v'.ifscCode = v.ifscCode ∧ v'.expiresAt = v.expiresAt

/-- Every database extends itself. -/
theorem Database.Extends.refl (db : Database) : db.Extends db where
  toEvolves := Evolves.refl db
  invoiceColumns id r r' hr hr' := by
    cases hr.symm.trans hr'
    exact ⟨rfl, rfl⟩
  accountColumns id v v' hv hv' := by
    cases hv.symm.trans hv'
    exact ⟨rfl, rfl⟩

/-- Extensions compose. -/
theorem Database.Extends.trans {db db' db'' : Database} (h : db.Extends db')
    (h' : db'.Extends db'') : db.Extends db'' where
  toEvolves := h.toEvolves.trans h'.toEvolves
  invoiceColumns id r r'' hr hr'' := by
    obtain ⟨r', hr', -⟩ := h.invoice id r hr
    have h₁ := h.invoiceColumns id r r' hr hr'
    have h₂ := h'.invoiceColumns id r' r'' hr' hr''
    exact ⟨h₂.1.trans h₁.1, h₂.2.trans h₁.2⟩
  accountColumns id v v'' hv hv'' := by
    obtain ⟨v', hv', -⟩ := h.van id v hv
    have h₁ := h.accountColumns id v v' hv hv'
    have h₂ := h'.accountColumns id v' v'' hv' hv''
    exact ⟨h₂.1.trans h₁.1, h₂.2.trans h₁.2⟩

section
variable {I : Interference Database RowVersion} {born seen t : Log} {c : Call}
  {rows : List RowVersion}

/-- A rewrite keeps the columns that no statement writes. -/
theorem Rewrites.columns {r r' : Invoice} (h : Rewrites I born seen t rows c r r') :
    r'.currency = r.currency ∧ r'.dueDate = r.dueDate := by
  cases h <;> exact ⟨rfl, rfl⟩

/-- A commit extends the database. -/
theorem Commit.extends (h : Commit I born seen t c rows) :
    t.now.Extends (t.commit rows).now where
  toEvolves := h.evolves
  invoiceColumns id r r' hr hr' := by
    cases h.invoice_change id with
    | kept hsame _ =>
        cases (hsame ▸ hr').symm.trans hr
        exact ⟨rfl, rfl⟩
    | draft _ _ _ _ _ hnone =>
        rw [hr] at hnone
        cases hnone
    | rewritten r₀ r₁ hr₀ hr₁ hw =>
        cases hr.symm.trans hr₀
        cases hr'.symm.trans hr₁
        exact hw.columns
  accountColumns id v v' hv hv' := by
    cases h.account_change id with
    | kept hsame =>
        cases (hsame ▸ hv').symm.trans hv
        exact ⟨rfl, rfl⟩
    | opened _ _ _ _ _ _ _ _ hnone =>
        rw [hv] at hnone
        cases hnone
    | credited _ v₀ _ hv₀ _ hnew =>
        cases hv.symm.trans hv₀
        cases hv'.symm.trans hnew
        exact ⟨rfl, rfl⟩
    | settled _ v₀ _ hv₀ _ hnew =>
        cases hv.symm.trans hv₀
        cases hv'.symm.trans hnew
        exact ⟨rfl, rfl⟩

end

/-- Every commit of the log has extended the database. -/
def Extending (t : Log) : Prop :=
  Timeline.Commits (fun u rows => u.now.Extends (u.commit rows).now) t

/-- Along an extending log, a later database extends an earlier one. -/
theorem Extending.extends {t t' : Log} (ht : Extending t') (h : t ≤ t') :
    t.now.Extends t'.now :=
  Timeline.rel_of_le Extends.refl (fun _ _ _ => Extends.trans) h ht

/-- What an event says stays true. -/
theorem EventPayload.Agrees.extends {db db' : Database} (h : db.Extends db') {id : Uuid}
    {r r' : Invoice} (hr : db.invoice id = some r) (hr' : db'.invoice id = some r')
    {p : EventPayload} (hp : p.Agrees db r) : p.Agrees db' r' := by
  obtain ⟨r'', hr'', hrev⟩ := h.invoice id r hr
  cases hr'.symm.trans hr''
  cases p with
  | submitted =>
      obtain ⟨rfl, rfl, rfl, rfl⟩ := hp
      exact ⟨hrev.invoiceNumber.symm, hrev.amountCents.symm, hrev.buyerId.symm,
        hrev.supplierId.symm⟩
  | buyerApproved =>
      obtain ⟨rfl, hlen, hsig⟩ := hp
      exact ⟨hrev.buyerId.symm, hlen, hrev.signature hsig⟩
  | financingRequested =>
      obtain ⟨rfl, rfl, hsig⟩ := hp
      exact ⟨hrev.supplierId.symm, hrev.amountCents.symm, hrev.signature hsig⟩
  | assessment =>
      obtain ⟨⟨cmd, assessedAt, hid, he⟩, hsig⟩ := hp
      exact ⟨⟨cmd, assessedAt, hid.trans hrev.id.symm, he⟩, hrev.signature hsig⟩
  | vanCreated virtualAccountId =>
      obtain ⟨⟨v, hv, hinvoice, rfl, rfl, rfl, rfl⟩, hsig⟩ := hp
      obtain ⟨v', hv', hvev⟩ := h.van _ v hv
      obtain ⟨hifsc, hexpires⟩ := h.accountColumns _ v v' hv hv'
      exact ⟨⟨v', hv', hvev.invoiceId.trans (hinvoice.trans hrev.id.symm), hvev.accountNumber,
        hifsc, hvev.expectedAmountCents, hexpires⟩, hrev.signature hsig⟩
  | repaid =>
      obtain ⟨⟨v, hv, hinvoice, hsettled, hfull⟩, ⟨e, he, hentry⟩, hsig⟩ := hp
      obtain ⟨v', hv', hvev⟩ := h.van _ v hv
      refine ⟨⟨v', hv', hvev.invoiceId.trans (hinvoice.trans hrev.id.symm), hvev.settled hsettled,
        hvev.expectedAmountCents.symm ▸ hfull⟩, ⟨e, h.ledger.subset he, hentry⟩,
        hrev.signature hsig⟩

/-- An event that tells the truth tells it of every later database. -/
theorem InvoiceEvent.Truthful.extends {db db' : Database} (h : db.Extends db')
    {e : InvoiceEvent} (he : e.Truthful db) : e.Truthful db' := by
  obtain ⟨htype, r, hr, hactor, hp⟩ := he
  obtain ⟨r', hr', hrev⟩ := h.invoice _ r hr
  refine ⟨htype, r', hr', hactor.trans ?_, hp.extends h hr hr'⟩
  cases e.payload <;> simp [EventPayload.actor, hrev.id, hrev.supplierId, hrev.buyerId]

/-! ### The events of a commit -/

/-- The actor of a routed submission is the supplier of the command. -/
theorem Call.Routed.submitter {cmd : SubmitInvoiceCommand} {actorId : Uuid}
    (h : (Call.submitInvoice cmd actorId).Routed) : cmd.supplierId = actorId := by
  obtain ⟨r, hr⟩ := h
  cases r <;> simp [Request.call] at hr
  obtain ⟨b, -, rfl, rfl⟩ := hr
  rfl

/-- The actor of a routed assessment is the invoice of the command. -/
theorem Call.Routed.assessor {cmd : AssessInvoiceRiskCommand} {actorId : Uuid}
    (h : (Call.assessAndRecord cmd actorId).Routed) : actorId = cmd.invoiceId := by
  obtain ⟨r, hr⟩ := h
  cases r <;> simp [Request.call] at hr
  obtain ⟨b, -, rfl, rfl⟩ := hr
  rfl

/-- The invoice of a status that rests on an approval is signed at every later moment. -/
theorem Database.Signed.signed_later {db db' : Database} (h : db.Signed) (hdb : db.Evolves db')
    {id : Uuid} {r r' : Invoice} (hr : db.invoice id = some r)
    (hs : r.status = .buyerApproved ∨ r.status = .financingRequested ∨ r.status = .repaid)
    (hr' : db'.invoice id = some r') : r'.buyerSignature ≠ none := by
  obtain ⟨r'', hr'', hsig⟩ := h.backed_later hdb (.status r hr hs)
  cases hr'.symm.trans hr''
  exact hsig

/-- The event of an assessment tells the truth where the invoice that was read is signed. -/
theorem assessment_truthful {db db' : Database} (h : db.Evolves db') (hsigned : db.Signed)
    {cmd : AssessInvoiceRiskCommand} {inv : Invoice} (hinv : db.invoice cmd.invoiceId = some inv)
    (hstatus : inv.status = .financingRequested) {actorId : Uuid}
    (hactor : actorId = cmd.invoiceId) (assessedAt now : Timestamp) :
    (assessmentEvent cmd actorId assessedAt now).Truthful db' := by
  obtain ⟨r, hr, -⟩ := h.invoice _ inv hinv
  have hid : cmd.invoiceId = r.id := (invoice_id hr).symm
  refine ⟨rfl, r, hr, congrArg some (hactor.trans hid), ⟨cmd, assessedAt, hid, rfl⟩, ?_⟩
  exact hsigned.signed_later h hinv (Or.inr (Or.inl hstatus)) hr

section
variable {I : Interference Database RowVersion} {born seen t : Log} {c : Call}
  {rows : List RowVersion}

/-- The event that a commit appends tells the truth about the rows after the commit. -/
theorem Commit.event_truthful (hc : Commit I born seen t c rows) (hroute : c.Routed)
    (hev : Evolving t) (hseen : seen.now.Signed) {e : InvoiceEvent}
    (he : .invoiceEvent e ∈ rows) : e.Truthful (t.commit rows).now := by
  have hafter := (hev.evolves hc.seen_le).trans hc.evolves
  cases hc with
  | draft => simp at he
  | paid => simp at he
  | @submitted cmd actorId env u r now _ hbefore hrow =>
      obtain rfl : e = submittedEvent actorId (cmd.draft env) now := by simpa using he
      -- The row is a later version of the draft.
      have hdraft : (u.commit [.invoice (cmd.draft env)]).now.invoice env.uuid =
          some (cmd.draft env) := by simp [SubmitInvoiceCommand.draft]
      obtain ⟨r₀, hr₀, hrev⟩ := (hev.evolves (I.le hbefore)).invoice _ _ hdraft
      cases hrow.symm.trans hr₀
      refine ⟨rfl, r.setStatus .submitted now, by simp [submittedEvent, hrev.id], ?_, ?_⟩
      · exact congrArg some (hroute.submitter.symm.trans hrev.supplierId.symm)
      · exact ⟨hrev.invoiceNumber.symm, hrev.amountCents.symm, hrev.buyerId.symm,
          hrev.supplierId.symm⟩
  | @approved cmd actorId inv r approvedAt now _ _ hinv hbuyer _ hsignature hrow =>
      obtain rfl : e = approvedEvent cmd actorId approvedAt now := by simpa using he
      obtain ⟨r', hr', hrev⟩ := hafter.invoice _ inv hinv
      have hbuyer' : cmd.buyerId = r'.buyerId := hbuyer.symm.trans hrev.buyerId.symm
      refine ⟨rfl, r', hr', ?_, hbuyer', hsignature, ?_⟩
      · exact congrArg some (hroute.buyerId.symm.trans hbuyer')
      · rw [show r' = (r.sign cmd.buyerSignature now).setStatus .buyerApproved now from
          Option.some.inj (hr'.symm.trans (by simp [invoice_id hrow]))]
        exact Option.some_ne_none _
  | @requested cmd actorId inv r requestedAt now _ _ hinv hsupplier hstatus hrow =>
      obtain rfl : e = requestedEvent cmd actorId inv.amountCents requestedAt now := by
        simpa using he
      obtain ⟨r', hr', hrev⟩ := hafter.invoice _ inv hinv
      have hsupplier' : cmd.supplierId = r'.supplierId :=
        hsupplier.symm.trans hrev.supplierId.symm
      have happroved : inv.status = .buyerApproved := by
        revert hstatus
        cases inv.status <;> decide
      refine ⟨rfl, r', hr', ?_, hsupplier', hrev.amountCents.symm, ?_⟩
      · exact congrArg some (hroute.supplierId.symm.trans hsupplier')
      · exact hseen.signed_later hafter hinv (Or.inl happroved) hr'
  | @assessed cmd actorId inv assessedAt now _ _ hinv hstatus =>
      obtain rfl : e = assessmentEvent cmd actorId assessedAt now := by simpa using he
      exact assessment_truthful hafter hseen hinv hstatus hroute.assessor _ _
  | @rejected cmd actorId inv r assessedAt now _ _ hinv hstatus _ hrow =>
      obtain rfl : e = assessmentEvent cmd actorId assessedAt now := by simpa using he
      exact assessment_truthful hafter hseen hinv hstatus hroute.assessor _ _
  | @created cmd inv van start _ _ hinv hstatus hinvoice =>
      obtain rfl : e = vanCreatedEvent van start.now := by simpa using he
      obtain ⟨r', hr', hrev⟩ := hafter.invoice _ inv hinv
      rw [← hinvoice] at hr'
      refine ⟨rfl, r', hr', rfl, ⟨van, by simp, (invoice_id hr').symm, rfl, rfl, rfl, rfl⟩, ?_⟩
      rw [hinvoice] at hr'
      exact hseen.signed_later hafter hinv (Or.inr (Or.inl hstatus)) hr'
  | @settled cmd van v o settledAt start _ hle hvan _ _ _ _ hrow hfull =>
      obtain rfl : e = repaidEvent cmd van (v.receive cmd.amountCents) settledAt start.now := by
        rcases (by simpa using he : _ ∈ (updateRow RowVersion.invoice _ o).1 ∨ _) with he | he
        · obtain ⟨r, -, hr⟩ := mem_updateRow he
          cases hr
        · exact he
      have hvan := (vanByNumber_some hvan).1
      obtain ⟨r, hr, hsig⟩ := hseen.backed_later hafter
        (.account van (mem_virtualAccounts.mpr hvan) rfl)
      obtain ⟨v', hv', hvev⟩ := hafter.van _ van hvan
      obtain rfl : v' = (v.receive cmd.amountCents).settle :=
        Option.some.inj (hv'.symm.trans (by simp [writeAll_append, van_id hrow]))
      refine ⟨rfl, r, hr, rfl, ⟨_, hv', ?_, rfl, hfull⟩, ⟨(cmd.credit van.id).row start, ?_, rfl,
        rfl, rfl⟩, hsig⟩
      · exact hvev.invoiceId.trans (invoice_id hr).symm
      · simp [writeAll_append]

end

/-! ### The runs -/

/-- The invariant of the committed log. -/
structure Audited (u : Log) : Prop where
  extending : Extending u
  signed : u.now.Signed
  truthful : ∀ e ∈ u.now.invoiceEvents, e.Truthful u.now

/-- A commit of a routed call keeps the invariant. -/
theorem Audited.commit {I : Interference Database RowVersion} {born seen t : Log} {c : Call}
    {rows : List RowVersion} (hc : Commit I born seen t c rows) (hroute : c.Routed)
    (hev : Evolving t) (hseen : Audited seen) (ht : Audited t) : Audited (t.commit rows) where
  extending := Timeline.commits_commit ht.extending hc.extends
  signed := Signed.commit hc hroute (hev.evolves hc.seen_le) hseen.signed ht.signed
  truthful e he := by
    rw [Timeline.now_commit, invoiceEvents_writeAll] at he
    rcases List.mem_append.mp he with he | he
    · exact (ht.truthful e he).extends hc.extends
    · exact hc.event_truthful hroute hev hseen.signed (mem_eventsIn.mp he)

/-- In the runs of the routes every moment of the log is audited. -/
theorem Runs.audit {db : Database} (hdb : db.Initial) {w : ServiceWorld}
    (h : Runs RoutedStep (.start db) w) : ∀ u ≤ w.timeline, Audited u := by
  refine Runs.invariant (C := fun c _ => c.Routed) (Or.inl Interference.concurrent_shared)
    (fun _ c ha => ha c rfl) (Timeline.commits_start _ _) (fun u hu => ?_) ?_ h
  · rw [Timeline.le_start_iff.mp hu]
    refine ⟨Timeline.commits_start _ _, hdb.signed, fun e he => ?_⟩
    rw [Timeline.now_start, hdb.events] at he
    cases he
  · intro c born seen t rows hroute hc hev ih
    exact Audited.commit hc hroute hev (ih seen hc.seen_le) (ih t (le_refl t))

/-- In every run of the HTTP operations, an event that is committed at some moment is still
there at every later one, and tells the truth about its rows. -/
theorem audit_of_run {db : Database} (hdb : db.Initial) {w : ServiceWorld}
    (h : Runs RoutedStep (.start db) w) {u u' : Log} (hu : u ≤ u') (hu' : u' ≤ w.timeline)
    {e : InvoiceEvent} (he : e ∈ u.now.invoiceEvents) :
    e ∈ u'.now.invoiceEvents ∧ e.Truthful u'.now := by
  have haudit := Runs.audit hdb h u' hu'
  have hmem := (haudit.extending.extends hu).events.subset he
  exact ⟨hmem, haudit.truthful e hmem⟩

/-- The six events of the whole life of the sample invoice. -/
theorem audit_of_repaid_invoice : ∃ w : ServiceWorld, Runs RoutedStep (.start sampleDb) w ∧
    w.db.invoiceEvents.map InvoiceEvent.eventType = ["invoice.submitted",
      "invoice.buyer_approved", "invoice.financing_requested", "risk.assessment.approve",
      "van.created", "invoice.repaid"] ∧
    ∀ e ∈ w.db.invoiceEvents, e ∈ w.db.invoiceEvents ∧ e.Truthful w.db := by
  have h : (play (routedCheck (sampleRequests 1000 "k1")) (.start sampleDb) (stepsToRequested ++
      .spawn (.assessAndRecord (sampleAssessment 1000) sampleId) :: steps 3 7 ++
      .spawn sampleCreateVan :: steps 4 12 ++
      .spawn (.recordPayment (samplePayment 1000 "k1")) :: steps 5 17)).map
      (fun w => w.db.invoiceEvents.map InvoiceEvent.eventType) = some ["invoice.submitted",
        "invoice.buyer_approved", "invoice.financing_requested", "risk.assessment.approve",
        "van.created", "invoice.repaid"] := by decide +kernel
  obtain ⟨w, hrun, htypes⟩ := exists_run_of_play routedStep_of_check h
  exact ⟨w, hrun, htypes, fun e he =>
    audit_of_run initial_sampleDb hrun (le_refl w.timeline) (le_refl w.timeline) he⟩

end Vanguard
