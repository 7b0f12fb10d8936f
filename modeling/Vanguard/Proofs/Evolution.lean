import Vanguard.Proofs.Commits

/-!
# `Vanguard.Proofs.Evolution`: what no commit undoes

`Database.Evolves db db'` is what every commit respects: rows stay, with the columns that
no statement writes, a signature is not erased, a settled account stays settled, and the
ledger and the event log only grow. `Commit.evolves` proves it for one commit and
`Evolving.evolves` for any two moments of a log of such commits.

`Commit.invoice_change` says what a commit does to one invoice, and `Commit.event_origin`
which events it appends. The proofs about statuses, signatures and events split on these two
and not on `Commit`.
-/

set_option autoImplicit false

namespace Vanguard

open ReadCommitted

/-- Two versions of one invoice. Only the status, the signature and `updated_at` may
differ, and the signature is not erased. -/
structure Invoice.Evolves (r r' : Invoice) : Prop where
  id : r'.id = r.id
  invoiceNumber : r'.invoiceNumber = r.invoiceNumber
  supplierId : r'.supplierId = r.supplierId
  buyerId : r'.buyerId = r.buyerId
  amountCents : r'.amountCents = r.amountCents
  signature : r.buyerSignature ≠ none → r'.buyerSignature ≠ none

/-- Two versions of one virtual account. Only the balance and the status may differ, and a
settled account stays settled. -/
structure VirtualAccount.Evolves (v v' : VirtualAccount) : Prop where
  id : v'.id = v.id
  invoiceId : v'.invoiceId = v.invoiceId
  accountNumber : v'.accountNumber = v.accountNumber
  expectedAmountCents : v'.expectedAmountCents = v.expectedAmountCents
  settled : v.status = .settled → v'.status = .settled

namespace Invoice

/-- Every invoice evolves to itself. -/
theorem Evolves.refl (r : Invoice) : r.Evolves r := ⟨rfl, rfl, rfl, rfl, rfl, fun h => h⟩

/-- Evolutions of an invoice compose. -/
theorem Evolves.trans {r r' r'' : Invoice} (h : r.Evolves r') (h' : r'.Evolves r'') :
    r.Evolves r'' :=
  ⟨h'.id.trans h.id, h'.invoiceNumber.trans h.invoiceNumber,
    h'.supplierId.trans h.supplierId, h'.buyerId.trans h.buyerId,
    h'.amountCents.trans h.amountCents, fun hs => h'.signature (h.signature hs)⟩

/-- A change of status is an evolution. -/
theorem evolves_setStatus (r : Invoice) (status : InvoiceStatus) (now : Timestamp) :
    r.Evolves (r.setStatus status now) := ⟨rfl, rfl, rfl, rfl, rfl, fun h => h⟩

/-- A signature is an evolution. -/
theorem evolves_sign (r : Invoice) (signature : String) (now : Timestamp) :
    r.Evolves (r.sign signature now) :=
  ⟨rfl, rfl, rfl, rfl, rfl, fun _ => Option.some_ne_none signature⟩

end Invoice

namespace VirtualAccount

/-- Every account evolves to itself. -/
theorem Evolves.refl (v : VirtualAccount) : v.Evolves v := ⟨rfl, rfl, rfl, rfl, fun h => h⟩

/-- Evolutions of an account compose. -/
theorem Evolves.trans {v v' v'' : VirtualAccount} (h : v.Evolves v') (h' : v'.Evolves v'') :
    v.Evolves v'' :=
  ⟨h'.id.trans h.id, h'.invoiceId.trans h.invoiceId,
    h'.accountNumber.trans h.accountNumber,
    h'.expectedAmountCents.trans h.expectedAmountCents, fun hs => h'.settled (h.settled hs)⟩

/-- A receipt is an evolution. -/
theorem evolves_receive (v : VirtualAccount) (amount : Int) : v.Evolves (v.receive amount) :=
  ⟨rfl, rfl, rfl, rfl, fun h => h⟩

/-- Settling is an evolution. -/
theorem evolves_settle (v : VirtualAccount) : v.Evolves v.settle :=
  ⟨rfl, rfl, rfl, rfl, fun _ => rfl⟩

end VirtualAccount

namespace Database

/-- What every commit respects. -/
structure Evolves (db db' : Database) : Prop where
  invoice : ∀ id r, db.invoice id = some r → ∃ r', db'.invoice id = some r' ∧ r.Evolves r'
  van : ∀ id v, db.van id = some v → ∃ v', db'.van id = some v' ∧ v.Evolves v'
  ledger : db.ledgerEntries <+: db'.ledgerEntries
  events : db.invoiceEvents <+: db'.invoiceEvents

/-- Every database evolves to itself. -/
theorem Evolves.refl (db : Database) : db.Evolves db where
  invoice _ r h := ⟨r, h, Invoice.Evolves.refl r⟩
  van _ v h := ⟨v, h, VirtualAccount.Evolves.refl v⟩
  ledger := List.prefix_refl _
  events := List.prefix_refl _

/-- Evolutions of a database compose. -/
theorem Evolves.trans {db db' db'' : Database} (h : db.Evolves db') (h' : db'.Evolves db'') :
    db.Evolves db'' where
  invoice id r hr := by
    obtain ⟨r', hr', he⟩ := h.invoice id r hr
    obtain ⟨r'', hr'', he'⟩ := h'.invoice id r' hr'
    exact ⟨r'', hr'', he.trans he'⟩
  van id v hv := by
    obtain ⟨v', hv', he⟩ := h.van id v hv
    obtain ⟨v'', hv'', he'⟩ := h'.van id v' hv'
    exact ⟨v'', hv'', he.trans he'⟩
  ledger := h.ledger.trans h'.ledger
  events := h.events.trans h'.events

/-- A new or evolved version of an invoice is an evolution of the database. -/
theorem evolves_write_invoice {db : Database} {r' : Invoice}
    (h : ∀ r, db.invoice r'.id = some r → r.Evolves r') :
    db.Evolves (db.write (.invoice r')) where
  invoice id r hr := by
    by_cases hid : r'.id = id
    · exact ⟨r', by simp [hid], h r (hid ▸ hr)⟩
    · exact ⟨r, by simp [hid, hr], Invoice.Evolves.refl r⟩
  van _ v hv := ⟨v, hv, VirtualAccount.Evolves.refl v⟩
  ledger := List.prefix_refl _
  events := List.prefix_refl _

/-- A new or evolved version of an account is an evolution of the database. -/
theorem evolves_write_virtualAccount {db : Database} {v' : VirtualAccount}
    (h : ∀ v, db.van v'.id = some v → v.Evolves v') :
    db.Evolves (db.write (.virtualAccount v')) where
  invoice _ r hr := ⟨r, hr, Invoice.Evolves.refl r⟩
  van id v hv := by
    by_cases hid : v'.id = id
    · exact ⟨v', by simp [hid], h v (hid ▸ hv)⟩
    · exact ⟨v, by simp [hid, hv], VirtualAccount.Evolves.refl v⟩
  ledger := List.prefix_refl _
  events := List.prefix_refl _

/-- A ledger entry is an evolution of the database. -/
theorem evolves_write_ledgerEntry (db : Database) (e : LedgerEntry) :
    db.Evolves (db.write (.ledgerEntry e)) where
  invoice _ r hr := ⟨r, hr, Invoice.Evolves.refl r⟩
  van _ v hv := ⟨v, hv, VirtualAccount.Evolves.refl v⟩
  ledger := List.prefix_append _ _
  events := List.prefix_refl _

/-- An event is an evolution of the database. -/
theorem evolves_write_invoiceEvent (db : Database) (e : InvoiceEvent) :
    db.Evolves (db.write (.invoiceEvent e)) where
  invoice _ r hr := ⟨r, hr, Invoice.Evolves.refl r⟩
  van _ v hv := ⟨v, hv, VirtualAccount.Evolves.refl v⟩
  ledger := List.prefix_refl _
  events := List.prefix_append _ _

/-- A new version of the invoice `r`. -/
theorem evolves_update_invoice {db : Database} {id : Uuid} {r r' : Invoice}
    (hr : db.invoice id = some r) (h : r.Evolves r') : db.Evolves (db.write (.invoice r')) := by
  refine evolves_write_invoice fun x hx => ?_
  rw [h.id, invoice_id hr, hr] at hx
  exact Option.some.inj hx ▸ h

/-- A new version of the account `v`. -/
theorem evolves_update_virtualAccount {db : Database} {id : Uuid} {v v' : VirtualAccount}
    (hv : db.van id = some v) (h : v.Evolves v') :
    db.Evolves (db.write (.virtualAccount v')) := by
  refine evolves_write_virtualAccount fun x hx => ?_
  rw [h.id, van_id hv, hv] at hx
  exact Option.some.inj hx ▸ h

/-- The `UPDATE` of an invoice's status, of a row or of none. -/
theorem evolves_updateRow {db : Database} (id : Uuid) {o : Option Invoice}
    {status : InvoiceStatus} {now : Timestamp} (h : ∀ r, o = some r → db.invoice id = some r) :
    db.Evolves (writeAll db (updateRow .invoice (fun r => r.setStatus status now) o).1) := by
  cases o with
  | none => exact Evolves.refl db
  | some r => exact evolves_update_invoice (h r rfl) (r.evolves_setStatus status now)

end Database

open Database

/-- A commit evolves the database. -/
theorem Commit.evolves {I : Interference Database RowVersion} {born seen t : Log} {c : Call}
    {rows : List RowVersion} (h : Commit I born seen t c rows) :
    t.now.Evolves (t.commit rows).now := by
  rw [Timeline.now_commit]
  cases h with
  | draft env _ _ _ hid =>
      refine evolves_write_invoice fun r hr => ?_
      rw [SubmitInvoiceCommand.draft, hid] at hr
      cases hr
  | submitted env u r now _ _ hrow =>
      exact (evolves_update_invoice hrow (r.evolves_setStatus _ _)).trans
        (evolves_write_invoiceEvent _ _)
  | @approved cmd _ inv r approvedAt now _ _ _ _ _ _ hrow =>
      -- Two versions of one row: the signature, then the status.
      have hsigned : (t.now.write (.invoice (r.sign cmd.buyerSignature now))).invoice
          cmd.invoiceId = some (r.sign cmd.buyerSignature now) := by
        simp [invoice_id hrow]
      exact ((evolves_update_invoice hrow (r.evolves_sign _ _)).trans
        (evolves_update_invoice hsigned (Invoice.evolves_setStatus _ _ _))).trans
        (evolves_write_invoiceEvent _ _)
  | requested inv r requestedAt now _ _ _ _ _ hrow =>
      exact (evolves_update_invoice hrow (r.evolves_setStatus _ _)).trans
        (evolves_write_invoiceEvent _ _)
  | assessed => exact evolves_write_invoiceEvent _ _
  | rejected inv r assessedAt now _ _ _ _ _ hrow =>
      exact (evolves_write_invoiceEvent _ _).trans
        (evolves_update_invoice hrow (r.evolves_setStatus _ _))
  | created inv van start _ _ _ _ _ _ _ _ _ hid =>
      refine ((evolves_write_virtualAccount fun v hv => ?_).trans
        (evolves_write_ledgerEntry _ _)).trans (evolves_write_invoiceEvent _ _)
      rw [hid] at hv
      cases hv
  | paid van v start _ _ _ _ _ _ _ hrow =>
      exact (evolves_write_ledgerEntry _ _).trans
        (evolves_update_virtualAccount hrow (v.evolves_receive _))
  | @settled cmd van v o settledAt start _ _ _ _ _ _ _ hrow _ hinv =>
      -- Entry, balance, settled account, invoice, event: one evolution for each write.
      simp only [List.cons_append, writeAll_cons, writeAll_append, writeAll_nil, store_write]
      have hreceived : ((t.now.write (.ledgerEntry ((cmd.credit van.id).row start))).write
          (.virtualAccount (v.receive cmd.amountCents))).van van.id =
          some (v.receive cmd.amountCents) := by simp [van_id hrow]
      refine ((((evolves_write_ledgerEntry _ _).trans
        (evolves_update_virtualAccount hrow (v.evolves_receive _))).trans
        (evolves_update_virtualAccount hreceived (VirtualAccount.evolves_settle _))).trans
        (evolves_updateRow van.invoiceId ?_)).trans (evolves_write_invoiceEvent _ _)
      rintro r rfl
      rcases hinv with ⟨r', hr', hr⟩ | ⟨hn, -⟩
      · cases hr'
        exact hr
      · cases hn

/-! ### What a commit does to an invoice -/

/-- The new version of an invoice that a call commits, with the guards that the call has
passed. `rows` is the batch. -/
inductive Rewrites (I : Interference Database RowVersion) (born seen t : Log)
    (rows : List RowVersion) : Call → Invoice → Invoice → Prop where
  | submitted {cmd : SubmitInvoiceCommand} {actorId : Uuid} {r : Invoice} (env : Env) (u : Log)
      (now : Timestamp) (hbefore : I.rel [] (u.commit [.invoice (cmd.draft env)]) t)
      (hid : r.id = env.uuid) :
      Rewrites I born seen t rows (.submitInvoice cmd actorId) r (r.setStatus .submitted now)
  | approved {cmd : ApproveInvoiceCommand} {actorId : Uuid} {r : Invoice} (inv : Invoice)
      (approvedAt now : Timestamp) (hseen : I.rel [] seen t)
      (hinv : seen.now.invoice r.id = some inv) (hbuyer : inv.buyerId = cmd.buyerId)
      (hstatus : .buyerApproved ∈ validTransitions inv.status)
      (hsignature : 10 ≤ jsLength cmd.buyerSignature) (hid : r.id = cmd.invoiceId)
      (hevent : .invoiceEvent (approvedEvent cmd actorId approvedAt now) ∈ rows) :
      Rewrites I born seen t rows (.approveInvoice cmd actorId) r
        ((r.sign cmd.buyerSignature now).setStatus .buyerApproved now)
  | requested {cmd : RequestFinancingCommand} {actorId : Uuid} {r : Invoice} (inv : Invoice)
      (now : Timestamp) (hseen : I.rel [] seen t) (hinv : seen.now.invoice r.id = some inv)
      (hstatus : .financingRequested ∈ validTransitions inv.status) :
      Rewrites I born seen t rows (.requestFinancing cmd actorId) r
        (r.setStatus .financingRequested now)
  | rejected {cmd : AssessInvoiceRiskCommand} {actorId : Uuid} {r : Invoice} (inv : Invoice)
      (now : Timestamp) (hseen : I.rel [] seen t) (hinv : seen.now.invoice r.id = some inv)
      (hstatus : inv.status = .financingRequested) :
      Rewrites I born seen t rows (.assessAndRecord cmd actorId) r (r.setStatus .cancelled now)
  | repaid {cmd : RecordPaymentCommand} {r : Invoice} (van v : VirtualAccount) (now : Timestamp)
      (hpaying : Paying I born seen t cmd van v)
      (hfull : (v.receive cmd.amountCents).paidInFull) (hid : r.id = van.invoiceId) :
      Rewrites I born seen t rows (.recordPayment cmd) r (r.setStatus .repaid now)

/-- What a commit does to the invoice `id`: nothing, it adds it as a draft, or it rewrites
it. -/
inductive InvoiceChange (I : Interference Database RowVersion) (born seen t : Log)
    (rows : List RowVersion) (c : Call) (id : Uuid) : Prop where
  | kept (h : (t.commit rows).now.invoice id = t.now.invoice id)
      (hrows : ∀ x, .invoice x ∈ rows → x.id ≠ id)
  | draft (cmd : SubmitInvoiceCommand) (actorId : Uuid) (env : Env)
      (hc : c = .submitInvoice cmd actorId) (hparties : cmd.buyerId ≠ cmd.supplierId)
      (hnone : t.now.invoice id = none)
      (h : (t.commit rows).now.invoice id = some (cmd.draft env))
  | rewritten (r r' : Invoice) (hr : t.now.invoice id = some r)
      (hr' : (t.commit rows).now.invoice id = some r') (h : Rewrites I born seen t rows c r r')

/-- A batch whose only invoice is `r'`, a new version of `r`. -/
theorem InvoiceChange.of_one {I : Interference Database RowVersion} {born seen t : Log}
    {rows : List RowVersion} {c : Call} {id' : Uuid} {r r' : Invoice}
    (hrow : t.now.invoice id' = some r)
    (hself : (t.commit rows).now.invoice r.id = some r')
    (hother : ∀ i, r.id ≠ i → (t.commit rows).now.invoice i = t.now.invoice i)
    (hrows : ∀ x, .invoice x ∈ rows → x.id = r.id)
    (h : Rewrites I born seen t rows c r r') (id : Uuid) :
    InvoiceChange I born seen t rows c id := by
  by_cases hid : r.id = id
  · refine .rewritten r r' ?_ (hid ▸ hself) h
    rw [← hid, invoice_id hrow, hrow]
  · refine .kept (hother id hid) fun x hx hxid => hid ?_
    exact (hrows x hx).symm.trans hxid

/-- What a commit does to one invoice, by cases on the call. -/
theorem Commit.invoice_change {I : Interference Database RowVersion} {born seen t : Log}
    {c : Call} {rows : List RowVersion} (h : Commit I born seen t c rows) (id : Uuid) :
    InvoiceChange I born seen t rows c id := by
  cases h with
  | @draft cmd actorId env _ _ hparties hnone =>
      by_cases hid : env.uuid = id
      · refine .draft cmd actorId env rfl hparties (hid ▸ hnone) ?_
        simp [SubmitInvoiceCommand.draft, hid]
      · refine .kept ?_ fun x hx hxid => hid ?_
        · simp [SubmitInvoiceCommand.draft, hid]
        · obtain rfl : x = cmd.draft env := by simpa using hx
          exact hxid
  | submitted env u r now _ hbefore hrow =>
      exact .of_one hrow (by simp) (fun i hi => by simp [hi]) (by simp)
        (.submitted env u now hbefore (invoice_id hrow)) id
  | approved inv r approvedAt now _ hseen hinv hbuyer hstatus hsignature hrow =>
      have hid := invoice_id hrow
      exact .of_one hrow (by simp) (fun i hi => by simp [hi]) (by simp)
        (.approved inv approvedAt now hseen (hid ▸ hinv) hbuyer hstatus hsignature hid (by simp)) id
  | requested inv r requestedAt now _ hseen hinv _ hstatus hrow =>
      exact .of_one hrow (by simp) (fun i hi => by simp [hi]) (by simp)
        (.requested inv now hseen (invoice_id hrow ▸ hinv) hstatus) id
  | assessed => exact .kept rfl (by simp)
  | rejected inv r assessedAt now _ hseen hinv hstatus _ hrow =>
      exact .of_one hrow (by simp) (fun i hi => by simp [hi]) (by simp)
        (.rejected inv now hseen (invoice_id hrow ▸ hinv) hstatus) id
  | created => exact .kept rfl (by simp)
  | paid => exact .kept rfl (by simp)
  | settled van v o settledAt start hborn hseen hvan hactive hnew hamount hkey hrow hfull hfound =>
      -- Without an invoice the raw `UPDATE` writes no row.
      rcases hfound with ⟨r, rfl, hr⟩ | ⟨rfl, -⟩
      · exact .of_one hr (by simp [updateRow]) (fun i hi => by simp [updateRow, hi])
          (by simp [updateRow])
          (.repaid van v start.now ⟨hborn, hseen, hvan, hactive, hnew, hamount, hkey, hrow⟩ hfull
            (invoice_id hr)) id
      · exact .kept (by simp [updateRow]) (by simp [updateRow])

/-! ### What a commit adds -/

/-- The events that a call appends, with what it has read of the invoice or the account. -/
inductive Appends (seen : Log) : Call → InvoiceEvent → Prop where
  | submitted {cmd : SubmitInvoiceCommand} {actorId : Uuid} (env : Env) (now : Timestamp) :
      Appends seen (.submitInvoice cmd actorId) (submittedEvent actorId (cmd.draft env) now)
  | approved {cmd : ApproveInvoiceCommand} {actorId : Uuid} (approvedAt now : Timestamp) :
      Appends seen (.approveInvoice cmd actorId) (approvedEvent cmd actorId approvedAt now)
  | requested {cmd : RequestFinancingCommand} {actorId : Uuid} (inv : Invoice)
      (requestedAt now : Timestamp) (hinv : seen.now.invoice cmd.invoiceId = some inv)
      (hsupplier : inv.supplierId = cmd.supplierId) :
      Appends seen (.requestFinancing cmd actorId)
        (requestedEvent cmd actorId inv.amountCents requestedAt now)
  | assessed {cmd : AssessInvoiceRiskCommand} {actorId : Uuid} (inv : Invoice)
      (assessedAt now : Timestamp) (hinv : seen.now.invoice cmd.invoiceId = some inv)
      (hstatus : inv.status = .financingRequested) :
      Appends seen (.assessAndRecord cmd actorId) (assessmentEvent cmd actorId assessedAt now)
  | vanCreated {cmd : CreateVanCommand} (van : VirtualAccount) (now : Timestamp) :
      Appends seen (.createVan cmd) (vanCreatedEvent van now)
  | repaid {cmd : RecordPaymentCommand} (van updated : VirtualAccount)
      (settledAt now : Timestamp) (hvan : seen.now.van van.id = some van) :
      Appends seen (.recordPayment cmd) (repaidEvent cmd van updated settledAt now)

/-- The types of the assessments are not used for other events. -/
theorem RiskDecision.eventType_ne (d : RiskDecision) {eventType : String}
    (h : eventType ∈ ["invoice.submitted", "invoice.buyer_approved",
      "invoice.financing_requested", "van.created", "invoice.repaid"]) :
    d.eventType ≠ eventType := by
  rintro rfl
  revert h
  cases d <;> decide

namespace Appends

variable {seen : Log} {c : Call} {e : InvoiceEvent}

/-- Only an assessment appends the event of a decision, and it saw financing
requested. -/
theorem of_assessment (h : Appends seen c e) {d : RiskDecision}
    (htype : e.eventType = d.eventType) :
    ∃ inv, seen.now.invoice e.invoiceId = some inv ∧ inv.status = .financingRequested := by
  cases h with
  | assessed inv _ _ hinv hstatus => exact ⟨inv, hinv, hstatus⟩
  | submitted => exact absurd htype.symm (d.eventType_ne (by simp [submittedEvent]))
  | approved => exact absurd htype.symm (d.eventType_ne (by simp [approvedEvent]))
  | requested => exact absurd htype.symm (d.eventType_ne (by simp [requestedEvent]))
  | vanCreated => exact absurd htype.symm (d.eventType_ne (by simp [vanCreatedEvent]))
  | repaid => exact absurd htype.symm (d.eventType_ne (by simp [repaidEvent]))

/-- Only the supplier's own request appends the event of one. -/
theorem of_financing_requested (h : Appends seen c e)
    (htype : e.eventType = "invoice.financing_requested") :
    ∃ cmd actorId inv, c = .requestFinancing cmd actorId ∧ e.actorId = some actorId ∧
      seen.now.invoice e.invoiceId = some inv ∧ inv.supplierId = cmd.supplierId := by
  cases h with
  | @requested cmd actorId inv _ _ hinv hsupplier =>
      exact ⟨cmd, actorId, inv, rfl, rfl, hinv, hsupplier⟩
  | assessed => exact absurd htype (RiskDecision.eventType_ne _ (by decide))
  | submitted => exact absurd htype (by simp [submittedEvent])
  | approved => exact absurd htype (by simp [approvedEvent])
  | vanCreated => exact absurd htype (by simp [vanCreatedEvent])
  | repaid => exact absurd htype (by simp [repaidEvent])

end Appends

/-- An event of the database after a commit was there before, or the call appends it. -/
theorem Commit.event_origin {I : Interference Database RowVersion} {born seen t : Log}
    {c : Call} {rows : List RowVersion} (h : Commit I born seen t c rows) {e : InvoiceEvent}
    (he : e ∈ (t.commit rows).now.invoiceEvents) :
    e ∈ t.now.invoiceEvents ∨ Appends seen c e := by
  have last : ∀ {db : Database} (e' : InvoiceEvent),
      db.invoiceEvents = t.now.invoiceEvents ++ [e'] → e ∈ db.invoiceEvents →
      Appends seen c e' → e ∈ t.now.invoiceEvents ∨ Appends seen c e := by
    intro db e' hdb he hnew
    rw [hdb] at he
    rcases List.mem_append.mp he with he | he
    · exact Or.inl he
    · exact Or.inr (List.mem_singleton.mp he ▸ hnew)
  rw [Timeline.now_commit] at he
  cases h with
  | draft => exact Or.inl he
  | submitted env u r now => exact last _ rfl he (.submitted env now)
  | approved inv r approvedAt now => exact last _ rfl he (.approved approvedAt now)
  | requested inv r requestedAt now _ _ hinv hsupplier =>
      exact last _ rfl he (.requested inv requestedAt now hinv hsupplier)
  | assessed inv assessedAt now _ _ hinv hstatus =>
      exact last _ rfl he (.assessed inv assessedAt now hinv hstatus)
  | rejected inv r assessedAt now _ _ hinv hstatus =>
      exact last _ rfl he (.assessed inv assessedAt now hinv hstatus)
  | created inv van start => exact last _ rfl he (.vanCreated van start.now)
  | paid => exact Or.inl he
  | @settled cmd van v o settledAt start _ _ hvan =>
      exact last (repaidEvent cmd van (v.receive cmd.amountCents) settledAt start.now)
        (by simp [writeAll_append]) he (.repaid van _ settledAt start.now (vanByNumber_some hvan).1)

/-- An invoice that a commit adds is a draft. -/
theorem Commit.invoice_origin {I : Interference Database RowVersion} {born seen t : Log}
    {c : Call} {rows : List RowVersion} (h : Commit I born seen t c rows) {id : Uuid}
    {r : Invoice} (hr : (t.commit rows).now.invoice id = some r) :
    (∃ r₀, t.now.invoice id = some r₀ ∧ r₀.Evolves r) ∨
      ∃ cmd actorId env, c = .submitInvoice cmd actorId ∧ cmd.buyerId ≠ cmd.supplierId ∧
        r = cmd.draft env := by
  cases h₀ : t.now.invoice id with
  | some r₀ =>
      obtain ⟨r', hr', hev⟩ := h.evolves.invoice id r₀ h₀
      exact Or.inl ⟨r₀, rfl, Option.some.inj (hr.symm.trans hr') ▸ hev⟩
  | none =>
      cases h.invoice_change id with
      | kept hsame _ =>
          rw [hsame, h₀] at hr
          cases hr
      | draft cmd actorId env hc hparties _ hdraft =>
          exact Or.inr ⟨cmd, actorId, env, hc, hparties, Option.some.inj (hr.symm.trans hdraft)⟩
      | rewritten r₀ r' hr₀ =>
          rw [h₀] at hr₀
          cases hr₀

/-- Every commit of the log has evolved the database. -/
def Evolving (t : Log) : Prop :=
  Timeline.Commits (fun u rows => u.now.Evolves (u.commit rows).now) t

/-- The later one of two moments of such a log has evolved from the earlier one. -/
theorem Evolving.evolves {t t' : Log} (ht : Evolving t') (h : t ≤ t') : t.now.Evolves t'.now :=
  Timeline.rel_of_le Evolves.refl (fun _ _ _ => Evolves.trans) h ht

end Vanguard
