import Vanguard.Proofs.Accounts

/-!
# `Vanguard.Proofs.Replay`: the event log reconstructs the tables

`Projection` is what the event log says about one invoice, and `Projection.apply` the effect
of one event. `Database.projection` reads the same data from the tables.

`Commit.projection` is the simulation: what a commit does to the tables is what its events do
to the projection. By induction over the commits, `events_reconstruct_invoices` gets the
tables back from the events in append order.
-/

set_option autoImplicit false

namespace Vanguard

open ReadCommitted Database

/-! ### The projection -/

/-- The account of an invoice, as its events describe it. -/
structure AccountProjection where
  accountNumber : String
  ifscCode : String
  expectedAmountCents : Int
  expiresAt : Timestamp
  settled : Bool
  deriving DecidableEq

/-- An invoice, as its events describe it. -/
structure Projection where
  status : InvoiceStatus
  signature : Option String
  account : Option AccountProjection
  deriving DecidableEq

/-- Before its first event an invoice is a draft. -/
def Projection.empty : Projection := ⟨.draft, none, none⟩

/-- The status that an event implies, `none` when it changes no status. -/
def InvoiceEvent.impliedStatus (e : InvoiceEvent) : Option InvoiceStatus :=
  if e.eventType = "invoice.submitted" then some .submitted
  else if e.eventType = "invoice.buyer_approved" then some .buyerApproved
  else if e.eventType = "invoice.financing_requested" then some .financingRequested
  else if e.eventType = "risk.assessment.reject" then some .cancelled
  else if e.eventType = "invoice.repaid" then some .repaid
  else none

/-- The signature that an approval carries. -/
def InvoiceEvent.signature (e : InvoiceEvent) : Option String :=
  match e.eventType, e.payload with
  | "invoice.buyer_approved", .buyerApproved _ signature _ => some signature
  | _, _ => none

/-- The account after an event. -/
def InvoiceEvent.account (e : InvoiceEvent) (account : Option AccountProjection) :
    Option AccountProjection :=
  match e.eventType, e.payload with
  | "van.created", .vanCreated _ accountNumber ifscCode expectedAmountCents expiresAt =>
    some ⟨accountNumber, ifscCode, expectedAmountCents, expiresAt, false⟩
  | "invoice.repaid", _ => account.map fun a => { a with settled := true }
  | _, _ => account

/-- The projection after an event. -/
def Projection.apply (p : Projection) (e : InvoiceEvent) : Projection :=
  { status := e.impliedStatus.getD p.status
    signature := e.signature.or p.signature
    account := e.account p.account }

/-- The replay of a list of events. -/
def replay (events : List InvoiceEvent) : Projection := events.foldl Projection.apply .empty

/-- The columns of an account that its events describe. -/
def VirtualAccount.projection (v : VirtualAccount) : AccountProjection :=
  { accountNumber := v.accountNumber
    ifscCode := v.ifscCode
    expectedAmountCents := v.expectedAmountCents
    expiresAt := v.expiresAt
    settled := v.status == .settled }

/-- The account of an invoice. -/
def Database.vanOfInvoice (db : Database) (invoiceId : Uuid) : Option VirtualAccount :=
  db.virtualAccounts.rows.find? fun v => v.invoiceId == invoiceId

/-- What the tables say about an invoice. -/
def Database.projection (db : Database) (id : Uuid) : Projection :=
  { status := (db.statusOf id).getD .draft
    signature := (db.invoice id).bind Invoice.buyerSignature
    account := (db.vanOfInvoice id).map VirtualAccount.projection }

/-- The events of an invoice after a commit are those before it and those the commit
wrote. -/
theorem eventsOf_writeAll (db : Database) (rows : List RowVersion) (id : Uuid) :
    (writeAll db rows).eventsOf id =
      db.eventsOf id ++ (eventsIn rows).filter fun e => e.invoiceId == id := by
  rw [eventsOf, invoiceEvents_writeAll, List.filter_append]
  rfl

/-! ### Reading the tables after a write -/

namespace Database

variable {db : Database}

/-- A version of an invoice leaves the accounts of the invoices alone. -/
@[simp] theorem vanOfInvoice_write_invoice (r : Invoice) (id : Uuid) :
    (db.write (.invoice r)).vanOfInvoice id = db.vanOfInvoice id := rfl

/-- A ledger entry leaves the accounts of the invoices alone. -/
@[simp] theorem vanOfInvoice_write_ledgerEntry (e : LedgerEntry) (id : Uuid) :
    (db.write (.ledgerEntry e)).vanOfInvoice id = db.vanOfInvoice id := rfl

/-- An event leaves the accounts of the invoices alone. -/
@[simp] theorem vanOfInvoice_write_invoiceEvent (e : InvoiceEvent) (id : Uuid) :
    (db.write (.invoiceEvent e)).vanOfInvoice id = db.vanOfInvoice id := rfl

/-- The accounts of the invoice of `v` are the rows with the id of `v`. -/
def Keyed (db : Database) (v : VirtualAccount) : Prop :=
  ∀ a ∈ db.virtualAccounts, a.invoiceId = v.invoiceId ↔ a.id = v.id

/-- In linked tables, a stored account is the only one of its invoice. -/
theorem Linked.keyed (h : db.Linked) {v : VirtualAccount} (hv : db.van v.id = some v) :
    db.Keyed v := by
  intro a ha
  have ha := mem_virtualAccounts.mp ha
  constructor
  · exact fun hi => h.invoiceId a.id v.id a v ha hv hi
  · intro hid
    rw [hid, hv] at ha
    rw [Option.some.inj ha]

/-- A version of the same account leaves it the only one of its invoice. -/
theorem Keyed.write {v u : VirtualAccount} (h : db.Keyed v) (hid : u.id = v.id)
    (hinvoice : u.invoiceId = v.invoiceId) : (db.write (.virtualAccount u)).Keyed v := by
  intro a ha
  rcases Table.mem_put.mp ha with rfl | ⟨ha, -⟩
  · exact iff_of_true hinvoice hid
  · exact h a ha

/-- A version of the account is what its invoice's lookup then finds. -/
theorem vanOfInvoice_write_virtualAccount {v u : VirtualAccount} (h : db.Keyed v)
    (hid : u.id = v.id) (hinvoice : u.invoiceId = v.invoiceId) (id : Uuid) :
    (db.write (.virtualAccount u)).vanOfInvoice id =
      if v.invoiceId = id then some u else db.vanOfInvoice id := by
  rw [← hinvoice]
  split
  · rename_i hv
    refine Table.find?_put_of_pos (by simpa using hv) fun a ha hp => ?_
    rw [hid]
    exact (h a ha).mp ((beq_iff_eq.mp hp).trans (hv.symm.trans hinvoice))
  · rename_i hv
    refine Table.find?_put_of_neg (by simpa using hv) fun a ha hk => ?_
    have hi := (h a ha).mpr (hk.trans hid)
    simpa [hi, hinvoice] using hv

/-- A ledger entry is not part of the projection. -/
@[simp] theorem projection_write_ledgerEntry (e : LedgerEntry) (id : Uuid) :
    (db.write (.ledgerEntry e)).projection id = db.projection id := rfl

/-- An event is not part of the projection of the rows. -/
@[simp] theorem projection_write_invoiceEvent (e : InvoiceEvent) (id : Uuid) :
    (db.write (.invoiceEvent e)).projection id = db.projection id := rfl

/-- A version of an invoice changes status and signature in the projection of that
invoice only. -/
theorem projection_write_invoice (r : Invoice) (id : Uuid) :
    (db.write (.invoice r)).projection id =
      if r.id = id then
        { db.projection id with status := r.status, signature := r.buyerSignature }
      else db.projection id := by
  by_cases hid : r.id = id <;> simp [projection, statusOf, hid]

/-- A version of an account changes the account in the projection of its invoice
only. -/
theorem projection_write_virtualAccount {v u : VirtualAccount} (h : db.Keyed v)
    (hid : u.id = v.id) (hinvoice : u.invoiceId = v.invoiceId) (id : Uuid) :
    (db.write (.virtualAccount u)).projection id =
      if v.invoiceId = id then { db.projection id with account := some u.projection }
      else db.projection id := by
  have hvan := vanOfInvoice_write_virtualAccount h hid hinvoice id
  by_cases hv : v.invoiceId = id
  · rw [if_pos hv] at hvan ⊢
    simp [projection, statusOf, hvan]
  · rw [if_neg hv] at hvan ⊢
    simp [projection, statusOf, hvan]

/-- The projected status is the stored one. -/
theorem status_projection {id : Uuid} {r : Invoice} (hr : db.invoice id = some r) :
    (db.projection id).status = r.status := by
  simp [projection, statusOf, hr]

/-- The projected signature is the stored one. -/
theorem signature_projection {id : Uuid} {r : Invoice} (hr : db.invoice id = some r) :
    (db.projection id).signature = r.buyerSignature := by
  simp [projection, hr]

/-- The projected account is the stored one, where each invoice has one account at
most. -/
theorem account_projection (h : db.Linked) {v : VirtualAccount} (hv : db.van v.id = some v) :
    (db.projection v.invoiceId).account = some v.projection := by
  have hfind : db.vanOfInvoice v.invoiceId = some v := by
    cases hf : db.vanOfInvoice v.invoiceId with
    | none =>
        have := List.find?_eq_none.mp hf v (mem_virtualAccounts.mpr hv)
        simp at this
    | some a =>
        have ha := mem_virtualAccounts.mp (List.mem_of_find?_eq_some hf)
        have hi : a.invoiceId = v.invoiceId := by simpa using List.find?_some hf
        rw [h.invoiceId _ _ _ _ ha hv hi, hv] at ha
        exact ha.symm
  simp [projection, hfind]

end Database

/-! ### One commit -/

/-- A batch with one event changes the projection of that event's invoice. -/
theorem projection_of_event {t : Log} {rows : List RowVersion} {e : InvoiceEvent}
    (hevents : eventsIn rows = [e])
    (hafter : ∀ id, (t.commit rows).now.projection id =
      if e.invoiceId = id then (t.now.projection id).apply e else t.now.projection id)
    (id : Uuid) :
    (t.commit rows).now.projection id =
      ((eventsIn rows).filter fun e => e.invoiceId == id).foldl Projection.apply
        (t.now.projection id) := by
  rw [hevents, hafter]
  by_cases hid : e.invoiceId = id <;> simp [hid]

/-! The effect of each event. -/

namespace Projection

variable (p : Projection)

/-- The event of a submission moves the status only. -/
theorem apply_submitted (actorId : Uuid) (draft : Invoice) (now : Timestamp) :
    p.apply (submittedEvent actorId draft now) = { p with status := .submitted } := rfl

/-- The event of an approval moves the status and carries the signature. -/
theorem apply_approved (cmd : ApproveInvoiceCommand) (actorId : Uuid)
    (approvedAt now : Timestamp) : p.apply (approvedEvent cmd actorId approvedAt now) =
      { p with status := .buyerApproved, signature := some cmd.buyerSignature } := rfl

/-- The event of a financing request moves the status only. -/
theorem apply_requested (cmd : RequestFinancingCommand) (actorId : Uuid) (amountCents : Int)
    (requestedAt now : Timestamp) :
    p.apply (requestedEvent cmd actorId amountCents requestedAt now) =
      { p with status := .financingRequested } := rfl

/-- The event of an assessment cancels on a rejection and changes nothing otherwise. -/
theorem apply_assessment (cmd : AssessInvoiceRiskCommand) (actorId : Uuid)
    (assessedAt now : Timestamp) : p.apply (assessmentEvent cmd actorId assessedAt now) =
      if (assessInvoiceRisk cmd assessedAt).decision = .reject then { p with status := .cancelled }
      else p := by
  simp only [assessmentEvent, RiskAssessmentResult.payload]
  cases (assessInvoiceRisk cmd assessedAt).decision <;> rfl

/-- The event of a new account carries the account. -/
theorem apply_vanCreated {van : VirtualAccount} (hactive : van.status = .active)
    (now : Timestamp) :
    p.apply (vanCreatedEvent van now) = { p with account := some van.projection } := by
  have hsettled : van.projection = ⟨van.accountNumber, van.ifscCode, van.expectedAmountCents,
      van.expiresAt, false⟩ := by
    simp [VirtualAccount.projection, hactive]
  rw [hsettled]
  rfl

/-- The event of a settlement moves the status and the account together. -/
theorem apply_repaid (cmd : RecordPaymentCommand) (van updated : VirtualAccount)
    (settledAt now : Timestamp) : p.apply (repaidEvent cmd van updated settledAt now) =
      { p with
          status := .repaid
          account := p.account.map fun a => { a with settled := true } } := rfl

end Projection

/-- A batch that gives the invoice of its event the status that the event implies. -/
theorem projection_setStatus {db : Database} {e : InvoiceEvent} {r : Invoice}
    {status : InvoiceStatus} {now : Timestamp} (hrow : db.invoice e.invoiceId = some r)
    (happly : ∀ p : Projection, p.apply e = { p with status := status }) (id : Uuid) :
    (db.write (.invoice (r.setStatus status now))).projection id =
      if e.invoiceId = id then (db.projection id).apply e else db.projection id := by
  rw [projection_write_invoice, Invoice.setStatus_id, invoice_id hrow]
  split
  · rename_i hid
    subst hid
    rw [happly, signature_projection hrow]
    rfl
  · rfl

/-- What a commit does to the tables is what its events do to the projection. -/
theorem Commit.projection {I : Interference Database RowVersion} {born seen t : Log}
    {c : Call} {rows : List RowVersion} (h : Commit I born seen t c rows)
    (hlinked : t.now.Linked) (hev : seen.now.Evolves t.now) (hlinkedSeen : seen.now.Linked)
    (id : Uuid) :
    (t.commit rows).now.projection id =
      ((eventsIn rows).filter fun e => e.invoiceId == id).foldl Projection.apply
        (t.now.projection id) := by
  cases h with
  | @draft cmd actorId env _ _ _ hnone =>
      show (t.now.write (.invoice (cmd.draft env))).projection id = t.now.projection id
      rw [projection_write_invoice]
      split
      · -- The new row says what no row says.
        rename_i hid
        have hid : env.uuid = id := hid
        subst hid
        simp [Database.projection, statusOf, SubmitInvoiceCommand.draft, hnone]
      · rfl
  | @submitted cmd actorId env u r now _ _ hrow =>
      have hrow : t.now.invoice (submittedEvent actorId (cmd.draft env) now).invoiceId = some r :=
        hrow
      refine projection_of_event rfl ?_ id
      exact projection_setStatus hrow fun p => p.apply_submitted actorId (cmd.draft env) now
  | @approved cmd actorId inv r approvedAt now _ _ _ _ _ _ hrow =>
      refine projection_of_event (e := approvedEvent cmd actorId approvedAt now) rfl
        (fun id => ?_) id
      -- The second version of the row has the status and the signature.
      have hid : r.id = cmd.invoiceId := invoice_id hrow
      simp only [Timeline.now_commit, writeAll_cons, writeAll_nil, store_write,
        projection_write_invoiceEvent, projection_write_invoice, Invoice.setStatus_id,
        Invoice.sign_id, hid, Projection.apply_approved]
      show (if cmd.invoiceId = id then _ else _) = if cmd.invoiceId = id then _ else _
      split
      · rfl
      · rfl
  | @requested cmd actorId inv r requestedAt now _ _ _ _ _ hrow =>
      have hrow : t.now.invoice (requestedEvent cmd actorId inv.amountCents requestedAt
          now).invoiceId = some r := hrow
      refine projection_of_event rfl ?_ id
      exact projection_setStatus hrow fun p =>
        p.apply_requested cmd actorId inv.amountCents requestedAt now
  | @assessed cmd actorId inv assessedAt now _ _ _ _ hdecision =>
      refine projection_of_event (e := assessmentEvent cmd actorId assessedAt now) rfl
        (fun id => ?_) id
      rw [Projection.apply_assessment, if_neg hdecision, ite_self]
      rfl
  | @rejected cmd actorId inv r assessedAt now _ _ _ _ hdecision hrow =>
      have hrow : t.now.invoice (assessmentEvent cmd actorId assessedAt now).invoiceId = some r :=
        hrow
      refine projection_of_event rfl ?_ id
      refine projection_setStatus hrow fun p => ?_
      rw [p.apply_assessment, if_pos hdecision]
  | @created cmd inv van start _ _ _ _ _ _ _ hactive _ hid hkeys _ =>
      refine projection_of_event (e := vanCreatedEvent van start.now) rfl (fun id => ?_) id
      have hkeyed : t.now.Keyed van := by
        intro a ha
        refine iff_of_false (hkeys a ha).2 fun heq => ?_
        have hmem := mem_virtualAccounts.mp ha
        rw [heq, hid] at hmem
        cases hmem
      rw [Projection.apply_vanCreated _ hactive]
      exact projection_write_virtualAccount hkeyed rfl rfl id
  | @paid cmd van v start _ _ _ _ _ _ _ hrow _ =>
      have hv : t.now.van v.id = some v := van_id hrow ▸ hrow
      show ((t.now.write (.ledgerEntry _)).write (.virtualAccount
        (v.receive cmd.amountCents))).projection id = t.now.projection id
      have hkeyed : (t.now.write (.ledgerEntry ((cmd.credit van.id).row start))).Keyed v :=
        hlinked.keyed hv
      rw [projection_write_virtualAccount (u := v.receive cmd.amountCents) hkeyed rfl rfl]
      split
      · -- The balance is not part of the projection.
        rename_i hid
        subst hid
        have hacc := account_projection hlinked hv
        rw [projection_write_ledgerEntry]
        show { t.now.projection v.invoiceId with account := some v.projection } = _
        rw [← hacc]
      · rfl
  | @settled cmd van v o settledAt start _ _ hvan _ _ _ _ hrow _ hfound =>
      have hv : t.now.van v.id = some v := van_id hrow ▸ hrow
      obtain ⟨hvan, -⟩ := vanByNumber_some hvan
      have hinvoice : v.invoiceId = van.invoiceId := by
        obtain ⟨v', hv', hve⟩ := hev.van van.id van hvan
        obtain rfl : v = v' := Option.some.inj (hrow.symm.trans hv')
        exact hve.invoiceId
      -- The account has an invoice, so the `UPDATE` has found it.
      obtain ⟨r, rfl, hr⟩ : ∃ r, o = some r ∧ t.now.invoice van.invoiceId = some r := by
        rcases hfound with hfound | ⟨-, hnone⟩
        · exact hfound
        · obtain ⟨r, hr⟩ := hlinkedSeen.invoice van.id van hvan
          rw [hnone] at hr
          cases hr
      refine projection_of_event
        (e := repaidEvent cmd van (v.receive cmd.amountCents) settledAt start.now) rfl
        (fun id => ?_) id
      have hkeyed : (t.now.write (.ledgerEntry ((cmd.credit van.id).row start))).Keyed v :=
        hlinked.keyed hv
      have hkeyed' := hkeyed.write (u := v.receive cmd.amountCents) rfl rfl
      show (((((t.now.write (.ledgerEntry ((cmd.credit van.id).row start))).write
        (.virtualAccount (v.receive cmd.amountCents))).write (.virtualAccount
        (v.receive cmd.amountCents).settle)).write (.invoice (r.setStatus .repaid
        start.now))).write (.invoiceEvent _)).projection id = _
      rw [projection_write_invoiceEvent, projection_write_invoice,
        projection_write_virtualAccount (u := (v.receive cmd.amountCents).settle) hkeyed' rfl rfl,
        projection_write_virtualAccount (u := v.receive cmd.amountCents) hkeyed rfl rfl,
        projection_write_ledgerEntry, Invoice.setStatus_id, invoice_id hr, hinvoice,
        Projection.apply_repaid]
      show (if van.invoiceId = id then _ else _) = if van.invoiceId = id then _ else _
      split
      · rename_i hid
        subst hid
        have hacc := account_projection hlinked hv
        rw [hinvoice] at hacc
        rw [hacc, signature_projection hr]
        rfl
      · rfl

/-! ### Append order -/

/-- In every committed moment of every run, the events of an invoice in append order replay to
what the tables say. -/
theorem replay_of_run {db : Database} (hdb : db.Initial) {ok : ServiceWorld → Step → Prop}
    {w : ServiceWorld} (h : Runs ok (.start db) w) :
    ∀ u ≤ w.timeline, ∀ id, replay (u.now.eventsOf id) = u.now.projection id := by
  have hfit : Fits (Interference.concurrent (D := Database)) ok :=
    Or.inl Interference.concurrent_shared
  refine Runs.step_invariant (C := fun _ _ => True) hfit (fun _ _ _ => trivial)
    (fun u hu => ?_) ?_ h
  · rw [Timeline.le_start_iff.mp hu]
    intro id
    have hvan : db.vanOfInvoice id = none := by
      refine List.find?_eq_none.mpr fun v hv => ?_
      have hv := mem_virtualAccounts.mp hv
      rw [hdb.van] at hv
      cases hv
    simp [replay, eventsOf, hdb.events, Database.projection, statusOf, hdb.invoice, hvan,
      Projection.empty]
  · intro w i env s hw _ _ _ hc ih id
    have hev := (hw.evolving hfit (Timeline.commits_start _ _)).evolves hc.seen_le
    have hlinked := linked_of_run hdb.van hw
    have hafter := hc.projection (hlinked _ (le_refl _)) hev (hlinked _ hc.seen_le) id
    have hbefore : replay (w.timeline.now.eventsOf id) = w.timeline.now.projection id :=
      ih _ (le_refl _) id
    rw [hafter, ← hbefore, Timeline.now_commit, eventsOf_writeAll, replay, List.foldl_append]
    rfl

/-- The replay of its events gives the stored invoice and its account. -/
structure Database.Reconstructs (db : Database) (id : Uuid) (r : Invoice) : Prop where
  status : (replay (db.eventsOf id)).status = r.status
  signature : (replay (db.eventsOf id)).signature = r.buyerSignature
  account : ∀ v ∈ db.virtualAccounts, v.invoiceId = id →
    (replay (db.eventsOf id)).account = some v.projection
  noAccount : (∀ v ∈ db.virtualAccounts, v.invoiceId ≠ id) →
    (replay (db.eventsOf id)).account = none

/-- The event log reconstructs every invoice and its account, in every committed moment of
every run. -/
theorem events_reconstruct_invoices {db : Database} (hdb : db.Initial)
    {ok : ServiceWorld → Step → Prop} {w : ServiceWorld} (h : Runs ok (.start db) w) :
    ∀ u ≤ w.timeline, ∀ id r, u.now.invoice id = some r → u.now.Reconstructs id r := by
  intro u hu id r hr
  have hreplay := replay_of_run hdb h u hu id
  have hlinked := linked_of_run hdb.van h u hu
  constructor
  · rw [hreplay, status_projection hr]
  · rw [hreplay, signature_projection hr]
  · rintro v hv rfl
    rw [hreplay, account_projection hlinked (mem_virtualAccounts.mp hv)]
  · intro hno
    have hnone : u.now.vanOfInvoice id = none :=
      List.find?_eq_none.mpr fun v hv => by simpa using hno v hv
    rw [hreplay, Database.projection, hnone]
    rfl

/-- The life cycle of one invoice in complete calls, up to its settlement. -/
theorem events_reconstruct_settled_invoice : ∃ w : ServiceWorld,
    Runs SerialStep (.start sampleDb) w ∧ w.quiescent = true ∧
      (w.db.eventsOf sampleId).map InvoiceEvent.eventType =
        ["invoice.submitted", "invoice.buyer_approved", "invoice.financing_requested",
          "van.created", "invoice.repaid"] ∧
      ∀ u ≤ w.timeline, ∀ id r, u.now.invoice id = some r → u.now.Reconstructs id r := by
  have h : (play serialCheck (.start sampleDb) (stepsToAccount ++
      .spawn (.recordPayment (samplePayment 1000 "k")) :: steps 4 17)).map
      (fun w => (w.quiescent, (w.db.eventsOf sampleId).map InvoiceEvent.eventType)) =
      some (true, ["invoice.submitted", "invoice.buyer_approved", "invoice.financing_requested",
        "van.created", "invoice.repaid"]) := by decide +kernel
  obtain ⟨w, hrun, hl⟩ := exists_run_of_play serialStep_of_check h
  simp only [Prod.mk.injEq] at hl
  exact ⟨w, hrun, hl.1, hl.2, events_reconstruct_invoices initial_sampleDb hrun⟩

end Vanguard
