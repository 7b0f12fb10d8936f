import Vanguard.Proofs.Conduct

/-!
# `Vanguard.Proofs.Replies`: what the services send and answer

The programs of the services against `Conduct`, and against two tables of answers.

* `Refusal`: every error that a call may throw, with its reason. The reason is a fact of the
  command or of a database that the call has seen.
* `Replied`: every reply, with the batch that the call has committed and the columns that the
  reply carries.

Both tables are stated over what was seen and what was done, so that they can be read of the
trace of a session, and later of the run. `Call.obeys` is the result for a program on its own,
whatever it is answered.
-/

set_option autoImplicit false

namespace Vanguard

open ReadCommitted

/-! ### The answers -/

/-- Why a call throws. `saw p` says that the call has seen a database as `p` says. -/
inductive Refusal (saw : (Database → Prop) → Prop) : Call → JsError → Prop where
  /-- An error of the driver: a fault, or a constraint. -/
  | driver (c : Call) (e : PgError) : Refusal saw c (.pg e)
  | queue (c : Call) : Refusal saw c .redis
  /-- `updateStatus` finds no row. -/
  | noInvoiceRow (c : Call) (id : Uuid) (h : saw fun db => db.invoice id = none) :
      Refusal saw c (.error ("Invoice " ++ id.text ++ " not found during status update"))
  | noAccountRow (c : Call) (id : Uuid) (h : saw fun db => db.van id = none) :
      Refusal saw c (.error ("VirtualAccount " ++ id.text ++ " not found"))
  | amount {cmd : SubmitInvoiceCommand} {actorId : Uuid} (h : cmd.amountCents ≤ 0) :
      Refusal saw (.submitInvoice cmd actorId) (.error "Invoice amount must be positive")
  | dueDate {cmd : SubmitInvoiceCommand} {actorId : Uuid} (now : Timestamp)
      (h : cmd.dueDate ≤ now) :
      Refusal saw (.submitInvoice cmd actorId) (.error "Due date must be in the future")
  | numberTaken {cmd : SubmitInvoiceCommand} {actorId : Uuid}
      (h : saw fun db => ∃ r ∈ db.invoices, r.invoiceNumber = cmd.invoiceNumber) :
      Refusal saw (.submitInvoice cmd actorId)
        (.error ("Invoice number " ++ cmd.invoiceNumber ++ " already exists"))
  | approveNotFound {cmd : ApproveInvoiceCommand} {actorId : Uuid}
      (h : saw fun db => db.invoice cmd.invoiceId = none) :
      Refusal saw (.approveInvoice cmd actorId) (.invoiceNotFound cmd.invoiceId)
  | notBuyer {cmd : ApproveInvoiceCommand} {actorId : Uuid} (inv : Invoice)
      (h : saw fun db => db.invoice cmd.invoiceId = some inv) (hbuyer : inv.buyerId ≠ cmd.buyerId) :
      Refusal saw (.approveInvoice cmd actorId)
        (.unauthorisedActor "Only the designated buyer can approve this invoice")
  | approveStatus {cmd : ApproveInvoiceCommand} {actorId : Uuid} (inv : Invoice)
      (h : saw fun db => db.invoice cmd.invoiceId = some inv) (hbuyer : inv.buyerId = cmd.buyerId)
      (hstatus : .buyerApproved ∉ validTransitions inv.status) :
      Refusal saw (.approveInvoice cmd actorId) (.invalidTransition inv.status .buyerApproved)
  | signature {cmd : ApproveInvoiceCommand} {actorId : Uuid}
      (h : jsLength cmd.buyerSignature < 10) :
      Refusal saw (.approveInvoice cmd actorId)
        (.error "A valid buyer signature is required for approval")
  | requestNotFound {cmd : RequestFinancingCommand} {actorId : Uuid}
      (h : saw fun db => db.invoice cmd.invoiceId = none) :
      Refusal saw (.requestFinancing cmd actorId) (.invoiceNotFound cmd.invoiceId)
  | notSupplier {cmd : RequestFinancingCommand} {actorId : Uuid} (inv : Invoice)
      (h : saw fun db => db.invoice cmd.invoiceId = some inv)
      (hsupplier : inv.supplierId ≠ cmd.supplierId) :
      Refusal saw (.requestFinancing cmd actorId)
        (.unauthorisedActor "Only the invoice supplier can request financing")
  | requestStatus {cmd : RequestFinancingCommand} {actorId : Uuid} (inv : Invoice)
      (h : saw fun db => db.invoice cmd.invoiceId = some inv)
      (hsupplier : inv.supplierId = cmd.supplierId)
      (hstatus : .financingRequested ∉ validTransitions inv.status) :
      Refusal saw (.requestFinancing cmd actorId)
        (.invalidTransition inv.status .financingRequested)
  | assessNotFound {cmd : AssessInvoiceRiskCommand} {actorId : Uuid}
      (h : saw fun db => db.invoice cmd.invoiceId = none) :
      Refusal saw (.assessAndRecord cmd actorId)
        (.error ("Invoice not found: " ++ cmd.invoiceId.text))
  | notEligible {cmd : AssessInvoiceRiskCommand} {actorId : Uuid} (inv : Invoice)
      (h : saw fun db => db.invoice cmd.invoiceId = some inv)
      (hstatus : inv.status ≠ .financingRequested) :
      Refusal saw (.assessAndRecord cmd actorId) (.invoiceNotEligible cmd.invoiceId inv.status)
  | createNotFound {cmd : CreateVanCommand} (h : saw fun db => db.invoice cmd.invoiceId = none) :
      Refusal saw (.createVan cmd) (.error ("Invoice not found: " ++ cmd.invoiceText.text))
  | createStatus {cmd : CreateVanCommand} (inv : Invoice)
      (h : saw fun db => db.invoice cmd.invoiceId = some inv)
      (hstatus : inv.status ≠ .financingRequested) :
      Refusal saw (.createVan cmd)
        (.error ("Cannot create VAN for invoice in status: " ++ inv.status.text ++
          ". Invoice must be in FINANCING_REQUESTED status."))
  | accountExists {cmd : CreateVanCommand}
      (h : saw fun db => ∃ v ∈ db.virtualAccounts, v.invoiceId = cmd.invoiceId) :
      Refusal saw (.createVan cmd) (.vanAlreadyExists cmd.invoiceText)
  | noAccount {cmd : RecordPaymentCommand}
      (h : saw fun db => db.vanByNumber cmd.accountNumber = none) :
      Refusal saw (.recordPayment cmd) (.vanNotFound cmd.accountNumber)
  | expired {cmd : RecordPaymentCommand} (van : VirtualAccount)
      (h : saw fun db => db.vanByNumber cmd.accountNumber = some van)
      (hstatus : van.status = .expired) :
      Refusal saw (.recordPayment cmd)
        (.error ("Virtual account " ++ cmd.accountNumber ++ " has expired"))
  /-- Some entry has the key of the payment, up to white space at the ends. -/
  | duplicate {cmd : RecordPaymentCommand}
      (h : saw fun db => ∃ e ∈ db.ledgerEntries,
        trim e.idempotencyKey = trim cmd.idempotencyKey) :
      Refusal saw (.recordPayment cmd) (.duplicatePayment cmd.idempotencyKey)
  | settled {cmd : RecordPaymentCommand} (van : VirtualAccount)
      (h : saw fun db => db.vanByNumber cmd.accountNumber = some van)
      (hstatus : van.status = .settled) :
      Refusal saw (.recordPayment cmd)
        (.error ("Virtual account " ++ cmd.accountNumber ++ " is already settled"))

/-- What a call replies. `did p` says that the call has committed a batch as `p` says. -/
inductive Replied (saw : (Database → Prop) → Prop) (did : (List RowVersion → Prop) → Prop) :
    Call → Reply → Prop where
  | submitted {cmd : SubmitInvoiceCommand} {actorId : Uuid} (env : Env) (r : Invoice)
      (now : Timestamp) (hdraft : did fun rows => rows = [.invoice (cmd.draft env)])
      (hrow : did fun rows => invoiceTable.Sets rows r ∧
        .invoiceEvent (submittedEvent actorId (cmd.draft env) now) ∈ rows)
      (hid : r.id = env.uuid) (hstatus : r.status = .submitted) :
      Replied saw did (.submitInvoice cmd actorId) (.invoice r)
  | approved {cmd : ApproveInvoiceCommand} {actorId : Uuid} (r : Invoice)
      (approvedAt now : Timestamp)
      (hrow : did fun rows => invoiceTable.Sets rows r ∧
        .invoiceEvent (approvedEvent cmd actorId approvedAt now) ∈ rows)
      (hid : r.id = cmd.invoiceId) (hstatus : r.status = .buyerApproved) :
      Replied saw did (.approveInvoice cmd actorId) (.invoice r)
  | requested {cmd : RequestFinancingCommand} {actorId : Uuid} (r : Invoice)
      (amountCents : Int) (requestedAt now : Timestamp)
      (hrow : did fun rows => invoiceTable.Sets rows r ∧
        .invoiceEvent (requestedEvent cmd actorId amountCents requestedAt now) ∈ rows)
      (hid : r.id = cmd.invoiceId) (hstatus : r.status = .financingRequested) :
      Replied saw did (.requestFinancing cmd actorId) (.invoice r)
  | assessed {cmd : AssessInvoiceRiskCommand} {actorId : Uuid} (assessedAt now : Timestamp)
      (hrow : did fun rows =>
        .invoiceEvent (assessmentEvent cmd actorId assessedAt now) ∈ rows ∧
          ((assessInvoiceRisk cmd assessedAt).decision = .reject →
            ∃ r, invoiceTable.Sets rows r ∧ r.id = cmd.invoiceId ∧ r.status = .cancelled)) :
      Replied saw did (.assessAndRecord cmd actorId)
        (.assessment (assessInvoiceRisk cmd assessedAt))
  | created {cmd : CreateVanCommand} (van : VirtualAccount) (invoiceNumber : String)
      (start : Env)
      (hrow : did fun rows => rows = [.virtualAccount van,
        .ledgerEntry ((cmd.debit invoiceNumber van.id).row start),
        .invoiceEvent (vanCreatedEvent van start.now)])
      (hinvoice : van.invoiceId = cmd.invoiceId)
      (hexpected : van.expectedAmountCents = cmd.expectedAmountCents)
      (hreceived : van.receivedAmountCents = 0) (hstatus : van.status = .active) :
      Replied saw did (.createVan cmd) (.van van)
  /-- `van` is the account that the call has read, `p.virtualAccount` the one it has written. -/
  | paid {cmd : RecordPaymentCommand} (van : VirtualAccount) (start : Env) (p : VanWithLedger)
      (hvan : saw fun db => db.vanByNumber cmd.accountNumber = some van)
      (hrow : did fun rows => .ledgerEntry ((cmd.credit van.id).row start) ∈ rows ∧
        accountTable.Sets rows p.virtualAccount)
      (hid : p.virtualAccount.id = van.id)
      (hfull : p.virtualAccount.paidInFull → p.virtualAccount.status = .settled)
      (hentries : saw fun db => p.ledgerEntries.Perm (db.entriesOf van.id))
      (hsettled : p.isFullySettled = (p.virtualAccount.status == .settled)) :
      Replied saw did (.recordPayment cmd) (.payment p)

section
variable {saw saw' : (Database → Prop) → Prop} {did did' : (List RowVersion → Prop) → Prop}
  {c : Call}

/-- A refusal stays justified when more has been seen. -/
theorem Refusal.mono (hsaw : ∀ p, saw p → saw' p) {e : JsError} (h : Refusal saw c e) :
    Refusal saw' c e := by
  cases h with
  | driver _ e => exact .driver _ e
  | queue _ => exact .queue _
  | noInvoiceRow _ id h => exact .noInvoiceRow _ id (hsaw _ h)
  | noAccountRow _ id h => exact .noAccountRow _ id (hsaw _ h)
  | amount h => exact .amount h
  | dueDate now h => exact .dueDate now h
  | numberTaken h => exact .numberTaken (hsaw _ h)
  | approveNotFound h => exact .approveNotFound (hsaw _ h)
  | notBuyer inv h hb => exact .notBuyer inv (hsaw _ h) hb
  | approveStatus inv h hb hs => exact .approveStatus inv (hsaw _ h) hb hs
  | signature h => exact .signature h
  | requestNotFound h => exact .requestNotFound (hsaw _ h)
  | notSupplier inv h hb => exact .notSupplier inv (hsaw _ h) hb
  | requestStatus inv h hb hs => exact .requestStatus inv (hsaw _ h) hb hs
  | assessNotFound h => exact .assessNotFound (hsaw _ h)
  | notEligible inv h hs => exact .notEligible inv (hsaw _ h) hs
  | createNotFound h => exact .createNotFound (hsaw _ h)
  | createStatus inv h hs => exact .createStatus inv (hsaw _ h) hs
  | accountExists h => exact .accountExists (hsaw _ h)
  | noAccount h => exact .noAccount (hsaw _ h)
  | expired van h hs => exact .expired van (hsaw _ h) hs
  | duplicate h => exact .duplicate (hsaw _ h)
  | settled van h hs => exact .settled van (hsaw _ h) hs

/-- A reply stays founded when more has been seen and done. -/
theorem Replied.mono (hsaw : ∀ p, saw p → saw' p) (hdid : ∀ p, did p → did' p) {b : Reply}
    (h : Replied saw did c b) : Replied saw' did' c b := by
  cases h with
  | submitted env r now hdraft hrow hid hs =>
      exact .submitted env r now (hdid _ hdraft) (hdid _ hrow) hid hs
  | approved r approvedAt now hrow hid hs => exact .approved r approvedAt now (hdid _ hrow) hid hs
  | requested r amount requestedAt now hrow hid hs =>
      exact .requested r amount requestedAt now (hdid _ hrow) hid hs
  | assessed assessedAt now hrow => exact .assessed assessedAt now (hdid _ hrow)
  | created van number start hrow hi he hr hs =>
      exact .created van number start (hdid _ hrow) hi he hr hs
  | paid van start p hvan hrow hid hf hentries hs =>
      exact .paid van start p (hsaw _ hvan) (hdid _ hrow) hid hf (hsaw _ hentries) hs

end

/-- What a call may throw after its trace. -/
def refuses (c : Call) (e : JsError) (tr : ServiceTrace) : Prop := Refusal tr.Saw c e

/-- What a call may reply after its trace. -/
def replies (c : Call) (b : Reply) (tr : ServiceTrace) : Prop := Replied tr.Saw tr.Did c b

/-- How a call may end after its trace. -/
def Call.answers (c : Call) : Except JsError Reply → ServiceTrace → Prop
  | .ok b => replies c b
  | .error e => refuses c e

/-- Every call may pass on an error of the database. -/
instance (c : Call) : Passes (refuses c) where
  pg _ _ := .driver c _

/-- A refusal of a call stays one along its trace. -/
theorem persists_refuses (c : Call) : Persists (refuses c) :=
  fun _ _ _ hle h => Refusal.mono hle.saw h

/-- A reply of a call stays founded along its trace. -/
theorem persists_replies (c : Call) {α : Type} (f : α → Reply) :
    Persists fun (a : α) (tr : ServiceTrace) => replies c (f a) tr :=
  fun _ _ _ hle h => Replied.mono hle.saw hle.did h

section
variable {α : Type} {seen : List Database} {done : List (List RowVersion)}

/-- A call that rethrows whatever its body throws. -/
theorem idles_rethrow {c : Call} {f : α → Reply} {body : Async α}
    (hbody : ∀ seen', seen ⊆ seen' →
      Takes postgres Conduct body ⟨seen', done, .idle⟩
        (fun a tr => tr.tx = .idle ∧ replies c (f a) tr) (refuses c)) :
    Idles postgres Conduct (withClient body fun err => throw err) seen done
      (fun a => replies c (f a)) (refuses c) :=
  idles_withClient (persists_replies c f) (persists_refuses c) (persists_refuses c) hbody
    fun _ _ _ he => Idles.throw he

end

/-! ### The services -/

/-- `submitInvoice` replies with what it committed, or refuses for what it saw. -/
theorem idles_submitInvoice (cmd : SubmitInvoiceCommand) (actorId : Uuid) :
    Idles postgres Conduct (InvoiceService.submitInvoice cmd actorId) [] []
      (fun r => replies (.submitInvoice cmd actorId) (.invoice r))
      (refuses (.submitInvoice cmd actorId)) := by
  unfold InvoiceService.submitInvoice
  dsimp only
  split
  · rename_i hamount
    exact Idles.throw (.amount hamount)
  refine Idles.bind (idles_newDate fun _ now => ?_)
  split
  · rename_i hdate
    exact Idles.throw (.dueDate now hdate)
  refine Idles.bind (Idles.bind (idles_read rfl fun _ db b hx => Idles.pure ?_))
  obtain rfl : _ = b := congrArg Prod.snd (Except.ok.inj hx)
  rw [Option.head?_toList]
  split
  · rename_i hfound
    obtain ⟨r, hr⟩ := Option.isSome_iff_exists.mp hfound
    refine Idles.throw (.numberTaken ⟨db, by simp, r, ?_, by simpa using List.find?_some hr⟩)
    exact List.mem_of_find?_eq_some hr
  refine idles_rethrow (f := .invoice) fun seen _ => Takes.bind (takes_begin fun start _ => ?_)
  -- The draft is committed while the transaction holds nothing.
  refine Takes.bind (Takes.bind (Takes.pool ⟨rfl, trivial⟩ (fun _ _ _ he => ?_)
    fun env _ rows b hx => ?_))
  · obtain ⟨pe, rfl, -⟩ := postgres_exec_error he
    exact .driver _ pe
  obtain ⟨rfl, rfl, -⟩ := insertInvoice_ok (postgres_exec_ok hx)
  refine Takes.pure (Takes.bind (takes_assertValidTransition (fun h => absurd h (by decide)) ?_))
  refine Takes.bind (takes_updateStatus (fun _ h => absurd h List.not_mem_nil)
    (fun db _ hdb => .noInvoiceRow _ _ ⟨db, by simp, hdb⟩) fun _ r hid hstatus => ?_)
  refine Takes.bind (takes_insertEvent fun _ => Takes.bind (takes_commit fun _ => ?_))
  refine Takes.pure ⟨rfl, .submitted env r start.now
    (Trace.did_before (List.cons_ne_nil _ _) rfl)
    (Trace.did_last (List.cons_ne_nil _ _) ⟨?_, ?_⟩) hid hstatus⟩
  · exact (Lookup.sets_snoc rfl).snoc rfl
  · exact List.mem_append_right _ (List.mem_singleton_self _)

/-- The event that the transaction has inserted last is in what it has committed. -/
theorem recorded_of_commit {seen : List Database} {done : List (List RowVersion)}
    {ws : List RowVersion} {tx : Tx Env RowVersion} {e : InvoiceEvent} {invoiceId : Uuid}
    {eventType : String} (hid : e.invoiceId = invoiceId) (htype : e.eventType = eventType) :
    RecordedEvent ⟨seen, addBatch done (ws ++ [.invoiceEvent e]), tx⟩ invoiceId eventType :=
  ⟨_, mem_addBatch (by simp), e, List.mem_append_right _ (List.mem_singleton_self _), hid, htype⟩

/-- `approveInvoice` replies with what it committed, or refuses for what it saw. -/
theorem idles_approveInvoice (cmd : ApproveInvoiceCommand) (actorId : Uuid) :
    Idles postgres Conduct (InvoiceService.approveInvoice cmd actorId) [] []
      (fun r => replies (.approveInvoice cmd actorId) (.invoice r))
      (refuses (.approveInvoice cmd actorId)) := by
  unfold InvoiceService.approveInvoice
  refine Idles.bind (idles_findInvoice fun db₀ => ?_)
  cases hfound : db₀.invoice cmd.invoiceId with
  | none => exact Idles.throw (.approveNotFound ⟨db₀, by simp, hfound⟩)
  | some invoice =>
      have hid : invoice.id = cmd.invoiceId := Database.invoice_id hfound
      dsimp only
      split
      · rename_i hbuyer
        exact Idles.throw (.notBuyer invoice ⟨db₀, by simp, hfound⟩ hbuyer)
      rename_i hbuyer
      refine Idles.bind (idles_assertValidTransition
        (fun hbad => .approveStatus invoice ⟨db₀, by simp, hfound⟩ (not_not.mp hbuyer) hbad) ?_)
      split
      · rename_i hsignature
        exact Idles.throw (.signature hsignature)
      refine idles_rethrow (f := .invoice) fun seen hseen =>
        Takes.bind (takes_begin fun start _ => ?_)
      have hdb₀ : db₀ ∈ seen := hseen (by simp)
      -- Both updates are of the invoice of the command.
      refine Takes.bind (takes_client (fun _ h => absurd h List.not_mem_nil)
        (fun _ _ _ he => nomatch he) fun env db rows b hx => ?_)
      obtain rfl : _ = rows := congrArg Prod.fst (Except.ok.inj hx)
      refine Takes.bind (takes_updateStatus ?_
        (fun db _ hdb => .noInvoiceRow _ _ ⟨db, by simp, hdb⟩) fun _ r hr hstatus => ?_)
      · intro r hr
        rw [List.nil_append] at hr
        obtain ⟨r₀, hrow, he⟩ := mem_updateRow hr
        cases he
        have hid : r₀.id = invoice.id := Database.invoice_id hrow
        exact hid
      refine Takes.bind (takes_newDate fun _ approvedAt => ?_)
      refine Takes.bind (takes_insertEvent fun _ => Takes.bind (takes_commit fun _ => ?_))
      -- After the `COMMIT`: the organisation, the credential and the notification.
      refine Takes.bind (Takes.bind (takes_read rfl fun _ _ _ _ => Takes.pure ?_))
      refine Takes.bind (Takes.client_idle (takes_read rfl fun env' db' b' hx' => ?_)
        ⟨rfl, trivial⟩)
      obtain rfl : _ = b' := congrArg Prod.snd (Except.ok.inj hx')
      have hevent : CreateEventInput.row ⟨invoice.id, "invoice.buyer_approved",
          .buyerApproved cmd.buyerId cmd.buyerSignature approvedAt, some actorId⟩ start =
          approvedEvent cmd actorId approvedAt start.now := by
        rw [hid]
        rfl
      rw [hevent]
      have hreply : ∀ seen' : List Database, replies (.approveInvoice cmd actorId) (.invoice r)
          ⟨seen', addBatch [] (([] ++ (updateRow RowVersion.invoice
            (fun r => r.sign cmd.buyerSignature start.now)
            ((writeAll db []).invoice invoice.id)).1 ++ [.invoice r]) ++
              [.invoiceEvent (approvedEvent cmd actorId approvedAt start.now)]),
            .idle⟩ := fun seen' =>
        .approved r approvedAt start.now (Trace.did_last (by simp)
          ⟨(Lookup.sets_snoc rfl).snoc rfl, List.mem_append_right _ (List.mem_singleton_self _)⟩)
          (hr.trans hid) hstatus
      split
      · rename_i hemail
        refine Takes.bind (takes_newDate fun _ _ => ?_)
        refine Takes.bind (takes_queueAdd ⟨rfl, hemail, ⟨db', by simp, ?_⟩, ⟨db₀, by simp [hdb₀],
          invoice, ?_, ⟨rfl, rfl, rfl, rfl, rfl, rfl, rfl⟩⟩, ?_⟩ (fun _ => .queue _)
          fun _ => Takes.pure ⟨rfl, hreply _⟩)
        · rw [Option.head?_toList] at hemail ⊢
          cases hcred : db'.credentials.get? invoice.supplierId with
          | none => simp [hcred] at hemail
          | some credential => exact ⟨credential, rfl, rfl⟩
        · exact hid.symm ▸ hfound
        · exact recorded_of_commit hid.symm rfl
      · exact Takes.pure ⟨rfl, hreply _⟩

/-- `requestFinancing` replies with what it committed, or refuses for what it saw. -/
theorem idles_requestFinancing (cmd : RequestFinancingCommand) (actorId : Uuid) :
    Idles postgres Conduct (InvoiceService.requestFinancing cmd actorId) [] []
      (fun r => replies (.requestFinancing cmd actorId) (.invoice r))
      (refuses (.requestFinancing cmd actorId)) := by
  unfold InvoiceService.requestFinancing
  refine Idles.bind (idles_findInvoice fun db₀ => ?_)
  cases hfound : db₀.invoice cmd.invoiceId with
  | none => exact Idles.throw (.requestNotFound ⟨db₀, by simp, hfound⟩)
  | some invoice =>
      have hid : invoice.id = cmd.invoiceId := Database.invoice_id hfound
      dsimp only
      split
      · rename_i hsupplier
        exact Idles.throw (.notSupplier invoice ⟨db₀, by simp, hfound⟩ hsupplier)
      rename_i hsupplier
      refine Idles.bind (idles_assertValidTransition
        (fun hbad => .requestStatus invoice ⟨db₀, by simp, hfound⟩ (not_not.mp hsupplier) hbad) ?_)
      refine idles_rethrow (f := .invoice) fun seen _ =>
        Takes.bind (takes_begin fun start _ => ?_)
      refine Takes.bind (takes_updateStatus (fun _ h => absurd h List.not_mem_nil)
        (fun db _ hdb => .noInvoiceRow _ _ ⟨db, by simp, hdb⟩) fun _ r hr hstatus => ?_)
      refine Takes.bind (takes_newDate fun _ requestedAt => ?_)
      refine Takes.bind (takes_insertEvent fun _ => Takes.bind (takes_commit fun _ => ?_))
      have hevent : CreateEventInput.row ⟨invoice.id, "invoice.financing_requested",
          .financingRequested cmd.supplierId invoice.amountCents requestedAt, some actorId⟩ start =
          requestedEvent cmd actorId invoice.amountCents requestedAt start.now := by
        rw [hid]
        rfl
      rw [hevent]
      exact Takes.pure ⟨rfl, .requested r invoice.amountCents requestedAt start.now
        (Trace.did_last (List.cons_ne_nil _ _)
          ⟨(Lookup.sets_snoc rfl).snoc rfl, List.mem_append_right _ (List.mem_singleton_self _)⟩)
        (hr.trans hid) hstatus⟩

/-- `assessAndRecord` replies with what it committed, or refuses for what it saw. -/
theorem idles_assessAndRecord (cmd : AssessInvoiceRiskCommand) (actorId : Uuid) :
    Idles postgres Conduct (RiskService.assessAndRecord cmd actorId) [] []
      (fun r => replies (.assessAndRecord cmd actorId) (.assessment r))
      (refuses (.assessAndRecord cmd actorId)) := by
  unfold RiskService.assessAndRecord
  refine Idles.bind (idles_findInvoice fun db₀ => ?_)
  cases hfound : db₀.invoice cmd.invoiceId with
  | none => exact Idles.throw (.assessNotFound ⟨db₀, by simp, hfound⟩)
  | some invoice =>
      dsimp only
      split
      · rename_i hstatus
        exact Idles.throw (.notEligible invoice ⟨db₀, by simp, hfound⟩ hstatus)
      refine Idles.bind (idles_newDate fun _ assessedAt => ?_)
      refine idles_rethrow (f := .assessment) fun seen _ =>
        Takes.bind (takes_begin fun start _ => ?_)
      refine Takes.bind (takes_insertEvent fun _ => ?_)
      split
      · -- The event holds no invoice.
        refine Takes.bind (takes_updateStatus (fun r hr => by simp at hr)
          (fun db _ hdb => .noInvoiceRow _ _ ⟨db, by simp, hdb⟩) fun _ r hr hstatus => ?_)
        refine Takes.bind (takes_commit fun _ => ?_)
        exact Takes.pure ⟨rfl, .assessed assessedAt start.now
          (Trace.did_last (List.cons_ne_nil _ _)
            ⟨List.mem_append_left _ (List.mem_singleton_self _),
              fun _ => ⟨r, Lookup.sets_snoc rfl, hr, hstatus⟩⟩)⟩
      · rename_i hdecision
        refine Takes.bind (takes_commit fun _ => ?_)
        exact Takes.pure ⟨rfl, .assessed assessedAt start.now
          (Trace.did_last (List.cons_ne_nil _ _) ⟨List.mem_singleton_self _,
            fun h => absurd h hdecision⟩)⟩

/-- `createVan` replies with what it committed, or refuses for what it saw. -/
theorem idles_createVan (cmd : CreateVanCommand) :
    Idles postgres Conduct (VanService.createVan cmd) [] []
      (fun v => replies (.createVan cmd) (.van v)) (refuses (.createVan cmd)) := by
  unfold VanService.createVan
  refine Idles.bind (idles_findInvoice fun db₀ => ?_)
  cases hfound : db₀.invoice cmd.invoiceId with
  | none => exact Idles.throw (.createNotFound ⟨db₀, by simp, hfound⟩)
  | some invoice =>
      dsimp only
      split
      · rename_i hstatus
        exact Idles.throw (.createStatus invoice ⟨db₀, by simp, hfound⟩ hstatus)
      refine Idles.bind (Idles.bind (idles_read rfl fun _ db b hx => Idles.pure ?_))
      obtain rfl : _ = b := congrArg Prod.snd (Except.ok.inj hx)
      rw [Option.head?_toList]
      split
      · rename_i hexists
        obtain ⟨v, hv⟩ := Option.isSome_iff_exists.mp hexists
        exact Idles.throw (.accountExists ⟨db, by simp, v, List.mem_of_find?_eq_some hv,
          by simpa using List.find?_some hv⟩)
      refine Idles.bind ?_
      refine Idles.bind (idles_newDate fun _ _ => Idles.bind (Idles.ext ⟨trivial, trivial⟩
        (fun _ _ _ he => nomatch he) fun _ _ _ _ => Idles.pure ?_))
      refine Idles.bind (idles_newDate fun _ now => ?_)
      refine idles_rethrow (f := .van) fun seen _ => Takes.bind (takes_begin fun start _ => ?_)
      -- The account, then its ledger entry.
      refine Takes.bind (Takes.bind (takes_client rfl (fun _ _ e _ _ => .driver _ e)
        fun env db rows b hx => ?_))
      obtain ⟨rfl, rfl, -⟩ := insertVan_ok hx
      refine Takes.pure (Takes.bind (takes_insertEntry ⟨rfl, rfl⟩ (fun _ e _ _ => .driver _ e)
        fun _ => ?_))
      refine Takes.bind (takes_insertEvent fun _ => Takes.bind (takes_commit fun _ => ?_))
      exact Takes.pure ⟨rfl, .created _ invoice.invoiceNumber start
        (Trace.did_last (List.cons_ne_nil _ _) rfl) rfl rfl rfl rfl⟩

/-- What the body of `recordPayment` may throw: a unique violation is about the key of the
payment. -/
def PaymentThrows (cmd : RecordPaymentCommand) (e : JsError) (tr : ServiceTrace) : Prop :=
  refuses (.recordPayment cmd) e tr ∧ (e.code? = some "23505" →
    tr.Saw fun db => ∃ e ∈ db.ledgerEntries, trim e.idempotencyKey = trim cmd.idempotencyKey)

/-- The body of a payment may pass on an error of the database that is no duplicate. -/
instance (cmd : RecordPaymentCommand) : Passes (PaymentThrows cmd) where
  pg hcode _ := ⟨.driver _ _, fun h => absurd (Option.some.inj h) hcode⟩

/-- What a payment throws stays justified along its trace. -/
theorem persists_paymentThrows (cmd : RecordPaymentCommand) : Persists (PaymentThrows cmd) :=
  fun e tr tr' hle h =>
    ⟨persists_refuses _ e tr tr' hle h.1, fun hcode => hle.saw _ (h.2 hcode)⟩

/-- The batch of a settlement has the entry and leaves the account settled. -/
theorem settle_batch (updated : VirtualAccount) (entry : LedgerEntry) (o : Option Invoice)
    (f : Invoice → Invoice) (e : InvoiceEvent) :
    .ledgerEntry entry ∈ [.ledgerEntry entry, .virtualAccount updated] ++
        [.virtualAccount updated.settle] ++ (updateRow .invoice f o).1 ++ [.invoiceEvent e] ∧
      accountTable.Sets ([.ledgerEntry entry, .virtualAccount updated] ++
        [.virtualAccount updated.settle] ++ (updateRow .invoice f o).1 ++ [.invoiceEvent e])
        updated.settle := by
  refine ⟨List.mem_cons_self, ?_⟩
  refine Lookup.Sets.snoc (Lookup.Sets.append (Lookup.sets_snoc rfl) fun x hx => ?_) rfl
  obtain ⟨r, -, rfl⟩ := mem_updateRow hx
  rfl

/-- The settle branch: the account that the payment has updated, then its invoice. -/
theorem takes_settle (cmd : RecordPaymentCommand) (van updated : VirtualAccount)
    (hid : updated.id = van.id) {seen : List Database} {done : List (List RowVersion)}
    {entry : LedgerEntry} {start : Env} :
    Takes postgres Conduct (VanService.settle cmd van updated)
      ⟨seen, done, .active start [.ledgerEntry entry, .virtualAccount updated]⟩
      (fun final tr => tr.tx = .idle ∧ seen ⊆ tr.seen ∧ final = updated.settle ∧
        tr.Did fun rows => .ledgerEntry entry ∈ rows ∧ accountTable.Sets rows final)
      (PaymentThrows cmd) := by
  unfold VanService.settle
  have hws : rowLocks (.client (.settleAccount van.id))
      [.ledgerEntry entry, .virtualAccount updated] :=
    ⟨rfl, rfl, fun v hv => by simp at hv; exact hv ▸ hid⟩
  refine Takes.bind (Takes.bind (takes_client hws (fun _ _ _ he => nomatch he)
    fun env db rows b hx => ?_))
  have hrow : (writeAll db [.ledgerEntry entry, .virtualAccount updated]).van van.id =
      some updated := by
    simp [hid]
  have hx := Except.ok.inj hx
  rw [hrow] at hx
  obtain rfl : _ = rows := congrArg Prod.fst hx
  obtain rfl : _ = b := congrArg Prod.snd hx
  refine Takes.pure (Takes.bind (takes_client (fun r hr => by simp [updateRow] at hr)
    (fun _ _ _ he => nomatch he) fun env' db' rows' b' hx' => ?_))
  obtain rfl : _ = rows' := congrArg Prod.fst (Except.ok.inj hx')
  refine Takes.bind (takes_newDate fun _ _ => ?_)
  refine Takes.bind (takes_insertEvent fun _ => Takes.bind (takes_commit fun _ => ?_))
  refine Takes.bind (takes_findInvoice fun db₁ => ?_)
  cases hfound : db₁.invoice van.invoiceId with
  | none =>
      exact Takes.pure ⟨rfl, fun _ h => by simp [h], rfl,
        Trace.did_last (List.cons_ne_nil _ _) (settle_batch updated entry _ _ _)⟩
  | some invoice =>
      have hinvoice : invoice.id = van.invoiceId := Database.invoice_id hfound
      refine Takes.bind (takes_newDate fun _ _ => ?_)
      refine Takes.bind (takes_queueAdd ⟨rfl, ⟨db₁, by simp, invoice, hinvoice ▸ hfound,
        ⟨rfl, rfl, rfl, rfl, rfl, rfl⟩⟩, ?_⟩ (fun _ => ⟨.queue _, fun h => by cases h⟩)
        fun _ => Takes.pure ⟨rfl, fun _ h => by simp [h], rfl,
          Trace.did_last (List.cons_ne_nil _ _) (settle_batch updated entry _ _ _)⟩)
      exact recorded_of_commit hinvoice.symm rfl

/-- `recordPayment` replies with what it committed, or refuses for what it saw. -/
theorem idles_recordPayment (cmd : RecordPaymentCommand) :
    Idles postgres Conduct (VanService.recordPayment cmd) [] []
      (fun p => replies (.recordPayment cmd) (.payment p)) (refuses (.recordPayment cmd)) := by
  unfold VanService.recordPayment
  refine Idles.bind (Idles.bind (idles_read rfl fun _ db₀ b hx => Idles.pure ?_))
  obtain rfl : _ = b := congrArg Prod.snd (Except.ok.inj hx)
  rw [Option.head?_toList]
  cases hfound : db₀.vanByNumber cmd.accountNumber with
  | none =>
      rw [show List.find? _ _ = none from hfound]
      exact Idles.throw (.noAccount ⟨db₀, by simp, hfound⟩)
  | some van =>
      rw [show List.find? _ _ = some van from hfound]
      dsimp only
      split
      · rename_i hstatus
        exact Idles.throw (.expired van ⟨db₀, by simp, hfound⟩ hstatus)
      refine Idles.bind (idles_read rfl fun _ db₁ entries hx => ?_)
      obtain rfl : _ = entries := congrArg Prod.snd (Except.ok.inj hx)
      split
      · rename_i hdup
        obtain ⟨e, he, hkey⟩ := List.any_eq_true.mp hdup
        have he := (List.perm_insertionSort _ _).mem_iff.mp he
        exact Idles.throw (.duplicate ⟨db₁, by simp, e, List.mem_of_mem_filter he,
          beq_iff_eq.mp hkey⟩)
      split
      · rename_i hstatus
        exact Idles.throw (.settled van ⟨db₀, by simp, hfound⟩ hstatus)
      refine idles_withClient (persists_replies _ .payment) (persists_refuses _)
        (persists_paymentThrows cmd) (fun seen hseen => Takes.bind (takes_begin fun start _ => ?_))
        fun err _ _ herr => ?_
      · have hvan : ∀ tr : ServiceTrace, seen ⊆ tr.seen →
            tr.Saw fun db => db.vanByNumber cmd.accountNumber = some van :=
          fun tr h => ⟨db₀, h (hseen (by simp)), hfound⟩
        refine Takes.bind (takes_insertEntry ⟨rfl, rfl⟩ (fun db e _ hkey => ?_) fun _ => ?_)
        · obtain ⟨e', he', hkey⟩ := hkey
          exact ⟨.driver _ e, fun _ => ⟨db, by simp, e', he', congrArg trim hkey⟩⟩
        -- The ledger entry is written, so the account may be updated.
        refine Takes.bind (Takes.bind (takes_client ⟨rfl, rfl, rfl⟩ (fun _ _ _ he _ =>
          Passes.pg (updateReceivedAmount_error he).1 _) fun env db rows b hx => ?_))
        obtain ⟨v, hrow, rfl, rfl⟩ | ⟨hnone, rfl⟩ := updateReceivedAmount_ok hx
        · have hid : v.id = van.id := Database.van_id hrow
          refine Takes.pure ?_
          split
          · rename_i hfull
            refine Takes.bind (Takes.weaken
              (takes_settle cmd van (v.receive cmd.amountCents) hid) ?_ fun _ _ h => h)
            rintro final ⟨seen', done', _⟩ ⟨rfl, hle, rfl, hdid⟩
            refine Takes.bind (takes_commit fun _ => ?_)
            refine Takes.bind (takes_read rfl fun _ db₂ b hx => Takes.pure ⟨rfl, ?_⟩)
            obtain rfl : _ = b := congrArg Prod.snd (Except.ok.inj hx)
            obtain ⟨rows, hrows, hp⟩ := hdid
            have hseen' : seen ⊆ seen' := fun db h => hle (by simp [h])
            exact .paid van start _ (hvan _ fun db h => by simp [hseen' h]) ⟨rows, hrows, hp⟩ hid
              (fun _ => rfl) ⟨db₂, by simp, List.perm_insertionSort _ _⟩ rfl
          · rename_i hopen
            refine Takes.bind (takes_commit fun _ => Takes.bind (Takes.pure ?_))
            refine Takes.bind (takes_commit fun _ => ?_)
            refine Takes.bind (takes_read rfl fun _ db₂ b hx => Takes.pure ⟨rfl, ?_⟩)
            obtain rfl : _ = b := congrArg Prod.snd (Except.ok.inj hx)
            exact .paid van start _ (hvan _ fun _ h => by simp [h])
              (Trace.did_before (List.cons_ne_nil _ _) ⟨List.mem_cons_self, Lookup.sets_snoc rfl⟩)
              hid (fun h => absurd h hopen) ⟨db₂, by simp, List.perm_insertionSort _ _⟩ rfl
        · refine Takes.throw ⟨.noAccountRow _ van.id ⟨db, by simp, ?_⟩, fun h => nomatch h⟩
          simpa using hnone
      · unfold VanService.onPaymentError
        split
        · rename_i hcode
          exact Idles.throw (.duplicate (herr.2 hcode))
        · exact Idles.throw herr.1

/-- Every program keeps to the discipline and answers as the tables say. -/
theorem Call.obeys (c : Call) :
    Obeys postgres Conduct c.answers c.body.run ⟨[], [], .idle⟩ := by
  -- The reply of a call is made of what its service returns.
  have reply : ∀ {β : Type} {p : Async β} {f : β → Reply},
      Idles postgres Conduct p [] [] (fun b => replies c (f b)) (refuses c) →
      Idles postgres Conduct (p >>= fun b => pure (f b)) [] [] (replies c) (refuses c) := fun h =>
    Idles.bind (Idles.weaken h (fun _ _ hb => Idles.pure hb) fun _ _ he => he)
  suffices h : Idles postgres Conduct c.body [] [] (replies c) (refuses c) from h.obeys
  cases c with
  | submitInvoice cmd actorId => exact reply (idles_submitInvoice cmd actorId)
  | approveInvoice cmd actorId => exact reply (idles_approveInvoice cmd actorId)
  | requestFinancing cmd actorId => exact reply (idles_requestFinancing cmd actorId)
  | assessAndRecord cmd actorId => exact reply (idles_assessAndRecord cmd actorId)
  | createVan cmd => exact reply (idles_createVan cmd)
  | recordPayment cmd => exact reply (idles_recordPayment cmd)

end Vanguard
