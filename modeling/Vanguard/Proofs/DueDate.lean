import Vanguard.Database.Driver
import Vanguard.Library.Provenance
import Vanguard.Proofs.Submission

/-!
# `Vanguard.Proofs.DueDate`: the due date from the submission to the notification

A due date goes through four conversions: the text of a date to its UTC midnight, this instant
to the `DATE` column, the column to the `Date` of `findById`, and this instant to the ISO string
of the notification. The first and the last are in UTC, the two of the driver on the clock of
the server. `DueDateSurvives` says that the composition is the identity, in every run of a
server at an offset (`ServerRuns`).

The proof follows the row. No commit changes the due date of an invoice (`DueInvariant`), and
an approval notifies with the due date of a row that it has read (`follows_body`).
`exists_notified` is a run to the notification for every date and offset.

* `dueDate_survives_iff`: the due date survives exactly at the offset of UTC.
* `execAt_zero`: at this offset, and on rows with a midnight, the driver changes nothing, so that
  `postgres` is the engine of such a server.
-/

set_option autoImplicit false

namespace Vanguard

open ReadCommitted Calendar

/-! ### The law -/

/-- A call of a server. -/
abbrev ServerCall :=
  Session Database RowVersion Sql Ext Env JsError Call (Except JsError Reply) Sql.Rows Ext.Res

/-- The rest of the program of a call. -/
abbrev ServerProg :=
  Prog Cmd (fun c => Except JsError (c.Res Sql.Rows Ext.Res)) (Except JsError Reply)

/-- The runs of a server at this offset, from the world `w₀`. -/
abbrev ServerRuns (offset : Int) (w₀ : ServiceWorld) : ServiceWorld → Prop :=
  Run (postgresAt offset) (fun c => c.body.run) (fun _ _ => True) w₀

/-- The date in the column of a row. -/
def Invoice.dueDay (r : Invoice) : CivilDate := localDate 0 r.dueDate

/-- The date in the `due_date` of a notification, an ISO string in UTC. -/
def InvoiceApprovedPayload.dueDay (p : InvoiceApprovedPayload) : CivilDate :=
  localDate 0 p.dueDate

/-- In the run to `w` a submission for the date `d` has saved the invoice `id`, by a command of
its session. The schema makes the UTC midnight of the text of a date. -/
inductive SavedFor (offset : Int) (d : CivilDate) (id : Uuid) (w : ServiceWorld) : Prop where
  | of_step {t₀ : Log} {w₁ w₂ : ServiceWorld} {i : Nat} {env : Env}
      {s : ServerCall} {cmd : SubmitInvoiceCommand} {actorId : Uuid}
      (hw₁ : ServerRuns offset (World.start t₀) w₁) (hs : w₁.sessions[i]? = some s)
      (hcall : s.call = .submitInvoice cmd actorId) (hdate : cmd.dueDate = localMidnight 0 d)
      (hstep : w₁.step (postgresAt offset) (fun c => c.body.run) (.step i env) = some w₂)
      (hnone : w₁.db.invoice id = none) (hsome : w₂.db.invoice id ≠ none)
      (hw : ServerRuns offset w₂ w) : SavedFor offset d id w

/-- A call is about to queue the notification. -/
def Notifies (w : ServiceWorld) (p : InvoiceApprovedPayload) : Prop :=
  ∃ s ∈ w.sessions, ∃ jobId k, s.prog = .call (.ext (.queueAdd (.invoiceApproved p jobId))) k

/-- The due date survives: the row of an invoice that was submitted for `d` has this date, and
so has every notification of the invoice. -/
structure DueDateSurvives (offset : Int) (d : CivilDate) : Prop where
  stored : ∀ w id r, SavedFor offset d id w → w.db.invoice id = some r → r.dueDay = d
  notified : ∀ w id p, SavedFor offset d id w → Notifies w p → p.invoiceId = id → p.dueDay = d

/-! ### What a call sends -/

/-- What a call may send after it has read the invoices: a submission inserts its own due date,
an approval notifies with the due date of a row that it has read, and no invoice is inserted
inside a transaction. -/
def Call.Sends (c : Call) (read : List Invoice) : Cmd → Prop
  | .client (.insertInvoice _) => False
  | .pool (.insertInvoice input) =>
    ∃ cmd actorId, c = .submitInvoice cmd actorId ∧ input.dueDate = cmd.dueDate
  | .ext (.queueAdd (.invoiceApproved p _)) =>
    ∃ r ∈ read, r.id = p.invoiceId ∧ r.dueDate = p.dueDate
  | _ => True

/-- The invoices that a call reads by their id. -/
def Cmd.reads : (c : Cmd) → Except JsError (c.Res Sql.Rows Ext.Res) → List Invoice
  | .pool (.selectInvoiceById _), .ok rows => rows
  | _, _ => []

/-- What a call may send, it may send after having read more. -/
theorem Call.sends_append (c : Call) {read : List Invoice} (q : Cmd) (more : List Invoice)
    (h : c.Sends read q) : c.Sends (read ++ more) q := by
  revert h
  unfold Call.Sends
  split
  · exact id
  · exact id
  · rintro ⟨r, hr, h⟩
    exact ⟨r, List.mem_append_left _ hr, h⟩
  · exact id

section
variable {c : Call} {read : List Invoice} {α : Type}

/-- The check of a transition sends nothing. -/
theorem only_assertValidTransition (current next : InvoiceStatus) :
    (assertValidTransition current next).run.Only (c.Sends read) := by
  unfold assertValidTransition
  split
  · exact Await.only_pure ()
  · exact Await.only_throw _

/-- The update of a status inserts no invoice. -/
theorem only_updateStatus (id : Uuid) (status : InvoiceStatus) :
    (InvoiceRepository.updateStatus id status .client).run.Only (c.Sends read) :=
  Await.only_bind (Await.only_await trivial) fun _ => only_firstRowOr _ _

/-- The INSERT of an event inserts no invoice. -/
theorem only_append (input : CreateEventInput) :
    (EventRepository.append input .client).run.Only (c.Sends read) :=
  Await.only_bind (Await.only_await trivial) fun _ => only_firstRow _

/-- `withClient` adds only the commands of a transaction. -/
theorem only_withClient {body : Async α} {handler : JsError → Async α}
    (hbody : body.run.Only (c.Sends read)) (hhandler : ∀ e, (handler e).run.Only (c.Sends read)) :
    (withClient body handler).run.Only (c.Sends read) := by
  refine Await.only_bind (Await.only_await trivial) fun _ => ?_
  refine Await.only_tryFinally hbody (fun e => ?_) (Await.only_await trivial)
  exact Await.only_bind (Await.only_await trivial) fun _ => hhandler e

/-- A statement that may be sent, and a program that goes on from its rows. -/
theorem only_poolQuery {q : Sql} (hq : c.Sends read (.pool q)) {f : q.Rows → Async α}
    (hf : ∀ rows, (f rows).run.Only (c.Sends read)) :
    (poolQuery q >>= f).run.Only (c.Sends read) :=
  Await.only_bind (Await.only_await hq) hf

/-- A method of a repository that looks something up. -/
theorem only_lookup {β : Type} {q : Sql} (hq : c.Sends read (.pool q)) {g : q.Rows → β}
    {f : β → Async α} (hf : ∀ found, (f found).run.Only (c.Sends read)) :
    ((do let rows ← poolQuery q; pure (g rows)) >>= f).run.Only (c.Sends read) :=
  Await.only_bind (only_poolQuery hq fun _ => Await.only_pure _) hf

/-- A statement on the client, and what follows it. -/
theorem only_clientQuery {q : Sql} (hq : c.Sends read (.client q)) {f : q.Rows → Async α}
    (hf : ∀ rows, (f rows).run.Only (c.Sends read)) :
    (clientQuery q >>= f).run.Only (c.Sends read) :=
  Await.only_bind (Await.only_await hq) hf

/-- Reading the clock, and what follows it. -/
theorem only_newDate {f : Timestamp → Async α} (hf : ∀ now, (f now).run.Only (c.Sends read)) :
    (newDate >>= f).run.Only (c.Sends read) :=
  Await.only_bind (Await.only_await trivial) hf

/-- `BEGIN`, and what follows it. -/
theorem only_begin {f : Unit → Async α} (hf : (f ()).run.Only (c.Sends read)) :
    (begin >>= f).run.Only (c.Sends read) :=
  Await.only_bind (Await.only_await trivial) fun _ => hf

/-- `COMMIT`, and what follows it. -/
theorem only_commit {f : Unit → Async α} (hf : (f ()).run.Only (c.Sends read)) :
    (commit >>= f).run.Only (c.Sends read) :=
  Await.only_bind (Await.only_await trivial) fun _ => hf

end

/-- A submission inserts its own due date. -/
theorem only_submitInvoice (cmd : SubmitInvoiceCommand) (actorId : Uuid) (read : List Invoice) :
    (InvoiceService.submitInvoice cmd actorId).run.Only
      ((Call.submitInvoice cmd actorId).Sends read) := by
  rw [InvoiceService.submitInvoice]
  split
  · exact Await.only_throw _
  refine only_newDate fun now => ?_
  split
  · exact Await.only_throw _
  refine only_lookup (by trivial) fun existing => ?_
  split
  · exact Await.only_throw _
  refine only_withClient ?_ fun e => Await.only_throw e
  refine only_begin ?_
  have hsave : (InvoiceRepository.save cmd.input).run.Only
      ((Call.submitInvoice cmd actorId).Sends read) :=
    only_poolQuery (q := .insertInvoice cmd.input) ⟨cmd, actorId, rfl, rfl⟩ fun _ => only_firstRow _
  refine Await.only_bind hsave fun invoice => ?_
  refine Await.only_bind (only_assertValidTransition _ _) fun _ => ?_
  refine Await.only_bind (only_updateStatus _ _) fun submitted => ?_
  refine Await.only_bind (only_append _) fun _ => ?_
  exact only_commit (Await.only_pure _)

section
variable {c : Call} {read : List Invoice}

/-- A financing request sends no due date. -/
theorem only_requestFinancing (cmd : RequestFinancingCommand) (actorId : Uuid) :
    (InvoiceService.requestFinancing cmd actorId).run.Only (c.Sends read) := by
  rw [InvoiceService.requestFinancing]
  refine only_lookup (by trivial) fun found => ?_
  cases found with
  | none => exact Await.only_throw _
  | some invoice =>
      dsimp only
      split
      · exact Await.only_throw _
      refine Await.only_bind (only_assertValidTransition _ _) fun _ => ?_
      refine only_withClient ?_ fun e => Await.only_throw e
      refine only_begin ?_
      refine Await.only_bind (only_updateStatus _ _) fun _ => ?_
      refine only_newDate fun _ => ?_
      refine Await.only_bind (only_append _) fun _ => ?_
      exact only_commit (Await.only_pure _)

/-- An assessment sends no due date. -/
theorem only_assessAndRecord (cmd : AssessInvoiceRiskCommand) (actorId : Uuid) :
    (RiskService.assessAndRecord cmd actorId).run.Only (c.Sends read) := by
  rw [RiskService.assessAndRecord]
  refine only_lookup (by trivial) fun found => ?_
  cases found with
  | none => exact Await.only_throw _
  | some invoice =>
      dsimp only
      split
      · exact Await.only_throw _
      refine only_newDate fun assessedAt => ?_
      refine only_withClient ?_ fun e => Await.only_throw e
      refine only_begin ?_
      refine Await.only_bind (only_append _) fun _ => ?_
      split
      · refine Await.only_bind (only_updateStatus _ _) fun _ => ?_
        exact only_commit (Await.only_pure _)
      · exact only_commit (Await.only_pure _)

/-- Opening an account sends no due date. -/
theorem only_createVan (cmd : CreateVanCommand) :
    (VanService.createVan cmd).run.Only (c.Sends read) := by
  rw [VanService.createVan]
  refine only_lookup (by trivial) fun found => ?_
  cases found with
  | none => exact Await.only_throw _
  | some invoice =>
      dsimp only
      split
      · exact Await.only_throw _
      refine only_lookup (by trivial) fun existing => ?_
      split
      · exact Await.only_throw _
      have hnumber : VanService.generateAccountNumber.run.Only (c.Sends read) :=
        only_newDate fun _ => Await.only_bind (Await.only_await trivial) fun _ => Await.only_pure _
      refine Await.only_bind hnumber fun accountNumber => ?_
      refine only_newDate fun now => ?_
      refine only_withClient ?_ fun e => Await.only_throw e
      refine only_begin ?_
      refine Await.only_bind (only_clientQuery (by trivial) fun _ => only_firstRow _) fun van => ?_
      refine Await.only_bind (only_clientQuery (by trivial) fun _ => only_firstRow _) fun _ => ?_
      refine Await.only_bind (only_append _) fun _ => ?_
      exact only_commit (Await.only_pure _)

/-- A settlement sends no due date: its job has none. -/
theorem only_settle (cmd : RecordPaymentCommand) (van updated : VirtualAccount) :
    (VanService.settle cmd van updated).run.Only (c.Sends read) := by
  rw [VanService.settle]
  refine Await.only_bind (only_clientQuery (by trivial) fun _ => only_firstRowOr _ _)
    fun final => ?_
  refine only_clientQuery (by trivial) fun _ => ?_
  refine only_newDate fun _ => ?_
  refine Await.only_bind (only_append _) fun _ => ?_
  refine only_commit ?_
  refine only_lookup (by trivial) fun found => ?_
  cases found with
  | none => exact Await.only_pure _
  | some invoice =>
      -- The receipt has no due date.
      refine only_newDate fun _ => ?_
      exact Await.only_bind (Await.only_await trivial) fun _ => Await.only_pure _

/-- A payment sends no due date. -/
theorem only_recordPayment (cmd : RecordPaymentCommand) :
    (VanService.recordPayment cmd).run.Only (c.Sends read) := by
  rw [VanService.recordPayment]
  refine only_lookup (by trivial) fun found => ?_
  cases found with
  | none => exact Await.only_throw _
  | some van =>
      dsimp only
      split
      · exact Await.only_throw _
      refine only_poolQuery (by trivial) fun entries => ?_
      split
      · exact Await.only_throw _
      split
      · exact Await.only_throw _
      refine only_withClient ?_ fun e => ?_
      · refine only_begin ?_
        refine Await.only_bind (only_clientQuery (by trivial) fun _ => only_firstRow _) fun _ => ?_
        refine Await.only_bind (only_clientQuery (by trivial) fun _ => only_firstRowOr _ _)
          fun updated => ?_
        -- Both ways to the end of the transaction, and the ledger of the answer.
        have hreply : ∀ final : VirtualAccount, (do
            commit
            let ledgerEntries ← VanRepository.getLedgerEntries van.id
            pure ({ virtualAccount := final
                    ledgerEntries := ledgerEntries
                    isFullySettled := final.status == .settled } : VanWithLedger) :
              Async VanWithLedger).run.Only (c.Sends read) := fun final =>
          only_commit (only_poolQuery (by trivial) fun _ => Await.only_pure _)
        split
        · exact Await.only_bind (only_settle cmd van updated) hreply
        · exact only_commit (hreply updated)
      · unfold VanService.onPaymentError
        split
        · exact Await.only_throw _
        · exact Await.only_throw _

end

/-- The rest of an approval, after it has read the invoice. -/
theorem follows_approveInvoice (cmd : ApproveInvoiceCommand) (actorId : Uuid) :
    (InvoiceService.approveInvoice cmd actorId).run.Follows Cmd.reads
      ((Call.approveInvoice cmd actorId).Sends) [] := by
  rw [InvoiceService.approveInvoice, InvoiceRepository.findById, poolQuery]
  refine Await.follows_lookup_bind (show Call.Sends _ _ _ from trivial)
    fun (rows : List Invoice) => ?_
  refine Prog.Follows.of_only (Call.sends_append _) ?_
  cases hfound : rows.head? with
  | none => exact Await.only_throw _
  | some invoice =>
      have hmem : invoice ∈ rows := List.mem_of_head? hfound
      dsimp only
      split
      · exact Await.only_throw _
      refine Await.only_bind (only_assertValidTransition _ _) fun _ => ?_
      split
      · exact Await.only_throw _
      refine only_withClient ?_ fun e => Await.only_throw e
      refine only_begin ?_
      refine only_clientQuery (by trivial) fun _ => ?_
      refine Await.only_bind (only_updateStatus _ _) fun approved => ?_
      refine only_newDate fun _ => ?_
      refine Await.only_bind (only_append _) fun _ => ?_
      refine only_commit ?_
      refine only_lookup (by trivial) fun _ => ?_
      refine only_clientQuery (by trivial) fun credential => ?_
      split
      · refine only_newDate fun _ => ?_
        -- The notification has the due date of the row.
        have hqueue : ∀ p jobId, p.invoiceId = invoice.id → p.dueDate = invoice.dueDate →
            (queueAdd (.invoiceApproved p jobId)).run.Only
              ((Call.approveInvoice cmd actorId).Sends rows) := fun p jobId hid hdue =>
          Await.only_await ⟨invoice, hmem, hid.symm, hdue.symm⟩
        exact Await.only_bind (hqueue _ _ rfl rfl) fun _ => Await.only_pure _
      · exact Await.only_pure _

/-- Every call sends what it may send. -/
theorem follows_body (c : Call) : c.body.run.Follows Cmd.reads c.Sends [] := by
  cases c with
  | submitInvoice cmd actorId =>
      refine Prog.Follows.of_only (Call.sends_append _) ?_
      exact Await.only_bind (only_submitInvoice cmd actorId []) fun _ => Await.only_pure _
  | approveInvoice cmd actorId =>
      exact Await.follows_bind (follows_approveInvoice cmd actorId) fun _ _ => trivial
  | requestFinancing cmd actorId =>
      refine Prog.Follows.of_only (Call.sends_append _) ?_
      exact Await.only_bind (only_requestFinancing cmd actorId) fun _ => Await.only_pure _
  | assessAndRecord cmd actorId =>
      refine Prog.Follows.of_only (Call.sends_append _) ?_
      exact Await.only_bind (only_assessAndRecord cmd actorId) fun _ => Await.only_pure _
  | createVan cmd =>
      refine Prog.Follows.of_only (Call.sends_append _) ?_
      exact Await.only_bind (only_createVan cmd) fun _ => Await.only_pure _
  | recordPayment cmd =>
      refine Prog.Follows.of_only (Call.sends_append _) ?_
      exact Await.only_bind (only_recordPayment cmd) fun _ => Await.only_pure _

/-! ### The due date of a row -/

/-- The due date of the invoice with the id. -/
def Database.dueDate (db : Database) (id : Uuid) : Option Timestamp :=
  (db.invoice id).map Invoice.dueDate

/-- A write changes the due date of the invoice that is written, and of no other. -/
theorem Database.dueDate_write (db : Database) (v : RowVersion) (id : Uuid) :
    (db.write v).dueDate id = match v with
      | .invoice r => if r.id = id then some r.dueDate else db.dueDate id
      | _ => db.dueDate id := by
  cases v with
  | invoice r =>
      simp only [Database.dueDate, Database.invoice_write_invoice]
      split <;> rfl
  | virtualAccount r => rfl
  | ledgerEntry r => rfl
  | invoiceEvent r => rfl

/-- A due date stays when every new version of its row has it. -/
theorem Database.dueDate_writeAll {db : Database} {rows : List RowVersion} {id : Uuid}
    {x : Timestamp} (h : db.dueDate id = some x)
    (hrows : ∀ r, .invoice r ∈ rows → r.id = id → r.dueDate = x) :
    (writeAll db rows).dueDate id = some x := by
  induction rows generalizing db with
  | nil => exact h
  | cons v rows ih =>
      refine ih ?_ fun r hr => hrows r (List.mem_cons_of_mem _ hr)
      show (db.write v).dueDate id = some x
      rw [Database.dueDate_write]
      cases v with
      | invoice r =>
          dsimp only
          split
          · rename_i hid
            rw [hrows r List.mem_cons_self hid]
          · exact h
      | virtualAccount r => exact h
      | ledgerEntry r => exact h
      | invoiceEvent r => exact h

/-- A due date was there before, or one of the new versions has it. -/
theorem Database.dueDate_writeAll_cases {db : Database} {rows : List RowVersion} {id : Uuid}
    {x : Timestamp} (h : (writeAll db rows).dueDate id = some x) :
    db.dueDate id = some x ∨ ∃ r, .invoice r ∈ rows ∧ r.id = id ∧ r.dueDate = x := by
  induction rows generalizing db with
  | nil => exact Or.inl h
  | cons v rows ih =>
      rcases ih h with h | ⟨r, hr, h⟩
      · replace h : (db.write v).dueDate id = some x := h
        rw [Database.dueDate_write] at h
        cases v with
        | invoice r =>
            dsimp only at h
            split at h
            · rename_i hid
              exact Or.inr ⟨r, List.mem_cons_self, hid, Option.some.inj h⟩
            · exact Or.inl h
        | virtualAccount r => exact Or.inl h
        | ledgerEntry r => exact Or.inl h
        | invoiceEvent r => exact Or.inl h
      · exact Or.inr ⟨r, List.mem_cons_of_mem _ hr, h⟩

/-- The due date of an invoice that is there is the one of its row. -/
theorem Database.dueDate_of_invoice {db : Database} {id : Uuid} {r : Invoice}
    (h : db.invoice id = some r) : db.dueDate id = some r.dueDate := by
  rw [Database.dueDate, h]
  rfl

section
variable {start env : Env} {db : Database} {rows : List RowVersion} {r : Invoice}

/-- A new version of a row keeps its due date. -/
theorem dueDate_updateRow {id : Uuid} {f : Invoice → Invoice}
    (hr : .invoice r ∈ (updateRow .invoice f (db.invoice id)).1)
    (hf : ∀ r, (f r).id = r.id ∧ (f r).dueDate = r.dueDate) :
    db.dueDate r.id = some r.dueDate := by
  cases hfound : db.invoice id with
  | none =>
      rw [hfound] at hr
      cases hr
  | some r₀ =>
      rw [hfound] at hr
      obtain ⟨rfl⟩ := List.mem_singleton.mp hr
      rw [(hf r₀).1, (hf r₀).2, Database.invoice_id hfound]
      exact Database.dueDate_of_invoice hfound

/-- A statement writes an invoice with the due date that it has, or inserts one. -/
theorem exec_invoice {q : Sql} {answer : q.Rows} (h : q.exec start env db = .ok (rows, answer))
    (hr : .invoice r ∈ rows) : db.dueDate r.id = some r.dueDate ∨
      ∃ input, q = .insertInvoice input ∧ db.invoice r.id = none ∧
        r.dueDate = dateColumn input.dueDate := by
  cases q with
  | insertInvoice input =>
      obtain ⟨rfl, -, -, -, hnone⟩ := insertInvoice_ok h
      obtain ⟨rfl⟩ := List.mem_singleton.mp hr
      exact Or.inr ⟨input, rfl, hnone, rfl⟩
  | updateInvoiceStatus id status =>
      obtain rfl : _ = rows := congrArg Prod.fst (Except.ok.inj h)
      exact Or.inl (dueDate_updateRow hr fun r => ⟨rfl, rfl⟩)
  | updateInvoiceSignature id signature =>
      obtain rfl : _ = rows := congrArg Prod.fst (Except.ok.inj h)
      exact Or.inl (dueDate_updateRow hr fun r => ⟨rfl, rfl⟩)
  | insertVan input =>
      obtain ⟨rfl, -⟩ := insertVan_ok h
      cases List.mem_singleton.mp hr
  | updateReceivedAmount id additional =>
      simp only [Sql.exec] at h
      split at h
      · cases h
        cases hr
      · obtain ⟨-, h⟩ := check_bind_ok h
        obtain ⟨-, h⟩ := check_bind_ok h
        cases h
        cases List.mem_singleton.mp hr
  | settleAccount id =>
      obtain rfl : _ = rows := congrArg Prod.fst (Except.ok.inj h)
      cases hfound : db.van id with
      | none =>
          rw [hfound] at hr
          cases hr
      | some v =>
          rw [hfound] at hr
          cases List.mem_singleton.mp hr
  | insertLedgerEntry input =>
      obtain ⟨rfl, -⟩ := insertLedgerEntry_ok h
      cases List.mem_singleton.mp hr
  | insertEvent input =>
      obtain ⟨rfl, -⟩ := insertEvent_ok h
      cases List.mem_singleton.mp hr
  | selectInvoiceById | selectInvoiceByNumber | selectVanByInvoiceId | selectVanByAccountNumber
  | selectLedgerEntries | selectEvents | selectOrganisation | selectCredential =>
      cases h
      cases hr

variable {offset : Int}

/-- A mapped result that is there comes from a result that was. -/
theorem except_map_ok {ε α β : Type} {x : Except ε α} {f : α → β} {b : β}
    (h : x.map f = .ok b) : ∃ a, x = .ok a ∧ f a = b := by
  cases x with
  | ok a => exact ⟨a, rfl, Except.ok.inj h⟩
  | error e => cases h

/-- A statement that succeeded has run as `execAt` says, without a fault. -/
theorem exec_postgresAt {q : Sql} {a : List RowVersion × q.Rows}
    (h : (postgresAt offset).exec q start env db = .ok a) :
    q.execAt offset start env db = .ok a := by
  replace h : (q.execAt offset start env db).mapError JsError.pg = .ok a := h
  cases hx : q.execAt offset start env db with
  | ok a' =>
      rw [hx] at h
      rw [Except.ok.inj h]
  | error e =>
      rw [hx] at h
      cases h

/-- Apart from the INSERT of an invoice, only the reading of a row depends on the
offset. -/
theorem execAt_of_ne {q : Sql} (h : ∀ input, q ≠ .insertInvoice input) :
    q.execAt offset start env db =
      (q.exec start env db).map fun a => (a.1, q.decode offset a.2) := by
  cases q with
  | insertInvoice input => exact absurd rfl (h input)
  | _ => rfl

/-- An inserted row has the local date of its parameter. -/
theorem execAt_invoice {q : Sql} {answer : q.Rows}
    (h : q.execAt offset start env db = .ok (rows, answer)) (hr : .invoice r ∈ rows) :
    db.dueDate r.id = some r.dueDate ∨ ∃ input, q = .insertInvoice input ∧
      db.invoice r.id = none ∧ r.dueDate = toDateColumn offset input.dueDate := by
  by_cases hq : ∀ input, q ≠ .insertInvoice input
  · rw [execAt_of_ne hq] at h
    obtain ⟨⟨rows', answer'⟩, hx, h⟩ := except_map_ok h
    cases h
    rcases exec_invoice hx hr with hdue | ⟨input, rfl, -⟩
    · exact Or.inl hdue
    · exact absurd rfl (hq input)
  · obtain ⟨input, hinput⟩ := not_forall.mp hq
    obtain rfl := not_not.mp hinput
    obtain ⟨⟨rows', answer'⟩, hx, h⟩ := except_map_ok h
    cases h
    rcases exec_invoice hx hr with hdue | ⟨input', hinput, hnone, hdue⟩
    · exact Or.inl hdue
    · cases hinput
      exact Or.inr ⟨input, rfl, hnone, hdue.trans (dateColumn_toDateColumn offset _)⟩

end

/-! ### A server at UTC -/

/-- The instant is a midnight of UTC. -/
def IsMidnight (t : Timestamp) : Prop := toDateColumn 0 t = t

/-- Every due date of the database is a midnight of UTC. -/
def Database.Dated (db : Database) : Prop := ∀ r ∈ db.invoices, IsMidnight r.dueDate

/-- The rows with a midnight pass the driver of a server at UTC. -/
theorem map_decode_zero {rows : List Invoice} (h : ∀ r ∈ rows, IsMidnight r.dueDate) :
    rows.map (Invoice.decode 0) = rows := by
  have hid : rows.map (Invoice.decode 0) = rows.map id := by
    refine List.map_congr_left fun r hr => ?_
    show { r with dueDate := toDateColumn 0 r.dueDate } = r
    rw [h r hr]
  rw [hid, List.map_id]

/-- An UPDATE that keeps the due date returns a row whose due date is a midnight. -/
theorem updateRow_midnight {db : Database} {f : Invoice → Invoice} {id : Uuid}
    (hdb : db.Dated) (hf : ∀ r, (f r).dueDate = r.dueDate) :
    ∀ r ∈ (updateRow .invoice f (db.invoice id)).2, IsMidnight r.dueDate := by
  cases hfound : db.invoice id with
  | none => exact fun r hr => absurd hr List.not_mem_nil
  | some r₀ =>
      intro r hr
      obtain rfl := List.mem_singleton.mp hr
      rw [hf r₀]
      exact hdb r₀ (Table.mem_of_get? hfound)

/-- What the column holds is a midnight at UTC. -/
theorem isMidnight_dateColumn (t : Timestamp) : IsMidnight (dateColumn t) := by
  have h := dateColumn_toDateColumn 0 t
  rw [toDateColumn_eq, Int.add_zero] at h
  rw [IsMidnight, toDateColumn_eq, Int.add_zero, h]

/-- What a statement answers on midnights passes the driver of a server at UTC. -/
theorem decode_zero {q : Sql} {start env : Env} {db : Database}
    (hdb : db.Dated) {rows : List RowVersion} {answer : q.Rows} (h : q.exec start env db = .ok (rows, answer)) :
    q.decode 0 answer = answer := by
  cases q with
  | selectInvoiceById id =>
      obtain rfl : _ = answer := congrArg Prod.snd (Except.ok.inj h)
      refine map_decode_zero fun r hr => hdb r ?_
      exact Table.mem_of_get? (Option.mem_toList.mp hr)
  | selectInvoiceByNumber number =>
      obtain rfl : _ = answer := congrArg Prod.snd (Except.ok.inj h)
      refine map_decode_zero fun r hr => hdb r ?_
      exact List.mem_of_find?_eq_some (Option.mem_toList.mp hr)
  | insertInvoice input =>
      obtain ⟨-, rfl, -⟩ := insertInvoice_ok h
      refine map_decode_zero fun r hr => ?_
      obtain rfl := List.mem_singleton.mp hr
      exact isMidnight_dateColumn input.dueDate
  | updateInvoiceStatus id status =>
      obtain rfl : _ = answer := congrArg Prod.snd (Except.ok.inj h)
      exact map_decode_zero (updateRow_midnight hdb fun r => rfl)
  | updateInvoiceSignature id signature =>
      obtain rfl : _ = answer := congrArg Prod.snd (Except.ok.inj h)
      exact map_decode_zero (updateRow_midnight hdb fun r => rfl)
  | _ => rfl

/-- On due dates that are midnights a server at UTC sees `postgres`. -/
theorem execAt_zero {q : Sql} {start env : Env} {db : Database}
    (hdb : db.Dated) : q.execAt 0 start env db = q.exec start env db := by
  have hmap : q.execAt 0 start env db =
      (q.exec start env db).map fun a => (a.1, q.decode 0 a.2) := by
    by_cases hne : ∀ input, q ≠ .insertInvoice input
    · exact execAt_of_ne hne
    · obtain ⟨input, hinput⟩ := not_forall.mp hne
      obtain rfl := not_not.mp hinput
      -- The column keeps the same date of the parameter and of the instant of the service.
      have hrow : (input.encode 0).row start env = input.row start env := by
        have hdate : dateColumn (toDateColumn 0 input.dueDate) = dateColumn input.dueDate := by
          rw [dateColumn_toDateColumn, toDateColumn_eq, Int.add_zero]
        rw [CreateInvoiceInput.row, CreateInvoiceInput.encode, hdate]
        rfl
      rw [Sql.execAt, Sql.exec, hrow]
      rfl
  rw [hmap]
  cases hx : q.exec start env db with
  | ok a => exact congrArg (fun answer => Except.ok (a.1, answer)) (decode_zero hdb hx)
  | error e => rfl

/-! ### The runs -/

section
variable {offset : Int} {w w' : ServiceWorld}

/-- The invoice has been read from the database. -/
def ReadFrom (offset : Int) (db : Database) (r : Invoice) : Prop :=
  (db.dueDate r.id).map (ofDateColumn offset) = some r.dueDate

/-- The invariant of the runs: no uncommitted version of an invoice has another due date than
its row, and every call sends what it has read. -/
structure DueInvariant (offset : Int) (w : ServiceWorld) : Prop where
  uncommitted : ∀ s ∈ w.sessions, ∀ r, .invoice r ∈ s.tx.writes →
    w.db.dueDate r.id = some r.dueDate
  follows : w.Follows Cmd.reads Call.Sends (ReadFrom offset)

/-- The invoice of a submission that is new in the database, with its local date. -/
def Saves (offset : Int) (db : Database) (c : Call) (r : Invoice) : Prop :=
  db.invoice r.id = none ∧ ∃ cmd actorId, c = .submitInvoice cmd actorId ∧
    r.dueDate = toDateColumn offset cmd.dueDate

/-- What a command writes: a version with the due date of its row, or the row of a
submission, on the pool. -/
theorem writes_invoice {db : Database} {env : Env} {tx : Tx Env RowVersion} {call : Call}
    {read : List Invoice} {c : Cmd} {r : Invoice}
    (htx : ∀ r, .invoice r ∈ tx.writes → db.dueDate r.id = some r.dueDate)
    (hc : call.Sends read c) (h : (postgresAt offset).Writes env db tx (.invoice r) c) :
    db.dueDate r.id = some r.dueDate ∨ (Saves offset db call r ∧ ∀ q, c ≠ .client q) := by
  cases c with
  | begin | commit | rollback => cases h
  | ext e => cases h
  | client q =>
      obtain ⟨start, rows, answer, hx, hr⟩ := h
      rcases execAt_invoice (exec_postgresAt hx) hr with hdue | ⟨input, rfl, -⟩
      · -- The row of the transaction is a version of the committed one.
        refine Or.inl ?_
        rcases Database.dueDate_writeAll_cases hdue with hdue | ⟨r', hr', hid, hdue⟩
        · exact hdue
        · rw [← hid, ← hdue]
          exact htx r' hr'
      · exact hc.elim
  | pool q =>
      obtain ⟨rows, answer, hx, hr⟩ := h
      rcases execAt_invoice (exec_postgresAt hx) hr with hdue | ⟨input, rfl, hnone, hdue⟩
      · exact Or.inl hdue
      · obtain ⟨cmd, actorId, hcall, hinput⟩ := hc
        refine Or.inr ⟨⟨hnone, cmd, actorId, hcall, ?_⟩, fun q => by simp⟩
        rw [hdue, hinput]

/-- What a session commits: versions with the due date of their row, or the row of its
submission. -/
theorem DueInvariant.publish_invoice (h : DueInvariant offset w) {i : Nat} {env : Env}
    {s : ServerCall} (hs : w.sessions[i]? = some s) {c : Cmd}
    {k : Except JsError (c.Res Sql.Rows Ext.Res) → ServerProg} (hk : s.prog = .call c k)
    {r : Invoice} (hr : .invoice r ∈ ((postgresAt offset).step c env w.db s.tx).publish) :
    w.db.dueDate r.id = some r.dueDate ∨ Saves offset w.db s.call r := by
  have hmem : s ∈ w.sessions := List.mem_of_getElem? hs
  obtain ⟨read, -, hsends⟩ := h.follows.sent hmem hk
  rcases Engine.publish_cases hr with hr | hr
  · exact Or.inl (h.uncommitted s hmem r hr)
  · exact (writes_invoice (h.uncommitted s hmem) hsends hr).imp_right And.left

/-- A due date stays, since every commit keeps it. -/
theorem DueInvariant.dueDate_of_step (h : DueInvariant offset w) {a : Step}
    (hs : w.step (postgresAt offset) (fun c => c.body.run) a = some w') {id : Uuid}
    {x : Timestamp} (hx : w.db.dueDate id = some x) : w'.db.dueDate id = some x := by
  rcases World.step_cases hs with ⟨c, -, rfl⟩ | ⟨i, env, s, c, k, -, hi, hk, hb, -, rfl⟩
  · exact hx
  · show (w.timeline.publish (w.batch (postgresAt offset) i env)).now.dueDate id = some x
    rw [Timeline.now_publish, hb]
    refine Database.dueDate_writeAll hx fun r hr hid => ?_
    rcases h.publish_invoice hi hk hr with hdue | ⟨hnone, -⟩
    · rw [hid] at hdue
      exact Option.some.inj (hdue.symm.trans hx)
    · rw [hid] at hnone
      rw [Database.dueDate, hnone] at hx
      cases hx

/-- A new invoice is the one of a submission. -/
theorem DueInvariant.saves_of_step (h : DueInvariant offset w) {i : Nat} {env : Env}
    (hs : w.step (postgresAt offset) (fun c => c.body.run) (.step i env) = some w') {id : Uuid}
    {x : Timestamp} (hnone : w.db.dueDate id = none) (hx : w'.db.dueDate id = some x) :
    ∃ s r, w.sessions[i]? = some s ∧ Saves offset w.db s.call r ∧ r.id = id ∧ r.dueDate = x := by
  rcases World.step_cases hs with ⟨c, ha, -⟩ | ⟨i', env', s, c, k, ha, hi, hk, hb, -, rfl⟩
  · cases ha
  cases ha
  replace hx : (w.timeline.publish (w.batch (postgresAt offset) i env)).now.dueDate id = some x :=
    hx
  rw [Timeline.now_publish, hb] at hx
  rcases Database.dueDate_writeAll_cases hx with hx | ⟨r, hr, hid, hdue⟩
  · cases hnone.symm.trans hx
  · rcases h.publish_invoice hi hk hr with hold | hsaves
    · rw [hid] at hold
      cases hnone.symm.trans hold
    · exact ⟨s, r, hi, hsaves, hid, hdue⟩

/-- What a read by the id answers is in the database. -/
theorem readFrom_of_select {db : Database} {id : Uuid} {env : Env} {tx : Tx Env RowVersion}
    {rows : List Invoice} (h : ((postgresAt offset).step (.pool (.selectInvoiceById id)) env db
      tx).answer = .ok rows) {r : Invoice} (hr : r ∈ rows) : ReadFrom offset db r := by
  simp only [Engine.step, Engine.autocommit] at h
  split at h
  · cases h
  · -- The row with the id, behind the driver.
    replace h : .ok ((db.invoice id).toList.map (Invoice.decode offset)) =
      Except.ok (ε := JsError) rows := h
    obtain rfl := Except.ok.inj h
    obtain ⟨r₀, hr₀, rfl⟩ := List.mem_map.mp hr
    have hfound : db.invoice id = some r₀ := Option.mem_toList.mp hr₀
    have hid : db.invoice r₀.id = some r₀ := by rw [Database.invoice_id hfound, hfound]
    show (db.dueDate r₀.id).map (ofDateColumn offset) = _
    rw [Database.dueDate_of_invoice hid]
    rfl

/-- What an answer reads has been read from the database it was given at. -/
theorem readFrom_of_reads {db : Database} {c : Cmd} {env : Env} {tx : Tx Env RowVersion}
    {r : Invoice} (h : r ∈ Cmd.reads c ((postgresAt offset).step c env db tx).answer) :
    ReadFrom offset db r := by
  cases c with
  | pool q =>
      cases q with
      | selectInvoiceById id =>
          cases ha : ((postgresAt offset).step (.pool (.selectInvoiceById id)) env db
            tx).answer with
          | ok rows =>
              rw [ha] at h
              exact readFrom_of_select ha h
          | error e =>
              rw [ha] at h
              exact absurd h List.not_mem_nil
      | _ => exact absurd h List.not_mem_nil
  | _ => exact absurd h List.not_mem_nil

/-- A step keeps the invariant. -/
theorem DueInvariant.step (h : DueInvariant offset w) {a : Step}
    (hs : w.step (postgresAt offset) (fun c => c.body.run) a = some w') :
    DueInvariant offset w' := by
  constructor
  · intro s' hs' r hr
    rcases World.step_cases hs with ⟨c, -, rfl⟩ | ⟨i, env, s, c, k, -, hi, hk, -, -, rfl⟩
    · rcases List.mem_append.mp hs' with hs' | hs'
      · exact h.uncommitted s' hs' r hr
      · -- A new session has no transaction.
        obtain rfl := List.mem_singleton.mp hs'
        cases hr
    · refine h.dueDate_of_step hs ?_
      rcases List.mem_or_eq_of_mem_set hs' with hs' | rfl
      · exact h.uncommitted s' hs' r hr
      · have hmem : s ∈ w.sessions := List.mem_of_getElem? hi
        obtain ⟨read, -, hsends⟩ := h.follows.sent hmem hk
        rcases Engine.uncommitted_cases hr with hr | ⟨q, rfl, hr⟩
        · exact h.uncommitted s hmem r hr
        · rcases writes_invoice (h.uncommitted s hmem) hsends hr with hdue | ⟨-, hpool⟩
          · exact hdue
          · exact absurd rfl (hpool q)
  · refine h.follows.step hs follows_body (fun r hr => ?_) fun c env tx r hr =>
      readFrom_of_reads hr
    cases hdue : w.db.dueDate r.id with
    | none =>
        rw [ReadFrom, hdue] at hr
        cases hr
    | some x =>
        rw [ReadFrom, hdue] at hr
        rw [ReadFrom, h.dueDate_of_step hs hdue]
        exact hr

/-- Every world of a run has the invariant. -/
theorem ServerRuns.due {w₀ : ServiceWorld} (h₀ : DueInvariant offset w₀)
    (h : ServerRuns offset w₀ w) : DueInvariant offset w := by
  induction h with
  | refl => exact h₀
  | step a _ _ hs ih => exact ih.step hs

/-- A due date stays in every run. -/
theorem ServerRuns.dueDate {w₀ : ServiceWorld} (h₀ : DueInvariant offset w₀)
    (h : ServerRuns offset w₀ w) {id : Uuid} {x : Timestamp} (hx : w₀.db.dueDate id = some x) :
    w.db.dueDate id = some x := by
  induction h with
  | refl => exact hx
  | step a hw _ hs ih => exact (ServerRuns.due h₀ hw).dueDate_of_step hs ih

/-- The invariant holds where no call has begun. -/
theorem DueInvariant.start (t : Log) : DueInvariant offset (World.start t) where
  uncommitted _ hs := absurd hs List.not_mem_nil
  follows _ hs := absurd hs List.not_mem_nil

/-- The row of a submission has the local date of its due date, and a notification the local
midnight of this date. -/
theorem SavedFor.dueDate {d : CivilDate} {id : Uuid} (h : SavedFor offset d id w) :
    w.db.dueDate id = some (toDateColumn offset (localMidnight 0 d)) ∧
      ∀ p, Notifies w p → p.invoiceId = id →
        p.dueDate = ofDateColumn offset (toDateColumn offset (localMidnight 0 d)) := by
  obtain ⟨hw₁, hi, hcall, hdate, hs, hnone, hsome, hw⟩ := h
  rename_i t₀ w₁ w₂ i env s cmd actorId
  have h₁ := ServerRuns.due (DueInvariant.start t₀) hw₁
  obtain ⟨r, hr⟩ := Option.ne_none_iff_exists'.mp hsome
  -- The step has saved the due date of the submission.
  have hsaved : w₂.db.dueDate id = some (toDateColumn offset (localMidnight 0 d)) := by
    obtain ⟨s', r', hi', ⟨-, cmd', actorId', hcall', hdue'⟩, -, hr'⟩ := h₁.saves_of_step hs
      (by rw [Database.dueDate, hnone]; rfl) (Database.dueDate_of_invoice hr)
    rw [hi] at hi'
    obtain rfl := Option.some.inj hi'
    rw [hcall] at hcall'
    cases hcall'
    rw [Database.dueDate_of_invoice hr, ← hr', hdue', hdate]
  have hrow := ServerRuns.dueDate (h₁.step hs) hw hsaved
  refine ⟨hrow, ?_⟩
  rintro p ⟨s', hs', jobId, k, hk⟩ rfl
  obtain ⟨read, hread, r', hr', hid, hdue⟩ :=
    (ServerRuns.due (h₁.step hs) hw).follows.sent hs' hk
  have hfrom := hread r' hr'
  rw [ReadFrom, hid, hrow] at hfrom
  rw [← hdue]
  exact (Option.some.inj hfrom).symm

/-- The date in the column is the one that the server shows at the UTC midnight of `d`. -/
theorem SavedFor.dueDay {d : CivilDate} {id : Uuid} (h : SavedFor offset d id w) {r : Invoice}
    (hr : w.db.invoice id = some r) : r.dueDay = localDate offset (localMidnight 0 d) := by
  have hdue := h.dueDate.1
  rw [Database.dueDate_of_invoice hr] at hdue
  rw [Invoice.dueDay, Option.some.inj hdue, toDateColumn, localDate_localMidnight]

/-- The date of a notification is the one that UTC shows at the local midnight of this date. -/
theorem SavedFor.dueDay_notified {d : CivilDate} {id : Uuid} (h : SavedFor offset d id w)
    {p : InvoiceApprovedPayload} (hp : Notifies w p) (hid : p.invoiceId = id) :
    p.dueDay = localDate 0 (localMidnight offset (localDate offset (localMidnight 0 d))) := by
  rw [InvoiceApprovedPayload.dueDay, h.dueDate.2 p hp hid, ofDateColumn, toDateColumn,
    localDate_localMidnight]

end

/-! ### A run for every date -/

/-- A run from `w₀` has come to the rest `p` of a call, in the transaction `tx`, after the calls
`done`. -/
structure ComesTo (offset : Int) (w₀ : ServiceWorld) (done : List ServerCall) (c : Call) (t : Log)
    (tx : Tx Env RowVersion) (p : ServerProg) : Prop where
  quiet : ∀ s ∈ done, s.tx.writes = []
  run : ∃ born seen, ServerRuns offset w₀ ⟨t, done ++ [⟨c, born, seen, tx, p⟩]⟩

section
variable {offset : Int} {w₀ : ServiceWorld} {done : List ServerCall} {c : Call} {t : Log}
  {tx tx' : Tx Env RowVersion} {p : ServerProg} {q : Cmd}
  {k : Except JsError (q.Res Sql.Rows Ext.Res) → ServerProg}
  {answer : Except JsError (q.Res Sql.Rows Ext.Res)} {row : RowVersion} {rows : List RowVersion}

/-- A call starts on a server without calls. -/
theorem ComesTo.first (c : Call) (t : Log) :
    ComesTo offset (World.start t) [] c t .idle c.body.run where
  quiet _ hs := absurd hs List.not_mem_nil
  run := ⟨t, none, Run.step (.spawn c) Run.refl trivial rfl⟩

/-- The next call starts. -/
theorem ComesTo.spawn (h : ComesTo offset w₀ done c t .idle p) (c' : Call) :
    ∃ s, ComesTo offset w₀ (done ++ [s]) c' t .idle c'.body.run := by
  obtain ⟨hquiet, born, seen, hrun⟩ := h
  refine ⟨⟨c, born, seen, .idle, p⟩, ⟨?_, t, none, hrun.step (.spawn c') trivial rfl⟩⟩
  intro s hs
  rcases List.mem_append.mp hs with hs | hs
  · exact hquiet s hs
  · obtain rfl := List.mem_singleton.mp hs
    rfl

/-- The next command, which commits these rows. -/
theorem ComesTo.step (h : ComesTo offset w₀ done c t tx p) (env : Env) (hp : p = .call q k)
    (ho : (postgresAt offset).step q env t.now tx = ⟨rows, tx', answer⟩) :
    ComesTo offset w₀ done c (t.publish rows) tx' (k answer) := by
  obtain ⟨hquiet, born, seen, hrun⟩ := h
  have hstep : World.step (postgresAt offset) (fun c : Call => c.body.run)
      ⟨t, done ++ [⟨c, born, seen, tx, p⟩]⟩ (.step done.length env) = _ :=
    World.step_last hquiet hp ho
  exact ⟨hquiet, born, some (seen.getD t), hrun.step _ trivial hstep⟩

/-- A command that commits nothing. -/
theorem ComesTo.next (h : ComesTo offset w₀ done c t tx p) (env : Env) (hp : p = .call q k)
    (ho : (postgresAt offset).step q env t.now tx = ⟨[], tx', answer⟩) :
    ComesTo offset w₀ done c t tx' (k answer) := by
  have hstep := h.step env hp ho
  rw [Timeline.publish_nil] at hstep
  exact hstep

/-- A command that commits. -/
theorem ComesTo.commit (h : ComesTo offset w₀ done c t tx p) (env : Env) (hp : p = .call q k)
    (ho : (postgresAt offset).step q env t.now tx = ⟨row :: rows, tx', answer⟩) :
    ComesTo offset w₀ done c (t.commit (row :: rows)) tx' (k answer) := by
  have hstep := h.step env hp ho
  rw [Timeline.publish_cons] at hstep
  exact hstep

/-- The command of a submission that saves an invoice, and the runs after it. -/
theorem ComesTo.saves {t₀ : Log} {cmd : SubmitInvoiceCommand} {actorId id : Uuid} {d : CivilDate}
    (h : ComesTo offset (World.start t₀) done (.submitInvoice cmd actorId) t tx p)
    (hdate : cmd.dueDate = localMidnight 0 d) (env : Env) (hp : p = .call q k)
    (ho : (postgresAt offset).step q env t.now tx = ⟨row :: rows, tx', answer⟩)
    (hnone : t.now.invoice id = none) (hsome : (t.commit (row :: rows)).now.invoice id ≠ none) :
    ∃ w₂, ComesTo offset w₂ done (.submitInvoice cmd actorId) (t.commit (row :: rows)) tx'
        (k answer) ∧ ∀ w, ServerRuns offset w₂ w → SavedFor offset d id w := by
  obtain ⟨hquiet, born, seen, hrun⟩ := h
  refine ⟨_, ⟨hquiet, born, some (seen.getD t), Run.refl⟩, fun w hw => ?_⟩
  have hi : (done ++ [⟨.submitInvoice cmd actorId, born, seen, tx, p⟩])[done.length]? =
      some (⟨.submitInvoice cmd actorId, born, seen, tx, p⟩ : ServerCall) := by simp
  exact .of_step hrun hi rfl hdate (World.step_last hquiet hp ho) hnone hsome hw

end

/-- The sample database, with an address of the supplier. -/
def sampleAddressed : Database :=
  { sampleDb with credentials := Table.empty.put ⟨sampleSupplier, "s@vse"⟩ }

/-- A submission of the sample invoice for a date. -/
def submitFor (d : CivilDate) : SubmitInvoiceCommand :=
  ⟨"INV-1", sampleSupplier, sampleBuyer, 1000, "INR", localMidnight 0 d⟩

/-- For every date there is a run to the notification of an invoice that was submitted for it,
the millisecond before the date begins. -/
theorem exists_notified (offset : Int) (d : CivilDate) :
    ∃ w r p, SavedFor offset d sampleId w ∧ w.db.invoice sampleId = some r ∧ Notifies w p ∧
      p.invoiceId = sampleId := by
  -- The due date is in the future.
  have h : ComesTo offset _ _ _ _ _ _ :=
    .first (.submitInvoice (submitFor d) sampleSupplier) (.start sampleAddressed)
  replace h := h.next { sampleEnv with now := localMidnight 0 d - 1 } rfl rfl
  change ComesTo offset _ _ _ _ _
    (Prog.bind (ite (localMidnight 0 d ≤ localMidnight 0 d - 1) _ _) _) at h
  rw [if_neg (by omega)] at h
  -- The lookup of the number, the connection, `BEGIN` and the `INSERT`.
  replace h := h.next sampleEnv rfl rfl
  replace h := h.next sampleEnv rfl rfl
  replace h := h.next sampleEnv rfl rfl
  have hsome : ∀ r, some r ≠ (none : Option Invoice) := fun r => Option.some_ne_none r
  obtain ⟨w₂, h, hsaved⟩ := h.saves (show _ = localMidnight 0 d from rfl) sampleEnv rfl rfl
    (show Database.invoice _ sampleId = none from rfl) (hsome _)
  -- The status, the event and `COMMIT`.
  replace h := h.next sampleEnv rfl rfl
  replace h := h.next sampleEnv rfl rfl
  replace h := h.commit sampleEnv rfl rfl
  -- The approval: the invoice, the connection, `BEGIN`, the signature, the status, the clock,
  -- the event and `COMMIT`.
  obtain ⟨s, h⟩ := h.spawn sampleApprove
  replace h := h.next sampleEnv rfl rfl
  replace h := h.next sampleEnv rfl rfl
  replace h := h.next sampleEnv rfl rfl
  replace h := h.next sampleEnv rfl rfl
  replace h := h.next sampleEnv rfl rfl
  replace h := h.next sampleEnv rfl rfl
  replace h := h.next sampleEnv rfl rfl
  replace h := h.commit sampleEnv rfl rfl
  -- The supplier, its address and the clock.
  replace h := h.next sampleEnv rfl rfl
  replace h := h.next sampleEnv rfl rfl
  replace h := h.next sampleEnv rfl rfl
  obtain ⟨-, born, seen, hrun⟩ := h
  -- The approval is the last call, and its next command queues the notification.
  refine ⟨_, _, _, hsaved _ hrun, rfl,
    ⟨_, List.mem_append_right _ (List.mem_singleton.mpr rfl), _, _, rfl⟩, ?_⟩
  rfl

/-! ### The result -/

/-- The due date survives exactly at the offset of UTC. -/
theorem dueDate_survives_iff (offset : Int) (d : CivilDate) :
    DueDateSurvives offset d ↔ offset = 0 := by
  constructor
  · intro h
    obtain ⟨w, r, p, hsaved, hr, hp, hid⟩ := exists_notified offset d
    have hstored := h.stored w sampleId r hsaved hr
    have hnotified := h.notified w sampleId p hsaved hp hid
    rw [hsaved.dueDay hr] at hstored
    rw [hsaved.dueDay_notified hp hid, hstored] at hnotified
    -- The server is not behind UTC, and UTC is not behind the server.
    have hahead := (localDate_localMidnight_iff.mp hstored).1
    have hbehind := (localDate_localMidnight_iff.mp hnotified).1
    omega
  · rintro rfl
    constructor
    · intro w id r hsaved hr
      rw [hsaved.dueDay hr, localDate_localMidnight]
    · intro w id p hsaved hp hid
      rw [hsaved.dueDay_notified hp hid, localDate_localMidnight, localDate_localMidnight]

/-- The due date of the examples. -/
def newYear : CivilDate := ⟨2027, 1, 1, by decide, by decide, by decide, by decide⟩

/-- The day before `newYear`. -/
def newYearsEve : CivilDate := ⟨2026, 12, 31, by decide, by decide, by decide, by decide⟩

/-- A server at `+05:30` notifies the supplier of the eve of the due date, a server at `-05:00`
stores it. -/
theorem due_date_moves :
    (¬ DueDateSurvives 19800000 newYear ∧ ∃ w p, SavedFor 19800000 newYear sampleId w ∧
      Notifies w p ∧ p.invoiceId = sampleId ∧ p.dueDay = newYearsEve) ∧
    (¬ DueDateSurvives (-18000000) newYear ∧ ∃ w r, SavedFor (-18000000) newYear sampleId w ∧
      w.db.invoice sampleId = some r ∧ r.dueDay = newYearsEve) := by
  have hne : newYear ≠ newYearsEve := by decide
  constructor
  · obtain ⟨w, r, p, hsaved, hr, hp, hid⟩ := exists_notified 19800000 newYear
    have hday : p.dueDay = newYearsEve := by
      rw [hsaved.dueDay_notified hp hid]
      decide
    refine ⟨fun h => hne ?_, w, p, hsaved, hp, hid, hday⟩
    rw [← hday, h.notified w sampleId p hsaved hp hid]
  · obtain ⟨w, r, p, hsaved, hr, hp, hid⟩ := exists_notified (-18000000) newYear
    have hday : r.dueDay = newYearsEve := by
      rw [hsaved.dueDay hr]
      decide
    refine ⟨fun h => hne ?_, w, r, hsaved, hr, hday⟩
    rw [← hday, h.stored w sampleId r hsaved hr]

end Vanguard
