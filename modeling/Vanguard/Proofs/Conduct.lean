import Vanguard.Library.Discipline
import Vanguard.Library.Lookup
import Vanguard.Proofs.Runs

/-!
# `Vanguard.Proofs.Conduct`: what the services may send after what they have done

`Conduct` says which commands a service may send. It has two parts.

* `rowLocks`: which statements a service sends with the row versions that its transaction
  holds. Each service takes its row locks in one order: the account, the key of the ledger
  entry, the invoice. Only `recordPayment` takes the key before the account. A statement on
  the pool that writes is only sent while the transaction holds nothing.
* `Announces`: a job is queued after the `COMMIT` of the event that it reports, with the
  columns of a row that the call has read.

The rules below are the ones of the library at the methods of the repositories and at the
commands of the services. `Passes P` says that `P` allows for the errors of the driver, so a rule
only asks for the errors that say something about the database.
-/

set_option autoImplicit false

namespace Vanguard

open ReadCommitted

/-! ### Row versions -/

/-- A clash of two versions does not depend on which was written first. -/
instance : LawfulStore Database RowVersion where
  clash_comm r r' := by
    cases r <;> cases r' <;> simp [RowVersion.clash, Bool.beq_comm]

/-- Some row version of the list is one of an invoice. -/
def holdsInvoice (ws : List RowVersion) : Bool :=
  ws.any fun
    | .invoice _ => true
    | _ => false

/-- Some row version of the list is one of a virtual account. -/
def holdsAccount (ws : List RowVersion) : Bool :=
  ws.any fun
    | .virtualAccount _ => true
    | _ => false

/-- Some row version of the list is a ledger entry. -/
def holdsEntry (ws : List RowVersion) : Bool :=
  ws.any fun
    | .ledgerEntry _ => true
    | _ => false

/-- A transaction that wrote an invoice holds the lock of one. -/
theorem holdsInvoice_of_mem {ws : List RowVersion} {r : Invoice} (h : .invoice r ∈ ws) :
    holdsInvoice ws = true :=
  List.any_eq_true.mpr ⟨_, h, rfl⟩

/-- A transaction that wrote an account holds the lock of one. -/
theorem holdsAccount_of_mem {ws : List RowVersion} {v : VirtualAccount}
    (h : .virtualAccount v ∈ ws) : holdsAccount ws = true :=
  List.any_eq_true.mpr ⟨_, h, rfl⟩

/-- A transaction that wrote a ledger entry holds its key. -/
theorem holdsEntry_of_mem {ws : List RowVersion} {e : LedgerEntry} (h : .ledgerEntry e ∈ ws) :
    holdsEntry ws = true :=
  List.any_eq_true.mpr ⟨_, h, rfl⟩

/-- The table `invoices`. -/
def invoiceTable : Lookup Database RowVersion Uuid Invoice where
  key := Invoice.id
  version
    | .invoice r => some r
    | _ => none
  get := Database.invoice
  get_write db x id := by
    cases x <;> simp
  key_of_get := Database.invoice_id

/-- The table `virtual_accounts`. -/
def accountTable : Lookup Database RowVersion Uuid VirtualAccount where
  key := VirtualAccount.id
  version
    | .virtualAccount v => some v
    | _ => none
  get := Database.van
  get_write db x id := by
    cases x <;> simp
  key_of_get := Database.van_id

/-- The lock on an invoice is held by the transaction that wrote a version of it. -/
theorem holds_invoice {ws : List RowVersion} {r : Invoice} :
    invoiceTable.Holds ws r ↔ .invoice r ∈ ws := by
  constructor
  · rintro ⟨x, hx, hr⟩
    cases x with
    | invoice r' =>
        cases hr
        exact hx
    | _ => cases hr
  · exact fun h => ⟨_, h, rfl⟩

/-- The lock on an account is held by the transaction that wrote a version of it. -/
theorem holds_account {ws : List RowVersion} {v : VirtualAccount} :
    accountTable.Holds ws v ↔ .virtualAccount v ∈ ws := by
  constructor
  · rintro ⟨x, hx, hv⟩
    cases x with
    | virtualAccount v' =>
        cases hv
        exact hx
    | _ => cases hv
  · exact fun h => ⟨_, h, rfl⟩

/-- An account after a batch was there before it, or is a row version of the batch. -/
theorem mem_accounts_writeAll {db : Database} {rows : List RowVersion} {a : VirtualAccount}
    (h : a ∈ (writeAll db rows).virtualAccounts) :
    a ∈ db.virtualAccounts ∨ .virtualAccount a ∈ rows := by
  rcases accountTable.latest (Database.mem_virtualAccounts.mp h) with hm | ⟨hdb, -⟩
  · exact Or.inr (holds_account.mp hm)
  · exact Or.inl (Database.mem_virtualAccounts.mpr hdb)

/-- What an UPDATE writes is the new version of the row it found. -/
theorem mem_updateRow {α : Type} {version : α → RowVersion} {f : α → α} {o : Option α}
    {x : RowVersion} (h : x ∈ (updateRow version f o).1) : ∃ r, o = some r ∧ x = version (f r) := by
  cases o with
  | none => cases h
  | some r => exact ⟨r, rfl, List.mem_singleton.mp h⟩

/-! ### Statements -/

/-- A `SELECT`. -/
def Sql.isSelect : Sql → Bool
  | selectInvoiceById _ | selectInvoiceByNumber _ | selectVanByInvoiceId _
  | selectVanByAccountNumber _ | selectLedgerEntries _ | selectEvents _
  | selectOrganisation _ | selectCredential _ => true
  | _ => false

/-- A SELECT writes nothing. -/
theorem Sql.rows_of_isSelect {q : Sql} (hq : q.isSelect = true) {start env : Env}
    {db : Database} {rows : List RowVersion} {b : q.Rows}
    (h : q.exec start env db = .ok (rows, b)) : rows = [] := by
  cases q <;> first | exact (congrArg Prod.fst (Except.ok.inj h)).symm | cases hq

/-- The statements that a service may send with the row versions that it holds. -/
def rowLocks : Cmd → List RowVersion → Prop
  -- The draft goes into the table on the pool.
  | .pool (.insertInvoice _), ws => ws = []
  -- The invoice is the last row that a transaction locks.
  | .client (.updateInvoiceStatus id _), ws | .client (.updateInvoiceSignature id _), ws =>
    ∀ r, .invoice r ∈ ws → r.id = id
  | .client (.insertVan _), ws => ws = []
  | .client (.insertLedgerEntry _), ws => holdsEntry ws = false ∧ holdsInvoice ws = false
  -- A payment has written its ledger entry before it updates the account.
  | .client (.updateReceivedAmount _ _), ws =>
    holdsEntry ws = true ∧ holdsAccount ws = false ∧ holdsInvoice ws = false
  | .client (.settleAccount id), ws =>
    holdsEntry ws = true ∧ holdsAccount ws = true ∧ ∀ v, .virtualAccount v ∈ ws → v.id = id
  | .client (.insertEvent _), _ => True
  | .client q, _ | .pool q, _ => q.isSelect = true
  | .begin, _ | .commit, _ | .rollback, _ | .ext _, _ => True

/-- A `SELECT` does not fail. -/
theorem Sql.exec_of_isSelect {q : Sql} (hq : q.isSelect = true) {start env : Env}
    {db : Database} {e : PgError} : q.exec start env db ≠ .error e := by
  cases q <;> first | (intro h; cases h) | cases hq

/-- A SELECT on the pool is free to run at any moment: it takes no row lock. -/
theorem rowLocks_select {q : Sql} (hq : q.isSelect = true) {ws : List RowVersion} :
    rowLocks (.pool q) ws := by
  cases q <;> first | exact hq | cases hq
/-! ### Jobs -/

/-- The columns of a job about an approval are the ones of the invoice. -/
structure InvoiceApprovedPayload.Of (p : InvoiceApprovedPayload) (r : Invoice) : Prop where
  invoiceId : p.invoiceId = r.id
  invoiceNumber : p.invoiceNumber = r.invoiceNumber
  supplierId : p.supplierId = r.supplierId
  buyerId : p.buyerId = r.buyerId
  amountCents : p.amountCents = r.amountCents
  currency : p.currency = r.currency
  dueDate : p.dueDate = r.dueDate

/-- The columns of a job about a settlement are the ones of the invoice. -/
structure SettlementReceiptPdfPayload.Of (p : SettlementReceiptPdfPayload) (r : Invoice) :
    Prop where
  invoiceId : p.invoiceId = r.id
  invoiceNumber : p.invoiceNumber = r.invoiceNumber
  supplierId : p.supplierId = r.supplierId
  buyerId : p.buyerId = r.buyerId
  amountCents : p.amountCents = r.amountCents
  currency : p.currency = r.currency

/-- A trace of a service. -/
abbrev ServiceTrace := Trace Database RowVersion Env

/-- The session has committed an event of this type. -/
def RecordedEvent (tr : ServiceTrace) (invoiceId : Uuid) (eventType : String) : Prop :=
  ∃ rows ∈ tr.done, ∃ e, .invoiceEvent e ∈ rows ∧ e.invoiceId = invoiceId ∧
    e.eventType = eventType

/-- What a session has read and committed when it queues a job. -/
def Announces (tr : ServiceTrace) : Job → Prop
  | .invoiceApproved p jobId =>
    jobId = "invoice-approved-" ++ p.invoiceId.text ∧ p.supplierEmail ≠ "" ∧
      (∃ db ∈ tr.seen, ∃ credential, db.credentials.get? p.supplierId = some credential ∧
        credential.email = p.supplierEmail) ∧
      (∃ db ∈ tr.seen, ∃ r, db.invoice p.invoiceId = some r ∧ p.Of r) ∧
      RecordedEvent tr p.invoiceId "invoice.buyer_approved"
  | .settlementReceiptPdf p jobId =>
    jobId = "receipt-" ++ p.invoiceId.text ∧
      (∃ db ∈ tr.seen, ∃ r, db.invoice p.invoiceId = some r ∧ p.Of r) ∧
      RecordedEvent tr p.invoiceId "invoice.repaid"

/-- The jobs of a command are announced. -/
def announced : Cmd → ServiceTrace → Prop
  | .ext (.queueAdd job), tr => Announces tr job
  | _, _ => True

/-- What a service may send after what it has done. -/
def Conduct (c : Cmd) (tr : ServiceTrace) : Prop :=
  rowLocks c tr.tx.writes ∧ announced c tr

/-! ### Rules -/

/-- `P` allows for every error of the driver but a unique violation. -/
class Passes (P : JsError → ServiceTrace → Prop) : Prop where
  pg : ∀ {e : PgError}, e.code ≠ "23505" → ∀ tr, P (.pg e) tr

/-- The database refuses a statement only with an error that passes through the
services. -/
instance {P : JsError → ServiceTrace → Prop} [Passes P] : Bears postgres P where
  fault := by
    intro env e h tr
    simp only [postgres] at h
    split at h
    · cases h
      exact Passes.pg (by decide) tr
    · cases h

section
variable {α : Type} {seen : List Database} {done : List (List RowVersion)}
  {ws : List RowVersion} {tx : Tx Env RowVersion} {start : Env}
  {P : JsError → ServiceTrace → Prop}

/-- `assertValidTransition` throws on a transition that is not in the table and does
nothing else. -/
theorem takes_assertValidTransition {current next : InvoiceStatus} {tr : ServiceTrace}
    {Q : Unit → ServiceTrace → Prop}
    (hbad : next ∉ validTransitions current → P (.invalidTransition current next) tr)
    (h : Q () tr) : Takes postgres Conduct (assertValidTransition current next) tr Q P := by
  unfold assertValidTransition
  split
  · exact Takes.pure h
  · rename_i hn
    exact Takes.throw (hbad (by simpa using hn))

/-- Reading the clock leaves the transaction as it is. -/
theorem takes_newDate {Q : Timestamp → ServiceTrace → Prop}
    (h : ∀ db now, Q now ⟨seen ++ [db], done, tx⟩) :
    Takes postgres Conduct newDate ⟨seen, done, tx⟩ Q P :=
  Takes.ext ⟨trivial, trivial⟩ (fun _ _ _ he => nomatch he) fun _ db now _ => h db now

/-- A job may be queued where it announces what the trace has already committed. -/
theorem takes_queueAdd {job : Job} {Q : Unit → ServiceTrace → Prop}
    (hjob : Announces ⟨seen, done, tx⟩ job) (hredis : ∀ tr, P .redis tr)
    (h : ∀ db, Q () ⟨seen ++ [db], done, tx⟩) :
    Takes postgres Conduct (queueAdd job) ⟨seen, done, tx⟩ Q P := by
  refine Takes.ext ⟨trivial, hjob⟩ (fun env db e he => ?_) fun _ db _ _ => h db
  simp only [postgres, Ext.run] at he
  split at he
  · cases he
    exact hredis _
  · cases he

/-- `BEGIN` opens a transaction that has written nothing. -/
theorem takes_begin [Passes P] {Q : Unit → ServiceTrace → Prop}
    (h : ∀ start db, Q () ⟨seen ++ [db], done, .active start []⟩) :
    Takes postgres Conduct begin ⟨seen, done, .idle⟩ Q P :=
  Takes.begin ⟨trivial, trivial⟩ h

/-- `COMMIT` adds the writes to the batches of the trace. -/
theorem takes_commit [Passes P] {Q : Unit → ServiceTrace → Prop}
    (h : ∀ db, Q () ⟨seen ++ [db], addBatch done tx.writes, .idle⟩) :
    Takes postgres Conduct commit ⟨seen, done, tx⟩ Q P :=
  Takes.commit ⟨trivial, trivial⟩ h

/-- A `SELECT` on the pool. -/
theorem takes_read [Passes P] {q : Sql} (hq : q.isSelect = true)
    {Q : q.Rows → ServiceTrace → Prop}
    (h : ∀ env db b, q.exec env env db = .ok ([], b) → Q b ⟨seen ++ [db], done, tx⟩) :
    Takes postgres Conduct (poolQuery q) ⟨seen, done, tx⟩ Q P := by
  refine Takes.pool ⟨rowLocks_select hq, trivial⟩ (fun env db e he => ?_)
    fun env db rows b hx => ?_
  · obtain ⟨pe, -, he⟩ := postgres_exec_error he
    exact absurd he (Sql.exec_of_isSelect hq)
  · obtain rfl := Sql.rows_of_isSelect hq (postgres_exec_ok hx)
    exact h env db b (postgres_exec_ok hx)

/-- A look at an invoice finds the row of some state of the database, and this is all it
does. -/
theorem takes_findInvoice [Passes P] {id : Uuid} {Q : Option Invoice → ServiceTrace → Prop}
    (h : ∀ db, Q (db.invoice id) ⟨seen ++ [db], done, tx⟩) :
    Takes postgres Conduct (InvoiceRepository.findById id) ⟨seen, done, tx⟩ Q P := by
  refine Takes.bind (takes_read rfl fun env db b hx => Takes.pure ?_)
  obtain rfl : _ = b := congrArg Prod.snd (Except.ok.inj hx)
  rw [Option.head?_toList]
  exact h db

/-- A statement in the transaction, by what it does. -/
theorem takes_client [Passes P] {q : Sql} {Q : q.Rows → ServiceTrace → Prop}
    (hlocks : rowLocks (.client q) ws)
    (herr : ∀ env db e, q.exec start env (writeAll db ws) = .error e →
      ∀ tx', P (.pg e) ⟨seen ++ [db], done, tx'⟩)
    (h : ∀ env db rows b, q.exec start env (writeAll db ws) = .ok (rows, b) →
      Q b ⟨seen ++ [db], done, .active start (ws ++ rows)⟩) :
    Takes postgres Conduct (clientQuery q) ⟨seen, done, .active start ws⟩ Q P := by
  refine Takes.client ⟨hlocks, trivial⟩ (fun env db e tx' he => ?_) fun env db rows b hx =>
    h env db rows b (postgres_exec_ok hx)
  obtain ⟨pe, rfl, hpe⟩ := postgres_exec_error he
  exact herr env db pe hpe tx'

/-- The `UPDATE` of the status of an invoice in the transaction, which holds no other one. -/
theorem takes_setStatus [Passes P] {id : Uuid} {status : InvoiceStatus}
    {Q : List Invoice → ServiceTrace → Prop} (hown : ∀ r, .invoice r ∈ ws → r.id = id)
    (hnone : ∀ db, db.invoice id = none →
      Q [] ⟨seen ++ [db], done, .active start ws⟩)
    (h : ∀ db r, r.id = id → r.status = status →
      Q [r] ⟨seen ++ [db], done, .active start (ws ++ [.invoice r])⟩) :
    Takes postgres Conduct (clientQuery (.updateInvoiceStatus id status))
      ⟨seen, done, .active start ws⟩ Q P := by
  refine takes_client hown (fun _ _ _ he => nomatch he) fun env db rows b hx => ?_
  have hx := Except.ok.inj hx
  obtain rfl : _ = rows := congrArg Prod.fst hx
  obtain rfl : _ = b := congrArg Prod.snd hx
  cases hrow : (writeAll db ws).invoice id with
  | none =>
      -- A row of before would still be there.
      have hdb : db.invoice id = none := by
        by_contra hne
        have hsome := invoiceTable.isSome_writeAll (Option.isSome_iff_ne_none.mpr hne) ws
        rw [show invoiceTable.get (writeAll db ws) id = none from hrow] at hsome
        cases hsome
      have hnil : ws ++ (updateRow RowVersion.invoice
          (fun r => r.setStatus status start.now) none).1 = ws := List.append_nil ws
      rw [hnil]
      exact hnone db hdb
  | some r₀ =>
      have hid : r₀.id = id := Database.invoice_id hrow
      exact h db (r₀.setStatus status start.now) hid rfl

/-- An update of an invoice's status, in a transaction that holds no other invoice,
writes the row with the new status, or finds no row and throws. -/
theorem takes_updateStatus [Passes P] {id : Uuid} {status : InvoiceStatus}
    {Q : Invoice → ServiceTrace → Prop} (hown : ∀ r, .invoice r ∈ ws → r.id = id)
    (hgone : ∀ db tx', db.invoice id = none →
      P (.error ("Invoice " ++ id.text ++ " not found during status update"))
        ⟨seen ++ [db], done, tx'⟩)
    (h : ∀ db r, r.id = id → r.status = status →
      Q r ⟨seen ++ [db], done, .active start (ws ++ [.invoice r])⟩) :
    Takes postgres Conduct (InvoiceRepository.updateStatus id status .client)
      ⟨seen, done, .active start ws⟩ Q P :=
  Takes.bind (takes_setStatus hown (fun db hdb => Takes.throw (hgone db _ hdb))
    fun db r hid hstatus => Takes.pure (h db r hid hstatus))

/-- An event goes into the transaction that is open. -/
theorem takes_insertEvent [Passes P] {input : CreateEventInput}
    {Q : InvoiceEvent → ServiceTrace → Prop}
    (h : ∀ db, Q (input.row start)
      ⟨seen ++ [db], done, .active start (ws ++ [.invoiceEvent (input.row start)])⟩) :
    Takes postgres Conduct (EventRepository.append input .client)
      ⟨seen, done, .active start ws⟩ Q P := by
  refine Takes.bind (takes_client trivial (fun env db e he tx' => ?_) fun env db rows b hx => ?_)
  · exact Passes.pg (insertEvent_error he).2 _
  · obtain ⟨rfl, rfl, -⟩ := insertEvent_ok hx
    exact Takes.pure (h db)

/-- A ledger entry goes into the transaction before the lock of an invoice is taken,
unless its key is used. -/
theorem takes_insertEntry [Passes P] {input : CreateLedgerEntryInput}
    {Q : LedgerEntry → ServiceTrace → Prop}
    (hws : holdsEntry ws = false ∧ holdsInvoice ws = false)
    (hused : ∀ db e tx', (∃ e' ∈ (writeAll db ws).ledgerEntries,
      e'.idempotencyKey = input.idempotencyKey) → P (.pg e) ⟨seen ++ [db], done, tx'⟩)
    (h : ∀ db, Q (input.row start)
      ⟨seen ++ [db], done, .active start (ws ++ [.ledgerEntry (input.row start)])⟩) :
    Takes postgres Conduct (VanRepository.appendLedgerEntry input .client)
      ⟨seen, done, .active start ws⟩ Q P := by
  refine Takes.bind (takes_client hws (fun env db e he tx' => ?_) fun env db rows b hx => ?_)
  · rcases insertLedgerEntry_error he with ⟨-, hcode⟩ | ⟨-, hkey⟩ | ⟨-, hcode⟩
    · exact Passes.pg hcode _
    · exact hused db e tx' hkey
    · exact Passes.pg hcode _
  · obtain ⟨rfl, rfl, -⟩ := insertLedgerEntry_ok hx
    exact Takes.pure (h db)

end

section
variable {α : Type} {seen : List Database} {done : List (List RowVersion)}
  {P : JsError → ServiceTrace → Prop}

/-- Only the body of a `withClient` has a transaction, which it ends. -/
theorem idles_withClient [Passes P] {body : Async α} {handler : JsError → Async α}
    {Q : α → ServiceTrace → Prop} {P₀ : JsError → ServiceTrace → Prop} (hQ : Persists Q)
    (hP : Persists P) (hP₀ : Persists P₀)
    (hbody : ∀ seen', seen ⊆ seen' →
      Takes postgres Conduct body ⟨seen', done, .idle⟩ (fun a tr => tr.tx = .idle ∧ Q a tr) P₀)
    (hhandler : ∀ e seen' done', P₀ e ⟨seen', done', .idle⟩ →
      Idles postgres Conduct (handler e) seen' done' Q P) :
    Idles postgres Conduct (withClient body handler) seen done Q P := by
  refine Idles.bind (Idles.ext ⟨trivial, trivial⟩ (fun env db e he => ?_) fun env db _ _ => ?_)
  · simp only [postgres, Ext.run] at he
    split at he
    · cases he
      exact Passes.pg (by decide) _
    · cases he
  · refine Idles.tryFinally hQ hP hP₀ (hbody _ (List.subset_append_left _ _))
      (Idles.rollback fun _ => ⟨trivial, trivial⟩) hhandler fun seen' done' => ?_
    refine Idles.ext ⟨trivial, trivial⟩ (fun _ _ _ he => nomatch he) fun _ _ _ _ => ?_
    exact ⟨List.subset_append_left _ _, List.Subset.refl _⟩

/-- A SELECT between transactions answers from one state of the database. -/
theorem idles_read [Passes P] {q : Sql} (hq : q.isSelect = true)
    {Q : q.Rows → ServiceTrace → Prop}
    (h : ∀ env db b, q.exec env env db = .ok ([], b) → Q b ⟨seen ++ [db], done, .idle⟩) :
    Idles postgres Conduct (poolQuery q) seen done Q P := by
  refine Idles.pool ⟨rowLocks_select hq, trivial⟩ (fun env db e he => ?_)
    fun env db rows b hx => ?_
  · obtain ⟨pe, -, he⟩ := postgres_exec_error he
    exact absurd he (Sql.exec_of_isSelect hq)
  · obtain rfl := Sql.rows_of_isSelect hq (postgres_exec_ok hx)
    exact h env db b (postgres_exec_ok hx)

/-- Reading the clock between transactions. -/
theorem idles_newDate {Q : Timestamp → ServiceTrace → Prop}
    (h : ∀ db now, Q now ⟨seen ++ [db], done, .idle⟩) :
    Idles postgres Conduct newDate seen done Q P :=
  Idles.ext ⟨trivial, trivial⟩ (fun _ _ _ he => nomatch he) fun _ db now _ => h db now

/-- `assertValidTransition` between transactions. -/
theorem idles_assertValidTransition {current next : InvoiceStatus}
    {Q : Unit → ServiceTrace → Prop}
    (hbad : next ∉ validTransitions current →
      P (.invalidTransition current next) ⟨seen, done, .idle⟩)
    (h : Q () ⟨seen, done, .idle⟩) :
    Idles postgres Conduct (assertValidTransition current next) seen done Q P :=
  takes_assertValidTransition (fun hn => ⟨rfl, hbad hn⟩) ⟨rfl, h⟩

/-- A look at an invoice between transactions. -/
theorem idles_findInvoice [Passes P] {id : Uuid} {Q : Option Invoice → ServiceTrace → Prop}
    (h : ∀ db, Q (db.invoice id) ⟨seen ++ [db], done, .idle⟩) :
    Idles postgres Conduct (InvoiceRepository.findById id) seen done Q P := by
  refine Idles.bind (idles_read rfl fun env db b hx => Idles.pure ?_)
  obtain rfl : _ = b := congrArg Prod.snd (Except.ok.inj hx)
  rw [Option.head?_toList]
  exact h db

end

end Vanguard
