import Vanguard.Domain.Entities
import Vanguard.Library.Calendar
import Vanguard.Library.RelyGuarantee
import Mathlib.Data.List.Sort

/-!
# `Vanguard.Database.Postgres`: the SQL statements of the repositories

`Sql` has one constructor for each statement that the services and repositories send.
`Sql.exec` runs one on a database: it answers the rows of the result and the row versions
that the statement writes, or the error of the constraint that it breaks. The constraints
are the ones of `V001__initial_schema.sql`: primary keys, `UNIQUE`, `CHECK`, foreign keys
and the range of `BIGINT`. `DEFAULT now()` is the start of the transaction. The columns
`due_date DATE` and `currency CHAR(3)` keep what `dateColumn` and `charColumn` say.

The instants are those of a server whose clock is at UTC. `Vanguard.Database.Driver` has the
servers at other offsets.

`postgres` is the engine. `Ext` are the calls that do not touch the database: taking and
releasing a connection, the clock, the random digits of an account number, and the job
queue. An environment (`Env`) can inject one failure into any command but `release`. These
failures stand for every error of the database that is not a constraint, such as a text with a
character U+0000, which no `TEXT` parameter may have.
-/

set_option autoImplicit false

namespace Vanguard

open ReadCommitted

/-- The errors of PostgreSQL that the statements can meet. -/
inductive PgError where
  | uniqueViolation (constraint : String)
  | foreignKeyViolation (table constraint : String)
  | checkViolation (table constraint : String)
  | numericValueOutOfRange
  | inFailedTransaction
  | connectionFailure
  deriving DecidableEq

/-- The `code` field of the error. -/
def PgError.code : PgError → String
  | uniqueViolation _ => "23505"
  | foreignKeyViolation _ _ => "23503"
  | checkViolation _ _ => "23514"
  | numericValueOutOfRange => "22003"
  | inFailedTransaction => "25P02"
  | connectionFailure => "08006"

/-- The `message` field of the error. -/
def PgError.message : PgError → String
  | uniqueViolation constraint =>
    "duplicate key value violates unique constraint \"" ++ constraint ++ "\""
  | foreignKeyViolation table constraint =>
    "insert or update on table \"" ++ table ++ "\" violates foreign key constraint \"" ++
      constraint ++ "\""
  | checkViolation table constraint =>
    "new row for relation \"" ++ table ++ "\" violates check constraint \"" ++ constraint ++
      "\""
  | numericValueOutOfRange => "bigint out of range"
  | inFailedTransaction =>
    "current transaction is aborted, commands ignored until end of transaction block"
  | connectionFailure => "Connection terminated unexpectedly"

/-- Everything that the services throw or let through: the error classes of the services,
`new Error(message)`, the `TypeError` of reading a property of `undefined`, the errors of the
database driver and of the queue. -/
inductive JsError where
  | invoiceNotFound (id : Uuid)
  | unauthorisedActor (message : String)
  | invalidTransition (current next : InvoiceStatus)
  | vanNotFound (identifier : String)
  | vanAlreadyExists (invoiceId : UuidText)
  | duplicatePayment (idempotencyKey : String)
  | invoiceNotEligible (invoiceId : Uuid) (status : InvoiceStatus)
  | error (message : String)
  | typeError (property : String)
  | pg (e : PgError)
  | redis
  deriving DecidableEq

/-- `'code' in err` and its value. -/
def JsError.code? : JsError → Option String
  | pg e => some e.code
  | _ => none

/-- What the environment of one command decides: the clock, a fresh UUID, the random
digits, and whether the command fails. -/
structure Env where
  now : Timestamp
  uuid : Uuid
  random : Nat
  fault : Bool

/-- `CreateInvoiceInput` of `entities.ts`. -/
structure CreateInvoiceInput where
  invoiceNumber : String
  supplierId : Uuid
  buyerId : Uuid
  amountCents : Int
  currency : String
  dueDate : Timestamp

/-- `CreateVanInput` of `van.repository.ts`. -/
structure CreateVanInput where
  invoiceId : Uuid
  accountNumber : String
  ifscCode : String
  expectedAmountCents : Int
  expiresAt : Timestamp

/-- `CreateLedgerEntryInput` of `van.repository.ts`. -/
structure CreateLedgerEntryInput where
  virtualAccountId : Uuid
  entryType : EntryType
  amountCents : Int
  description : String
  idempotencyKey : String

/-- `CreateEventInput` of `event.repository.ts`. -/
structure CreateEventInput where
  invoiceId : Uuid
  eventType : String
  payload : EventPayload
  actorId : Option Uuid

/-- The statements, with their parameters. -/
inductive Sql where
  | selectInvoiceById (id : Uuid)
  | selectInvoiceByNumber (number : String)
  | insertInvoice (input : CreateInvoiceInput)
  | updateInvoiceStatus (id : Uuid) (status : InvoiceStatus)
  | updateInvoiceSignature (id : Uuid) (signature : String)
  | selectVanByInvoiceId (invoiceId : Uuid)
  | selectVanByAccountNumber (accountNumber : String)
  | insertVan (input : CreateVanInput)
  | updateReceivedAmount (id : Uuid) (additional : Int)
  | settleAccount (id : Uuid)
  | insertLedgerEntry (input : CreateLedgerEntryInput)
  | selectLedgerEntries (vanId : Uuid)
  | insertEvent (input : CreateEventInput)
  | selectEvents (invoiceId : Uuid)
  | selectOrganisation (id : Uuid)
  | selectCredential (orgId : Uuid)

/-- The rows that a statement answers. -/
abbrev Sql.Rows : Sql → Type
  | selectInvoiceById _ | selectInvoiceByNumber _ | insertInvoice _
  | updateInvoiceStatus _ _ | updateInvoiceSignature _ _ => List Invoice
  | selectVanByInvoiceId _ | selectVanByAccountNumber _ | insertVan _
  | updateReceivedAmount _ _ | settleAccount _ => List VirtualAccount
  | insertLedgerEntry _ | selectLedgerEntries _ => List LedgerEntry
  | insertEvent _ | selectEvents _ => List InvoiceEvent
  | selectOrganisation _ => List Organisation
  | selectCredential _ => List Credential

/-- The largest `BIGINT`. -/
def maxBigint : Int := 2 ^ 63 - 1

/-- A `BIGINT` value with the check `> 0`. -/
def positiveBigint (table constraint : String) (amount : Int) : Except PgError Unit :=
  if maxBigint < amount ∨ amount < -maxBigint - 1 then .error .numericValueOutOfRange
  else if amount ≤ 0 then .error (.checkViolation table constraint)
  else .ok ()

/-- A constraint that holds, or its error. -/
def require (p : Bool) (e : PgError) : Except PgError Unit :=
  if p then .ok () else .error e

/-- What a `DATE` column keeps of an instant: the midnight of its day. -/
def dateColumn (t : Timestamp) : Timestamp := t / Calendar.dayLength * Calendar.dayLength

/-- What a `CHAR(n)` column keeps of a text: spaces fill it up to the length. A longer text is
an error of PostgreSQL, but `SubmitInvoiceSchema` lets none through. -/
def charColumn (n : Nat) (s : String) : String := String.ofList (s.toList.rightpad n ' ')

/-- The row that `INSERT INTO invoices` creates. -/
def CreateInvoiceInput.row (input : CreateInvoiceInput) (start env : Env) : Invoice :=
  { id := env.uuid
    invoiceNumber := input.invoiceNumber
    supplierId := input.supplierId
    buyerId := input.buyerId
    amountCents := input.amountCents
    currency := charColumn 3 input.currency
    dueDate := dateColumn input.dueDate
    status := .draft
    buyerSignature := none
    createdAt := start.now
    updatedAt := start.now }

/-- The row that `INSERT INTO virtual_accounts` creates. -/
def CreateVanInput.row (input : CreateVanInput) (start env : Env) : VirtualAccount :=
  { id := env.uuid
    invoiceId := input.invoiceId
    accountNumber := input.accountNumber
    ifscCode := input.ifscCode
    expectedAmountCents := input.expectedAmountCents
    receivedAmountCents := 0
    status := .active
    expiresAt := input.expiresAt
    createdAt := start.now }

/-- The row that `INSERT INTO ledger_entries` creates. -/
def CreateLedgerEntryInput.row (input : CreateLedgerEntryInput) (start : Env) :
    LedgerEntry :=
  { virtualAccountId := input.virtualAccountId
    entryType := input.entryType
    amountCents := input.amountCents
    description := input.description
    idempotencyKey := input.idempotencyKey
    createdAt := start.now }

/-- The row that `INSERT INTO invoice_events` creates. -/
def CreateEventInput.row (input : CreateEventInput) (start : Env) : InvoiceEvent :=
  { invoiceId := input.invoiceId
    eventType := input.eventType
    payload := input.payload
    actorId := input.actorId
    occurredAt := start.now }

/-- `SET status = $1, updated_at = now()`. -/
def Invoice.setStatus (r : Invoice) (status : InvoiceStatus) (now : Timestamp) : Invoice :=
  { r with status := status, updatedAt := now }

/-- `SET buyer_signature = $1, updated_at = now()`. -/
def Invoice.sign (r : Invoice) (signature : String) (now : Timestamp) : Invoice :=
  { r with buyerSignature := some signature, updatedAt := now }

/-- `SET received_amount_cents = received_amount_cents + $1`. -/
def VirtualAccount.receive (v : VirtualAccount) (amount : Int) : VirtualAccount :=
  { v with receivedAmountCents := v.receivedAmountCents + amount }

/-- `SET status = 'settled'`. -/
def VirtualAccount.settle (v : VirtualAccount) : VirtualAccount :=
  { v with status := .settled }

/-- An `UPDATE … WHERE id = $n RETURNING *` of the row that was found. -/
def updateRow {α : Type} (version : α → RowVersion) (f : α → α) :
    Option α → List RowVersion × List α
  | none => ([], [])
  | some r => ([version (f r)], [f r])

/-- One statement on one database, in a transaction begun at `start`. -/
def Sql.exec : (q : Sql) → (start env : Env) → Database →
    Except PgError (List RowVersion × q.Rows)
  | .selectInvoiceById id, _, _, db => .ok ([], (db.invoice id).toList)
  | .selectInvoiceByNumber number, _, _, db =>
    .ok ([], (db.invoices.rows.find? fun r => r.invoiceNumber == number).toList)
  -- The checks of the values, then the unique indexes, then the foreign keys.
  | .insertInvoice input, start, env, db => do
    positiveBigint "invoices" "invoices_amount_cents_check" input.amountCents
    require (input.buyerId != input.supplierId) (.checkViolation "invoices" "chk_buyer_ne_supplier")
    require (db.invoice env.uuid).isNone (.uniqueViolation "invoices_pkey")
    require (db.invoices.rows.all fun r => r.invoiceNumber != input.invoiceNumber)
      (.uniqueViolation "invoices_invoice_number_key")
    require (db.organisations.get? input.supplierId).isSome
      (.foreignKeyViolation "invoices" "invoices_supplier_id_fkey")
    require (db.organisations.get? input.buyerId).isSome
      (.foreignKeyViolation "invoices" "invoices_buyer_id_fkey")
    .ok ([.invoice (input.row start env)], [input.row start env])
  | .updateInvoiceStatus id status, start, _, db =>
    .ok (updateRow .invoice (fun r => r.setStatus status start.now) (db.invoice id))
  | .updateInvoiceSignature id signature, start, _, db =>
    .ok (updateRow .invoice (fun r => r.sign signature start.now) (db.invoice id))
  | .selectVanByInvoiceId invoiceId, _, _, db =>
    .ok ([], (db.virtualAccounts.rows.find? fun v => v.invoiceId == invoiceId).toList)
  | .selectVanByAccountNumber accountNumber, _, _, db =>
    .ok ([], (db.virtualAccounts.rows.find? fun v => v.accountNumber == accountNumber).toList)
  | .insertVan input, start, env, db => do
    positiveBigint "virtual_accounts" "virtual_accounts_expected_amount_cents_check"
      input.expectedAmountCents
    require (db.van env.uuid).isNone (.uniqueViolation "virtual_accounts_pkey")
    require (db.virtualAccounts.rows.all fun v => v.invoiceId != input.invoiceId)
      (.uniqueViolation "virtual_accounts_invoice_id_key")
    require (db.virtualAccounts.rows.all fun v => v.accountNumber != input.accountNumber)
      (.uniqueViolation "virtual_accounts_account_number_key")
    require (db.invoice input.invoiceId).isSome
      (.foreignKeyViolation "virtual_accounts" "virtual_accounts_invoice_id_fkey")
    .ok ([.virtualAccount (input.row start env)], [input.row start env])
  | .updateReceivedAmount id additional, _, _, db =>
    match db.van id with
    | none => .ok ([], [])
    | some v => do
      -- The sum is of the stored balance, whatever the caller has read before.
      require (decide (v.receivedAmountCents + additional ≤ maxBigint)) .numericValueOutOfRange
      require (decide (0 ≤ v.receivedAmountCents + additional))
        (.checkViolation "virtual_accounts" "virtual_accounts_received_amount_cents_check")
      .ok ([.virtualAccount (v.receive additional)], [v.receive additional])
  | .settleAccount id, _, _, db =>
    .ok (updateRow .virtualAccount VirtualAccount.settle (db.van id))
  | .insertLedgerEntry input, start, _, db => do
    positiveBigint "ledger_entries" "ledger_entries_amount_cents_check" input.amountCents
    require (db.ledgerEntries.all fun e => e.idempotencyKey != input.idempotencyKey)
      (.uniqueViolation "ledger_entries_idempotency_key_key")
    require (db.van input.virtualAccountId).isSome
      (.foreignKeyViolation "ledger_entries" "ledger_entries_virtual_account_id_fkey")
    .ok ([.ledgerEntry (input.row start)], [input.row start])
  -- `ORDER BY created_at ASC`.
  | .selectLedgerEntries vanId, _, _, db =>
    .ok ([], (db.entriesOf vanId).insertionSort fun a b => a.createdAt ≤ b.createdAt)
  | .insertEvent input, start, _, db => do
    require (db.invoice input.invoiceId).isSome
      (.foreignKeyViolation "invoice_events" "invoice_events_invoice_id_fkey")
    .ok ([.invoiceEvent (input.row start)], [input.row start])
  | .selectEvents invoiceId, _, _, db =>
    .ok ([], (db.eventsOf invoiceId).insertionSort fun a b => a.occurredAt ≤ b.occurredAt)
  | .selectOrganisation id, _, _, db => .ok ([], (db.organisations.get? id).toList)
  | .selectCredential orgId, _, _, db => .ok ([], (db.credentials.get? orgId).toList)

/-- `InvoiceApprovedPayload` of `job-payloads.ts`. -/
structure InvoiceApprovedPayload where
  invoiceId : Uuid
  invoiceNumber : String
  supplierId : Uuid
  supplierEmail : String
  buyerId : Uuid
  amountCents : Int
  currency : String
  dueDate : Timestamp
  approvedAt : Timestamp

/-- `SettlementReceiptPdfPayload` of `job-payloads.ts`. -/
structure SettlementReceiptPdfPayload where
  invoiceId : Uuid
  invoiceNumber : String
  supplierId : Uuid
  buyerId : Uuid
  amountCents : Int
  currency : String
  settledAt : Timestamp

/-- A job, with its queue, its type and its `jobId`. -/
inductive Job where
  | invoiceApproved (payload : InvoiceApprovedPayload) (jobId : String)
  | settlementReceiptPdf (payload : SettlementReceiptPdfPayload) (jobId : String)

/-- The calls that do not touch the database. -/
inductive Ext where
  | connect
  | release
  | date
  | random
  | queueAdd (job : Job)

/-- What such a call answers. -/
abbrev Ext.Res : Ext → Type
  | connect | release | queueAdd _ => Unit
  | date => Timestamp
  | random => Nat

/-- `release` never fails. The clock and the random digits do not either. -/
def Ext.run : (e : Ext) → Env → Except JsError e.Res
  | .connect, env => if env.fault then .error (.pg .connectionFailure) else .ok ()
  | .release, _ => .ok ()
  | .date, env => .ok env.now
  -- `Math.floor(1000 + Math.random() * 9000)`.
  | .random, env => .ok (1000 + env.random % 9000)
  | .queueAdd _, env => if env.fault then .error .redis else .ok ()

/-- The PostgreSQL engine. -/
def postgres : Engine Database RowVersion Sql Ext Env JsError Sql.Rows Ext.Res where
  exec q start env db := (q.exec start env db).mapError .pg
  ext := Ext.run
  fault env := if env.fault then some (.pg .connectionFailure) else none
  aborted := .pg .inFailedTransaction

/-- The commands of the services. -/
abbrev Cmd := Command Sql Ext

/-- The asynchronous functions of the services. -/
abbrev Async := Await Cmd (Command.Res Sql.Rows Ext.Res) JsError

/-- `client.query('BEGIN')`. -/
def begin : Async Unit := Await.await (.begin : Cmd)

/-- `client.query('COMMIT')`. -/
def commit : Async Unit := Await.await (.commit : Cmd)

/-- `client.query('ROLLBACK')`. -/
def rollback : Async Unit := Await.await (.rollback : Cmd)

/-- `client.query(q)`. -/
def clientQuery (q : Sql) : Async q.Rows := Await.await (.client q : Cmd)

/-- `pool.query(q)`. -/
def poolQuery (q : Sql) : Async q.Rows := Await.await (.pool q : Cmd)

/-- `pool.connect()`. -/
def connect : Async Unit := Await.await (.ext .connect : Cmd)

/-- `client.release()`. -/
def release : Async Unit := Await.await (.ext .release : Cmd)

/-- `new Date()`. -/
def newDate : Async Timestamp := Await.await (.ext .date : Cmd)

/-- `Math.floor(1000 + Math.random() * 9000)`. -/
def randomDigits : Async Nat := Await.await (.ext .random : Cmd)

/-- `queue.add(…)`. -/
def queueAdd (job : Job) : Async Unit := Await.await (.ext (.queueAdd job) : Cmd)

/-- The connection that a repository method uses: `client ?? this.pool`. -/
inductive Runner where
  | client
  | pool

/-- `runner.query(q)`. -/
def Runner.query : Runner → (q : Sql) → Async q.Rows
  | client, q => clientQuery q
  | pool, q => poolQuery q

/-- `const client = await pool.connect()`, then the `try` block with the `catch` block of
the services, which rolls back and runs `handler`, then `client.release()`. -/
def withClient {α : Type} (body : Async α) (handler : JsError → Async α) : Async α := do
  connect
  Await.tryFinally body (fun err => do rollback; handler err) release

end Vanguard
