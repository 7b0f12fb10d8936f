import Vanguard.Database.Postgres

/-!
# `Vanguard.Services.Repositories`: the repository methods

`core/repositories`: one function for each method that the services call, with the
connection it uses. A method without a `client` parameter in the source runs on the pool.
`InvoiceRepository.save` is one of them, although `submitInvoice` calls it inside its
transaction.
-/

set_option autoImplicit false

namespace Vanguard

/-- `result.rows[0]!`, of which the services read the `id`. The rows are those of an `INSERT`,
which returns its row. -/
def firstRow {α : Type} : List α → Async α
  | r :: _ => pure r
  | [] => throw (.typeError "id")

/-- `result.rows[0]`, with an error when there is none. -/
def firstRowOr {α : Type} (message : String) : List α → Async α
  | r :: _ => pure r
  | [] => throw (.error message)

/-- Taking the first row sends no statement of its own. -/
theorem only_firstRow {α : Type} {P : Cmd → Prop} (rows : List α) :
    (firstRow rows : Async α).run.Only P := by
  cases rows with
  | nil => exact ReadCommitted.Await.only_throw _
  | cons r rows => exact ReadCommitted.Await.only_pure _

/-- Taking the first row or failing with a message sends no statement of its own. -/
theorem only_firstRowOr {α : Type} {P : Cmd → Prop} (message : String) (rows : List α) :
    (firstRowOr message rows : Async α).run.Only P := by
  cases rows with
  | nil => exact ReadCommitted.Await.only_throw _
  | cons r rows => exact ReadCommitted.Await.only_pure _

namespace InvoiceRepository

/-- `InvoiceRepository.findById`: the invoice of an id, read outside any transaction. -/
def findById (id : Uuid) : Async (Option Invoice) := do
  let rows ← poolQuery (.selectInvoiceById id)
  pure rows.head?

/-- `InvoiceRepository.findByInvoiceNumber`: the invoice of a supplier's number. -/
def findByInvoiceNumber (number : String) : Async (Option Invoice) := do
  let rows ← poolQuery (.selectInvoiceByNumber number)
  pure rows.head?

/-- `InvoiceRepository.save`: the INSERT runs on the pool, so the draft commits at
once. -/
def save (input : CreateInvoiceInput) : Async Invoice := do
  let rows ← poolQuery (.insertInvoice input)
  firstRow rows

/-- `InvoiceRepository.updateStatus`, on the pool or on the caller's transaction; no row
is an error. -/
def updateStatus (id : Uuid) (status : InvoiceStatus) (runner : Runner) : Async Invoice := do
  let rows ← runner.query (.updateInvoiceStatus id status)
  firstRowOr ("Invoice " ++ id.text ++ " not found during status update") rows

end InvoiceRepository

namespace EventRepository

/-- `EventRepository.append`: one row of the event log, in the caller's transaction if
it has one. -/
def append (input : CreateEventInput) (runner : Runner) : Async InvoiceEvent := do
  let rows ← runner.query (.insertEvent input)
  firstRow rows

/-- `EventRepository.findByInvoiceId`: the events of an invoice, in the order of their
times. -/
def findByInvoiceId (invoiceId : Uuid) : Async (List InvoiceEvent) :=
  poolQuery (.selectEvents invoiceId)

end EventRepository

namespace OrganisationRepository

/-- `OrganisationRepository.findById`. -/
def findById (id : Uuid) : Async (Option Organisation) := do
  let rows ← poolQuery (.selectOrganisation id)
  pure rows.head?

end OrganisationRepository

namespace VanRepository

/-- `VanRepository.create`: the new account of an invoice, active and with nothing
received. -/
def create (input : CreateVanInput) (runner : Runner) : Async VirtualAccount := do
  let rows ← runner.query (.insertVan input)
  firstRow rows

/-- `VanRepository.findByInvoiceId`: the account of an invoice, if it has one. -/
def findByInvoiceId (invoiceId : Uuid) : Async (Option VirtualAccount) := do
  let rows ← poolQuery (.selectVanByInvoiceId invoiceId)
  pure rows.head?

/-- `VanRepository.findByAccountNumber`: the account a payment names. -/
def findByAccountNumber (accountNumber : String) : Async (Option VirtualAccount) := do
  let rows ← poolQuery (.selectVanByAccountNumber accountNumber)
  pure rows.head?

/-- `VanRepository.updateReceivedAmount`: the sum is taken in the statement, on the row
as it is when the lock is granted. -/
def updateReceivedAmount (id : Uuid) (additionalAmountCents : Int) (runner : Runner) :
    Async VirtualAccount := do
  let rows ← runner.query (.updateReceivedAmount id additionalAmountCents)
  firstRowOr ("VirtualAccount " ++ id.text ++ " not found") rows

/-- `VanRepository.settleAccount`: the status becomes `settled`, whatever it was. -/
def settleAccount (id : Uuid) (runner : Runner) : Async VirtualAccount := do
  let rows ← runner.query (.settleAccount id)
  firstRowOr ("VirtualAccount " ++ id.text ++ " not found") rows

/-- `VanRepository.appendLedgerEntry`: the INSERT whose unique key refuses a repeated
payment. -/
def appendLedgerEntry (input : CreateLedgerEntryInput) (runner : Runner) :
    Async LedgerEntry := do
  let rows ← runner.query (.insertLedgerEntry input)
  firstRow rows

/-- `VanRepository.getLedgerEntries`: the entries of an account, oldest first. -/
def getLedgerEntries (vanId : Uuid) : Async (List LedgerEntry) :=
  poolQuery (.selectLedgerEntries vanId)

end VanRepository

end Vanguard
