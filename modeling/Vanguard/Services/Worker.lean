import Vanguard.Database.Postgres
import Vanguard.Library.Calendar
import Vanguard.Library.Handlers

/-!
# `Vanguard.Services.Worker`: the job handlers

The handlers that `worker.ts` runs for the jobs of the services: `invoice-approved.handler.ts`
with the mail of `mailer.ts` and `invoice-approved.template.ts`, and
`settlement-receipt.handler.ts` with the receipt of `receipt-generator.ts`, whose path goes to the
column `pdf_receipt_path` of `V004__pdf_storage.sql`.

What the handlers take from ICU and from the configuration are the fields of a `WorkerRuntime`. A
document is what its text says, without its layout.
-/

set_option autoImplicit false

namespace Vanguard

open ReadCommitted

/-! ### Dates and amounts -/

/-- A number with leading zeros. -/
def padStart (width : Nat) (n : Int) : String :=
  let digits := toString n.natAbs
  String.ofList (List.replicate (width - digits.length) '0') ++ digits

/-- The year of an ISO string. -/
def isoYear (year : Int) : String :=
  if 0 ≤ year ∧ year ≤ 9999 then padStart 4 year
  else (if year < 0 then "-" else "+") ++ padStart 6 year

/-- `new Date(t).toISOString()`. -/
def toISOString (t : Timestamp) : String :=
  let d := Calendar.localDate 0 t
  let ms := t % Calendar.dayLength
  isoYear d.year ++ "-" ++ padStart 2 d.month ++ "-" ++ padStart 2 d.day ++ "T" ++
    padStart 2 (ms / 3600000) ++ ":" ++ padStart 2 (ms / 60000 % 60) ++ ":" ++
    padStart 2 (ms / 1000 % 60) ++ "." ++ padStart 3 (ms % 1000) ++ "Z"

/-- What the handlers take from their runtime, on amounts in cents.

- `formatMoney` is `Intl.NumberFormat('en-IN', { style: 'currency', currency }).format`, `none`
  when it does not accept the currency;
- `localeAmount` is `toLocaleString('en-IN', …)` with two digits after the point;
- `localeDate` is `toLocaleDateString('en-IN', …)` with a two-digit day, the month and the year;
- `smtpFrom` is `env.SMTP_FROM`. -/
structure WorkerRuntime where
  formatMoney : (amountCents : Int) → (currency : String) → Option String
  localeAmount : (amountCents : Int) → String
  localeDate : Timestamp → String
  smtpFrom : String

/-! ### The documents -/

/-- A document: its labels and their values. -/
abbrev Rows := List (String × String)

/-- What `sendEmail` sends: `from`, `to` and the rest. `html` are the rows of the page. -/
structure Mail where
  sender : String
  recipient : String
  subject : String
  html : Rows
  text : String
  deriving DecidableEq

/-- `invoiceApprovedHtml`. -/
def invoiceApprovedHtml (runtime : WorkerRuntime) (data : InvoiceApprovedPayload) :
    Option Rows := do
  let amount ← runtime.formatMoney data.amountCents data.currency
  pure
    [("Invoice number", data.invoiceNumber), ("Invoice amount", amount),
      ("Due date", runtime.localeDate data.dueDate),
      ("Approved on", runtime.localeDate data.approvedAt)]

/-- `invoiceApprovedText`. -/
def invoiceApprovedText (runtime : WorkerRuntime) (data : InvoiceApprovedPayload) :
    Option String := do
  let amount ← runtime.formatMoney data.amountCents data.currency
  pure <| trim <|
    "\nInvoice Approved — Vanguard Settlement Engine\n\nYour invoice " ++ data.invoiceNumber ++
      " for " ++ amount ++ " has been approved by the buyer.\nDue date: " ++
      toISOString data.dueDate ++ "\nApproved: " ++ toISOString data.approvedAt ++
      "\n\nLog in to request financing against this invoice.\n\n---\n" ++
      "Automated notification from Vanguard Settlement Engine.\n"

/-- What the PDF of `generateSettlementReceipt` says. -/
structure Receipt where
  generated : String
  settled : String
  rows : Rows
  total : String
  invoiceId : Uuid
  deriving DecidableEq

/-- `formatCurrency` of `receipt-generator.ts`. -/
def formatCurrency (runtime : WorkerRuntime) (amountCents : Int) (currency : String) : String :=
  currency ++ " " ++ runtime.localeAmount amountCents

/-- The document that is generated at a time. -/
def settlementReceipt (runtime : WorkerRuntime) (data : SettlementReceiptPdfPayload)
    (now : Timestamp) : Receipt :=
  { generated := "Receipt generated: " ++ runtime.localeDate now
    settled := "Settled on " ++ runtime.localeDate data.settledAt
    rows :=
      [("Invoice Number", data.invoiceNumber),
        ("Invoice Amount", formatCurrency runtime data.amountCents data.currency),
        ("Currency", data.currency), ("Supplier ID", data.supplierId.text),
        ("Buyer ID", data.buyerId.text), ("Settlement Date", runtime.localeDate data.settledAt)]
    total := formatCurrency runtime data.amountCents data.currency
    invoiceId := data.invoiceId }

/-- `path.join('storage', 'receipts', filename)`. -/
def receiptPath (invoiceId : Uuid) (now : Timestamp) : String :=
  "storage/receipts/receipt-" ++ invoiceId.text ++ "-" ++ toString now ++ ".pdf"

/-! ### The calls of the handlers -/

/-- What a handler leaves outside of its process. -/
inductive Effect where
  | mail (m : Mail)
  /-- A finished file, by its path from the working directory. -/
  | file (path : String) (receipt : Receipt)
  /-- The value of `pdf_receipt_path` in the row of an invoice. -/
  | column (invoiceId : Uuid) (path : String)
  deriving DecidableEq

/-- The calls of the handlers. -/
inductive WorkerCmd where
  | date
  | sendMail (m : Mail)
  | writeFile (path : String) (receipt : Receipt)
  | updateReceiptPath (path : String) (invoiceId : Uuid)

/-- What such a call answers. -/
abbrev WorkerCmd.Res : WorkerCmd → Type
  | date => Timestamp
  | sendMail _ | writeFile _ _ | updateReceiptPath _ _ => Unit

/-- What the handlers throw. -/
inductive WorkerError where
  | rangeError
  | smtp
  | disk
  | pg (e : PgError)

/-- A call to the outside. When it fails, its effect may have happened. -/
def Env.attempt (env : Env) (fx : List Effect) (e : WorkerError) :
    List Effect × Except WorkerError Unit :=
  if env.fault then (if env.random % 2 = 0 then [] else fx, .error e) else (fx, .ok ())

/-- The calls. The `UPDATE` writes the row of the invoice, if there is one. It also sets
`updated_at`, which is left out. -/
def workerEffects : Effects WorkerCmd Env WorkerError Database Effect WorkerCmd.Res
  | _, .date, env => ([], .ok env.now)
  | _, .sendMail m, env => env.attempt [.mail m] .smtp
  | _, .writeFile path receipt, env => env.attempt [.file path receipt] .disk
  | db, .updateReceiptPath path id, env =>
    env.attempt ((db.invoice id).toList.map fun r => .column r.id path) (.pg .connectionFailure)

/-- The asynchronous functions of the worker. -/
abbrev WorkerAsync := Await WorkerCmd WorkerCmd.Res WorkerError

/-- `new Date()` and `Date.now()`. -/
def workerDate : WorkerAsync Timestamp := Await.await (.date : WorkerCmd)

/-! ### The handlers -/

/-- `sendEmail`. -/
def sendEmail (m : Mail) : WorkerAsync Unit := Await.await (.sendMail m : WorkerCmd)

/-- `InvoiceApprovedHandler.handle`. -/
def InvoiceApprovedHandler.handle (runtime : WorkerRuntime) (data : InvoiceApprovedPayload) :
    WorkerAsync Unit :=
  match invoiceApprovedHtml runtime data, invoiceApprovedText runtime data with
  | some html, some text =>
    sendEmail
      { sender := runtime.smtpFrom
        recipient := data.supplierEmail
        subject := "Invoice " ++ data.invoiceNumber ++ " approved — request financing now"
        html := html
        text := text }
  | _, _ => throw .rangeError

/-- `generateSettlementReceipt`. -/
def generateSettlementReceipt (runtime : WorkerRuntime) (data : SettlementReceiptPdfPayload) :
    WorkerAsync String := do
  let now ← workerDate
  let path := receiptPath data.invoiceId now
  let generated ← workerDate
  Await.await (.writeFile path (settlementReceipt runtime data generated) : WorkerCmd)
  pure path

/-- `SettlementReceiptHandler.handle`. -/
def SettlementReceiptHandler.handle (runtime : WorkerRuntime)
    (data : SettlementReceiptPdfPayload) : WorkerAsync Unit := do
  let pdfPath ← generateSettlementReceipt runtime data
  Await.await (.updateReceiptPath pdfPath data.invoiceId : WorkerCmd)

/-- `handlers[job.name]`, which both workers share, on a job of the services. -/
def Job.handle (runtime : WorkerRuntime) : Job → WorkerAsync Unit
  | .invoiceApproved data _ => InvoiceApprovedHandler.handle runtime data
  | .settlementReceiptPdf data _ => SettlementReceiptHandler.handle runtime data

/-- The handlers of the worker processes. -/
abbrev Workers := Crew Job WorkerCmd WorkerError Effect (Except WorkerError Unit) WorkerCmd.Res

/-- A step of the worker processes. -/
abbrev WorkerAction := CrewAction Env

/-- One step of the worker processes, on the jobs that the queues hold. -/
def Workers.step (runtime : WorkerRuntime) (jobs : List Job) (db : Database) (ws : Workers)
    (a : WorkerAction) : Option Workers :=
  Crew.step workerEffects (fun job => (job.handle runtime).run) jobs db ws a

/-- The mails that were sent. -/
def Workers.mails (ws : Workers) : List Mail :=
  ws.log.filterMap fun e => match e.2 with
    | .mail m => some m
    | _ => none

/-- The receipt in a file: the last one that was written there. -/
def Workers.file? (ws : Workers) (path : String) : Option Receipt :=
  ws.log.reverse.findSome? fun e => match e.2 with
    | .file path' receipt => if path' = path then some receipt else none
    | _ => none

/-- `pdf_receipt_path` of an invoice: the last value that was written. -/
def Workers.pdfReceiptPath (ws : Workers) (invoiceId : Uuid) : Option String :=
  ws.log.reverse.findSome? fun e => match e.2 with
    | .column id path => if id = invoiceId then some path else none
    | _ => none

example : toISOString 951827696789 = "2000-02-29T12:34:56.789Z" := by decide +kernel

end Vanguard
