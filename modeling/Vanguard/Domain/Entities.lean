import Vanguard.Domain.Javascript
import Vanguard.Library.Table
import Vanguard.Library.Timeline

/-!
# `Vanguard.Domain.Entities`: the rows of the database

The entities of `core/domain/entities.ts`, which mirror the tables of
`V001__initial_schema.sql`, and the tables themselves (`Database`). Amounts are
`BIGINT` paise and dates are `Timestamp`s.

A `Uuid` is its canonical text, the lower-case hexadecimal digits and hyphens that
PostgreSQL prints. A request may spell a UUID in upper case, and every statement casts what it
is given. `createVan` also writes the text of its request into a ledger key, so its command has
a `UuidText`. The other services only echo the text, in the message of an error or in the answer
of an assessment, and compare no text of a request: an actor's id comes from a token, which has
the canonical text. So their commands have the `Uuid`.

A row version (`RowVersion`) is what one `INSERT` or `UPDATE` writes. Two uncommitted row
versions clash when they are versions of one row or share a unique key of
`V001__initial_schema.sql`: `invoice_number`, `account_number`, the `invoice_id` of a
virtual account, or `idempotency_key`.
-/

set_option autoImplicit false

namespace Vanguard

open ReadCommitted (Table Store)

/-- A character of the canonical text of a UUID. -/
def isUuidChar (c : Char) : Bool :=
  ('0' ≤ c && c ≤ '9') || ('a' ≤ c && c ≤ 'f') || c == '-'

/-- A UUID, as its canonical text. -/
structure Uuid where
  text : String
  canonical : text.toList.all isUuidChar = true
  deriving DecidableEq

/-- A character of a UUID in a request: its digits are of either case. -/
def isUuidTextChar (c : Char) : Bool := isUuidChar c || ('A' ≤ c && c ≤ 'F')

/-- What holds of the ASCII characters of a UUID holds of all its characters. -/
theorem uuidTextChar_ascii {P : Char → Prop}
    (hascii : ∀ n < 103, isUuidTextChar (Char.ofNat n) = true → P (Char.ofNat n)) {c : Char}
    (h : isUuidTextChar c = true) : P c := by
  have hlt : c.toNat < 103 := by
    simp only [isUuidTextChar, isUuidChar, Bool.or_eq_true, Bool.and_eq_true, decide_eq_true_eq,
      beq_iff_eq, Char.le_def, UInt32.le_iff_toNat_le] at h
    rcases h with ((⟨-, hmax⟩ | ⟨-, hmax⟩) | rfl) | ⟨-, hmax⟩
    · exact lt_of_le_of_lt hmax (by decide)
    · exact lt_of_le_of_lt hmax (by decide)
    · decide
    · exact lt_of_le_of_lt hmax (by decide)
  have hc := hascii c.toNat hlt
  rw [Char.ofNat_toNat] at hc
  exact hc h

/-- No character of a UUID is white space. -/
theorem isSpace_of_isUuidTextChar {c : Char} (h : isUuidTextChar c = true) :
    isSpace c = false :=
  uuidTextChar_ascii (P := fun c => isSpace c = false) (by decide +kernel) h

/-- In lower case a character of a UUID is canonical. -/
theorem isUuidChar_toLower {c : Char} (h : isUuidTextChar c = true) :
    isUuidChar c.toLower = true :=
  uuidTextChar_ascii (P := fun c => isUuidChar c.toLower = true) (by decide +kernel) h

/-- In lower case a canonical character stays what it is. -/
theorem toLower_of_isUuidChar {c : Char} (h : isUuidChar c = true) : c.toLower = c := by
  have htext : isUuidTextChar c = true := by rw [isUuidTextChar, h, Bool.true_or]
  exact uuidTextChar_ascii (P := fun c => isUuidChar c = true → c.toLower = c)
    (by decide +kernel) htext h

/-- A UUID as a request spells it: `z.string().uuid()` takes digits of either case. -/
structure UuidText where
  text : String
  spelled : text.toList.all isUuidTextChar = true
  deriving DecidableEq

/-- The UUID that PostgreSQL reads in a text. -/
def UuidText.uuid (t : UuidText) : Uuid where
  text := String.ofList (t.text.toList.map Char.toLower)
  canonical := by
    rw [String.toList_ofList, List.all_map]
    exact List.all_eq_true.mpr fun c hc =>
      isUuidChar_toLower (List.all_eq_true.mp t.spelled c hc)

/-- The canonical spelling of a UUID. -/
def Uuid.asText (id : Uuid) : UuidText where
  text := id.text
  spelled := List.all_eq_true.mpr fun c hc => by
    rw [isUuidTextChar, List.all_eq_true.mp id.canonical c hc, Bool.true_or]

/-- The id is what PostgreSQL reads in its own text. -/
@[simp] theorem Uuid.uuid_asText (id : Uuid) : id.asText.uuid = id := by
  have hlower : id.text.toList.map Char.toLower = id.text.toList := by
    refine Eq.trans (List.map_congr_left fun c hc => ?_) (List.map_id _)
    exact toLower_of_isUuidChar (List.all_eq_true.mp id.canonical c hc)
  simp only [UuidText.uuid, Uuid.asText, hlower, String.ofList_toList]

/-- `OrgType` of `entities.ts`. -/
inductive OrgType where
  | buyer
  | supplier
  | platform
  deriving DecidableEq

/-- `InvoiceStatus` of `entities.ts`. -/
inductive InvoiceStatus where
  | draft
  | submitted
  | buyerApproved
  | financingRequested
  | funded
  | repaid
  | defaulted
  | cancelled
  deriving DecidableEq

/-- The text of a status in the database and in error messages. -/
def InvoiceStatus.text : InvoiceStatus → String
  | draft => "DRAFT"
  | submitted => "SUBMITTED"
  | buyerApproved => "BUYER_APPROVED"
  | financingRequested => "FINANCING_REQUESTED"
  | funded => "FUNDED"
  | repaid => "REPAID"
  | defaulted => "DEFAULTED"
  | cancelled => "CANCELLED"

/-- `VanStatus` of `entities.ts`. -/
inductive VanStatus where
  | active
  | settled
  | expired
  deriving DecidableEq

/-- `EntryType` of `entities.ts`. -/
inductive EntryType where
  | debit
  | credit
  deriving DecidableEq

/-- A row of `organisations`. -/
structure Organisation where
  id : Uuid
  legalName : String
  gstin : Option String
  orgType : OrgType

/-- A row of `organisation_credentials`: what the approval notification reads. -/
structure Credential where
  orgId : Uuid
  email : String

/-- A row of `invoices`. -/
structure Invoice where
  id : Uuid
  invoiceNumber : String
  supplierId : Uuid
  buyerId : Uuid
  amountCents : Int
  currency : String
  dueDate : Timestamp
  status : InvoiceStatus
  buyerSignature : Option String
  createdAt : Timestamp
  updatedAt : Timestamp
  deriving DecidableEq

/-- A row of `virtual_accounts`. -/
structure VirtualAccount where
  id : Uuid
  invoiceId : Uuid
  accountNumber : String
  ifscCode : String
  expectedAmountCents : Int
  receivedAmountCents : Int
  status : VanStatus
  expiresAt : Timestamp
  createdAt : Timestamp
  deriving DecidableEq

/-- A row of `ledger_entries`. -/
structure LedgerEntry where
  virtualAccountId : Uuid
  entryType : EntryType
  amountCents : Int
  description : String
  idempotencyKey : String
  createdAt : Timestamp
  deriving DecidableEq

/-- The severity of an anomaly flag. -/
inductive Severity where
  | low
  | medium
  | high
  deriving DecidableEq

/-- `AnomalyFlag` of `risk.types.ts`. -/
structure AnomalyFlag where
  code : String
  message : String
  severity : Severity
  deriving DecidableEq

/-- `RiskDecision` of `risk.types.ts`. -/
inductive RiskDecision where
  | approve
  | reject
  | manualReview
  deriving DecidableEq

/-- The text of a decision. -/
def RiskDecision.text : RiskDecision → String
  | approve => "APPROVE"
  | reject => "REJECT"
  | manualReview => "MANUAL_REVIEW"

/-- `ThreeWayMatchResult` of `risk.types.ts`. -/
structure ThreeWayMatchResult where
  passed : Bool
  variancePct : Rat
  reason : String
  deriving DecidableEq

/-- The payload of an event, one constructor for each place that appends one. -/
inductive EventPayload where
  | submitted (invoiceNumber : String) (amountCents : Int) (buyerId supplierId : Uuid)
  | buyerApproved (buyerId : Uuid) (buyerSignature : String) (approvedAt : Timestamp)
  | financingRequested (supplierId : Uuid) (amountCents : Int) (requestedAt : Timestamp)
  | assessment (decision : RiskDecision) (confidenceScore : Int)
      (reasonCode reasonMessage : String) (buyerRiskScore anomalyScore : Int)
      (anomalyFlags : List AnomalyFlag) (threeWayMatch : ThreeWayMatchResult)
      (assessedAt : Timestamp)
  | vanCreated (virtualAccountId : Uuid) (accountNumber ifscCode : String)
      (expectedAmountCents : Int) (expiresAt : Timestamp)
  | repaid (virtualAccountId : Uuid) (receivedAmountCents : Int) (idempotencyKey : String)
      (settledAt : Timestamp)
  deriving DecidableEq

/-- A row of `invoice_events`. -/
structure InvoiceEvent where
  invoiceId : Uuid
  eventType : String
  payload : EventPayload
  actorId : Option Uuid
  occurredAt : Timestamp
  deriving DecidableEq

/-- The tables. Only the services of this model write them; no service writes
`organisations` or `organisation_credentials`. -/
structure Database where
  organisations : Table Organisation Uuid Organisation.id
  credentials : Table Credential Uuid Credential.orgId
  invoices : Table Invoice Uuid Invoice.id
  virtualAccounts : Table VirtualAccount Uuid VirtualAccount.id
  ledgerEntries : List LedgerEntry
  invoiceEvents : List InvoiceEvent

/-- What one `INSERT` or `UPDATE` writes. -/
inductive RowVersion where
  | invoice (r : Invoice)
  | virtualAccount (r : VirtualAccount)
  | ledgerEntry (r : LedgerEntry)
  | invoiceEvent (r : InvoiceEvent)

/-- The database with one more row version. -/
def Database.write (db : Database) : RowVersion → Database
  | .invoice r => { db with invoices := db.invoices.put r }
  | .virtualAccount r => { db with virtualAccounts := db.virtualAccounts.put r }
  | .ledgerEntry r => { db with ledgerEntries := db.ledgerEntries ++ [r] }
  | .invoiceEvent r => { db with invoiceEvents := db.invoiceEvents ++ [r] }

/-- Two uncommitted row versions that cannot exist side by side. -/
def RowVersion.clash : RowVersion → RowVersion → Bool
  | .invoice a, .invoice b => a.id == b.id || a.invoiceNumber == b.invoiceNumber
  | .virtualAccount a, .virtualAccount b =>
    a.id == b.id || a.accountNumber == b.accountNumber || a.invoiceId == b.invoiceId
  | .ledgerEntry a, .ledgerEntry b => a.idempotencyKey == b.idempotencyKey
  | _, _ => false

/-- The five tables are a store of row versions. -/
instance : Store Database RowVersion where
  write := Database.write
  clash := RowVersion.clash

namespace Database

/-- The invoice with the id. -/
def invoice (db : Database) (id : Uuid) : Option Invoice := db.invoices.get? id

/-- The virtual account with the id. -/
def van (db : Database) (id : Uuid) : Option VirtualAccount := db.virtualAccounts.get? id

/-- The status of the invoice with the id. -/
def statusOf (db : Database) (id : Uuid) : Option InvoiceStatus :=
  (db.invoice id).map Invoice.status

/-- The ledger entries of an account, in insertion order. -/
def entriesOf (db : Database) (vanId : Uuid) : List LedgerEntry :=
  db.ledgerEntries.filter fun e => e.virtualAccountId == vanId

/-- The credit entries of an account, in insertion order. -/
def creditsOf (db : Database) (vanId : Uuid) : List LedgerEntry :=
  db.ledgerEntries.filter fun e => e.virtualAccountId == vanId && e.entryType == .credit

/-- The debit entries of an account, in insertion order. -/
def debitsOf (db : Database) (vanId : Uuid) : List LedgerEntry :=
  db.ledgerEntries.filter fun e => e.virtualAccountId == vanId && e.entryType == .debit

/-- The events of an invoice, in insertion order. -/
def eventsOf (db : Database) (invoiceId : Uuid) : List InvoiceEvent :=
  db.invoiceEvents.filter fun e => e.invoiceId == invoiceId

end Database

end Vanguard
