import Vanguard.Services.Repositories

/-!
# `Vanguard.Services.VanService`: virtual accounts and payments

`core/services/van.service.ts`. `recordPayment` has two guards against a repeated payment:
the keys of the account's ledger entries before the transaction, and the `UNIQUE` key of
`ledger_entries` inside it.
-/

set_option autoImplicit false

namespace Vanguard

/-- `CreateVanCommand` of `van.service.types.ts`. `invoiceText` is its `invoice_id`, as the
request spells it. -/
structure CreateVanCommand where
  invoiceText : UuidText
  expectedAmountCents : Int
  deriving DecidableEq

/-- The invoice that the statements find under `invoice_id`. -/
abbrev CreateVanCommand.invoiceId (cmd : CreateVanCommand) : Uuid := cmd.invoiceText.uuid

/-- `RecordPaymentCommand` of `van.service.types.ts`. `paidAt` is the ISO text of the
date. -/
structure RecordPaymentCommand where
  accountNumber : String
  amountCents : Int
  idempotencyKey : String
  paidAt : String
  deriving DecidableEq

/-- `VanWithLedger` of `van.service.types.ts`. -/
structure VanWithLedger where
  virtualAccount : VirtualAccount
  ledgerEntries : List LedgerEntry
  isFullySettled : Bool

/-- Ninety days of 24 hours. `setDate(getDate() + 90)` counts local days, which come to the same
where the clock of the server does not change between summer and winter, as at UTC. -/
def vanLifetime : Int := 90 * 86400000

/-- The key of the debit entry of an advance: it has the text of the request, not the one of the
stored `invoice_id`. -/
def advanceKey (invoice : UuidText) : String := "advance-" ++ invoice.text

/-- The ledger entry of an advance. -/
def CreateVanCommand.debit (cmd : CreateVanCommand) (invoiceNumber : String) (vanId : Uuid) :
    CreateLedgerEntryInput :=
  { virtualAccountId := vanId
    entryType := .debit
    amountCents := cmd.expectedAmountCents
    description := "Financing advance for invoice " ++ invoiceNumber
    idempotencyKey := advanceKey cmd.invoiceText }

/-- The ledger entry of a payment. -/
def RecordPaymentCommand.credit (cmd : RecordPaymentCommand) (vanId : Uuid) :
    CreateLedgerEntryInput :=
  { virtualAccountId := vanId
    entryType := .credit
    amountCents := cmd.amountCents
    description := "Buyer payment received on " ++ cmd.paidAt
    idempotencyKey := cmd.idempotencyKey }

/-- The Layer-1 comparison: some entry has the key of the payment, up to white space at
the ends. -/
def isDuplicate (entries : List LedgerEntry) (idempotencyKey : String) : Bool :=
  entries.any fun e => trim e.idempotencyKey == trim idempotencyKey

/-- The settle test on the row that the `UPDATE` returned. -/
def VirtualAccount.paidInFull (v : VirtualAccount) : Prop :=
  number v.expectedAmountCents ≤ number v.receivedAmountCents

/-- Whether an account is paid in full can be decided. -/
instance (v : VirtualAccount) : Decidable v.paidInFull :=
  inferInstanceAs (Decidable (_ ≤ _))

namespace VanService

/-- `generateAccountNumber`. -/
def generateAccountNumber : Async String := do
  let now ← newDate
  let random ← randomDigits
  pure ("VSE" ++ lastChars (toString now) 8 ++ toString random)

/-- `createVan`. -/
def createVan (cmd : CreateVanCommand) : Async VirtualAccount := do
  match ← InvoiceRepository.findById cmd.invoiceId with
  | none => throw (.error ("Invoice not found: " ++ cmd.invoiceText.text))
  | some invoice =>
    if invoice.status ≠ .financingRequested then
      throw (.error ("Cannot create VAN for invoice in status: " ++ invoice.status.text ++
        ". Invoice must be in FINANCING_REQUESTED status."))
    let existing ← VanRepository.findByInvoiceId cmd.invoiceId
    if existing.isSome then
      throw (.vanAlreadyExists cmd.invoiceText)
    let accountNumber ← generateAccountNumber
    let ifscCode := "YESB0CMSNOC"
    let now ← newDate
    let expiresAt := now + vanLifetime
    withClient (do
        begin
        -- The account and its advance. The invoice keeps its status.
        let van ← VanRepository.create
          { invoiceId := cmd.invoiceId
            accountNumber := accountNumber
            ifscCode := ifscCode
            expectedAmountCents := cmd.expectedAmountCents
            expiresAt := expiresAt } .client
        let _ ← VanRepository.appendLedgerEntry (cmd.debit invoice.invoiceNumber van.id)
          .client
        let _ ← EventRepository.append
          { invoiceId := cmd.invoiceId
            eventType := "van.created"
            payload := .vanCreated van.id accountNumber ifscCode cmd.expectedAmountCents
              expiresAt
            actorId := none } .client
        commit
        pure van)
      fun err => throw err

/-- The settle branch of `recordPayment`, from `settleAccount` to the queued receipt. -/
def settle (cmd : RecordPaymentCommand) (van updated : VirtualAccount) :
    Async VirtualAccount := do
  let finalVan ← VanRepository.settleAccount van.id .client
  -- A raw `UPDATE`, without `assertValidTransition`.
  let _ ← clientQuery (.updateInvoiceStatus van.invoiceId .repaid)
  let settledAt ← newDate
  let _ ← EventRepository.append
    { invoiceId := van.invoiceId
      eventType := "invoice.repaid"
      payload := .repaid van.id updated.receivedAmountCents cmd.idempotencyKey settledAt
      actorId := none } .client
  commit
  match ← InvoiceRepository.findById van.invoiceId with
  | none => pure finalVan
  | some invoice =>
    let settledAt' ← newDate
    queueAdd (.settlementReceiptPdf
      { invoiceId := invoice.id
        invoiceNumber := invoice.invoiceNumber
        supplierId := invoice.supplierId
        buyerId := invoice.buyerId
        amountCents := invoice.amountCents
        currency := invoice.currency
        settledAt := settledAt' }
      ("receipt-" ++ invoice.id.text))
    pure finalVan

/-- The `catch` block of `recordPayment` after the `ROLLBACK`: a unique violation is a
duplicate payment. -/
def onPaymentError (cmd : RecordPaymentCommand) (err : JsError) : Async VanWithLedger :=
  if err.code? = some "23505" then throw (.duplicatePayment cmd.idempotencyKey)
  else throw err

/-- `recordPayment`. -/
def recordPayment (cmd : RecordPaymentCommand) : Async VanWithLedger := do
  match ← VanRepository.findByAccountNumber cmd.accountNumber with
  | none => throw (.vanNotFound cmd.accountNumber)
  | some van =>
    if van.status = .expired then
      throw (.error ("Virtual account " ++ cmd.accountNumber ++ " has expired"))
    -- Layer 1, before the settled guard.
    let existingEntries ← VanRepository.getLedgerEntries van.id
    if isDuplicate existingEntries cmd.idempotencyKey then
      throw (.duplicatePayment cmd.idempotencyKey)
    if van.status = .settled then
      throw (.error ("Virtual account " ++ cmd.accountNumber ++ " is already settled"))
    withClient (do
        begin
        let _ ← VanRepository.appendLedgerEntry (cmd.credit van.id) .client
        let updated ← VanRepository.updateReceivedAmount van.id cmd.amountCents .client
        let finalVan ←
          if updated.paidInFull then settle cmd van updated
          else do
            commit
            pure updated
        -- The second `COMMIT` finds no transaction and is only a warning.
        commit
        -- On the pool, after the transaction.
        let ledgerEntries ← VanRepository.getLedgerEntries van.id
        pure
          { virtualAccount := finalVan
            ledgerEntries := ledgerEntries
            isFullySettled := finalVan.status == .settled })
      (onPaymentError cmd)

/-- `getVanDetails`. -/
def getVanDetails (invoiceId : Uuid) : Async VanWithLedger := do
  match ← VanRepository.findByInvoiceId invoiceId with
  | none => throw (.vanNotFound invoiceId.text)
  | some van =>
    let ledgerEntries ← VanRepository.getLedgerEntries van.id
    pure
      { virtualAccount := van
        ledgerEntries := ledgerEntries
        isFullySettled := van.status == .settled }

end VanService

end Vanguard
