import Vanguard.Services.Repositories

/-!
# `Vanguard.Services.InvoiceService`: submit, approve, request financing, read the history

The transition table of `core/services/invoice/state-machine.ts` and the operations of
`core/services/invoice.service.ts`.
-/

set_option autoImplicit false

namespace Vanguard

/-- `VALID_TRANSITIONS`. -/
def validTransitions : InvoiceStatus → List InvoiceStatus
  | .draft => [.submitted, .cancelled]
  | .submitted => [.buyerApproved, .cancelled]
  | .buyerApproved => [.financingRequested, .cancelled]
  | .financingRequested => [.funded, .cancelled]
  | .funded => [.repaid, .defaulted]
  | .repaid => []
  | .defaulted => []
  | .cancelled => []

/-- `assertValidTransition`. -/
def assertValidTransition (current next : InvoiceStatus) : Async Unit :=
  if next ∈ validTransitions current then pure ()
  else throw (.invalidTransition current next)

/-- `SubmitInvoiceCommand` of `invoice.service.types.ts`. -/
structure SubmitInvoiceCommand where
  invoiceNumber : String
  supplierId : Uuid
  buyerId : Uuid
  amountCents : Int
  currency : String
  dueDate : Timestamp
  deriving DecidableEq

/-- `ApproveInvoiceCommand` of `invoice.service.types.ts`. -/
structure ApproveInvoiceCommand where
  invoiceId : Uuid
  buyerId : Uuid
  buyerSignature : String
  deriving DecidableEq

/-- `RequestFinancingCommand` of `invoice.service.types.ts`. -/
structure RequestFinancingCommand where
  invoiceId : Uuid
  supplierId : Uuid
  deriving DecidableEq

/-- `InvoiceWithHistory` of `invoice.service.types.ts`. -/
structure InvoiceWithHistory where
  invoice : Invoice
  events : List InvoiceEvent
  deriving DecidableEq

/-- `Promise.all([p, q])` of two statements to the pool. Each has a connection of its own, so the
second may be executed first. An error rejects at once, and nothing awaits the other one. -/
def promiseAll {α β : Type} (secondFirst : Bool) (p : Async α) (q : Async β) : Async (α × β) :=
  if secondFirst then do
    let b ← q
    let a ← p
    pure (a, b)
  else do
    let a ← p
    let b ← q
    pure (a, b)

namespace InvoiceService

/-- `submitInvoice`. The `INSERT` of `save` runs on the pool, the other two writes on the
client of the transaction. -/
def submitInvoice (cmd : SubmitInvoiceCommand) (actorId : Uuid) : Async Invoice := do
  if cmd.amountCents ≤ 0 then
    throw (.error "Invoice amount must be positive")
  let now ← newDate
  if cmd.dueDate ≤ now then
    throw (.error "Due date must be in the future")
  let existing ← InvoiceRepository.findByInvoiceNumber cmd.invoiceNumber
  if existing.isSome then
    throw (.error ("Invoice number " ++ cmd.invoiceNumber ++ " already exists"))
  withClient (do
      begin
      -- Committed at once, outside the transaction.
      let invoice ← InvoiceRepository.save
        { invoiceNumber := cmd.invoiceNumber
          supplierId := cmd.supplierId
          buyerId := cmd.buyerId
          amountCents := cmd.amountCents
          currency := cmd.currency
          dueDate := cmd.dueDate }
      assertValidTransition .draft .submitted
      let submitted ← InvoiceRepository.updateStatus invoice.id .submitted .client
      let _ ← EventRepository.append
        { invoiceId := invoice.id
          eventType := "invoice.submitted"
          payload := .submitted invoice.invoiceNumber invoice.amountCents invoice.buyerId
            invoice.supplierId
          actorId := some actorId } .client
      commit
      pure submitted)
    fun err => throw err

/-- `approveInvoice`. The notification is queued after the `COMMIT`, inside the same `try`
block. -/
def approveInvoice (cmd : ApproveInvoiceCommand) (actorId : Uuid) : Async Invoice := do
  match ← InvoiceRepository.findById cmd.invoiceId with
  | none => throw (.invoiceNotFound cmd.invoiceId)
  | some invoice =>
    if invoice.buyerId ≠ cmd.buyerId then
      throw (.unauthorisedActor "Only the designated buyer can approve this invoice")
    assertValidTransition invoice.status .buyerApproved
    if jsLength cmd.buyerSignature < 10 then
      throw (.error "A valid buyer signature is required for approval")
    withClient (do
        begin
        -- A raw `UPDATE` by the id.
        let _ ← clientQuery (.updateInvoiceSignature invoice.id cmd.buyerSignature)
        let approved ← InvoiceRepository.updateStatus invoice.id .buyerApproved .client
        let approvedAt ← newDate
        let _ ← EventRepository.append
          { invoiceId := invoice.id
            eventType := "invoice.buyer_approved"
            payload := .buyerApproved cmd.buyerId cmd.buyerSignature approvedAt
            actorId := some actorId } .client
        commit
        -- From here on an error rolls nothing back.
        let _ ← OrganisationRepository.findById invoice.supplierId
        let supplierCredential ← clientQuery (.selectCredential invoice.supplierId)
        let supplierEmail := (supplierCredential.head?.map Credential.email).getD ""
        if supplierEmail ≠ "" then
          let approvedAt' ← newDate
          queueAdd (.invoiceApproved
            { invoiceId := invoice.id
              invoiceNumber := invoice.invoiceNumber
              supplierId := invoice.supplierId
              supplierEmail := supplierEmail
              buyerId := invoice.buyerId
              amountCents := invoice.amountCents
              currency := invoice.currency
              dueDate := invoice.dueDate
              approvedAt := approvedAt' }
            ("invoice-approved-" ++ invoice.id.text))
        pure approved)
      fun err => throw err

/-- `requestFinancing`. -/
def requestFinancing (cmd : RequestFinancingCommand) (actorId : Uuid) : Async Invoice := do
  match ← InvoiceRepository.findById cmd.invoiceId with
  | none => throw (.invoiceNotFound cmd.invoiceId)
  | some invoice =>
    if invoice.supplierId ≠ cmd.supplierId then
      throw (.unauthorisedActor "Only the invoice supplier can request financing")
    assertValidTransition invoice.status .financingRequested
    withClient (do
        begin
        let updated ← InvoiceRepository.updateStatus invoice.id .financingRequested .client
        let requestedAt ← newDate
        let _ ← EventRepository.append
          { invoiceId := invoice.id
            eventType := "invoice.financing_requested"
            payload := .financingRequested cmd.supplierId invoice.amountCents requestedAt
            actorId := some actorId } .client
        commit
        pure updated)
      fun err => throw err

/-- `getInvoiceHistory`. The two reads are not in one transaction. -/
def getInvoiceHistory (eventsFirst : Bool) (invoiceId : Uuid) : Async InvoiceWithHistory := do
  let (invoice, events) ← promiseAll eventsFirst (InvoiceRepository.findById invoiceId)
    (EventRepository.findByInvoiceId invoiceId)
  match invoice with
  | none => throw (.invoiceNotFound invoiceId)
  | some invoice => pure { invoice := invoice, events := events }

end InvoiceService

end Vanguard
