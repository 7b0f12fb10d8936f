import Vanguard.Proofs.Statements

/-!
# `Vanguard.Proofs.Commits`: what each call commits, and how it ends

`Commit I born seen t call rows` says what is known when `call` commits the batch `rows`:
the call started at `born`, made its first read at `seen`, and commits at `t`. It has one
constructor for each `COMMIT` (and for the autocommitted draft) of the services, with the
guards that the call evaluated at `seen` and the rows and constraints of the moment `t`.

`Ended` says how a call ends: it was refused before it committed anything, for a reason
(`Refused`), or it has committed, and fails afterwards only for a fault.

The theorems `submitInvoice_spec` to `recordPayment_spec` prove both for every
interference `I`, and `Call.spec` puts them together. The proofs of whole runs use only
`Call.spec`.
-/

set_option autoImplicit false

namespace Vanguard

open ReadCommitted

/-! ### The rows that the calls write -/

/-- The invoice that `submitInvoice` inserts. -/
def SubmitInvoiceCommand.draft (cmd : SubmitInvoiceCommand) (env : Env) : Invoice :=
  { id := env.uuid
    invoiceNumber := cmd.invoiceNumber
    supplierId := cmd.supplierId
    buyerId := cmd.buyerId
    amountCents := cmd.amountCents
    currency := charColumn 3 cmd.currency
    dueDate := dateColumn cmd.dueDate
    status := .draft
    buyerSignature := none
    createdAt := env.now
    updatedAt := env.now }

/-- The event of a submission. -/
def submittedEvent (actorId : Uuid) (draft : Invoice) (now : Timestamp) : InvoiceEvent :=
  { invoiceId := draft.id
    eventType := "invoice.submitted"
    payload := .submitted draft.invoiceNumber draft.amountCents draft.buyerId draft.supplierId
    actorId := some actorId
    occurredAt := now }

/-- The event of an approval. -/
def approvedEvent (cmd : ApproveInvoiceCommand) (actorId : Uuid)
    (approvedAt now : Timestamp) : InvoiceEvent :=
  { invoiceId := cmd.invoiceId
    eventType := "invoice.buyer_approved"
    payload := .buyerApproved cmd.buyerId cmd.buyerSignature approvedAt
    actorId := some actorId
    occurredAt := now }

/-- The event of a financing request. -/
def requestedEvent (cmd : RequestFinancingCommand) (actorId : Uuid) (amountCents : Int)
    (requestedAt now : Timestamp) : InvoiceEvent :=
  { invoiceId := cmd.invoiceId
    eventType := "invoice.financing_requested"
    payload := .financingRequested cmd.supplierId amountCents requestedAt
    actorId := some actorId
    occurredAt := now }

/-- The event of an assessment. -/
def assessmentEvent (cmd : AssessInvoiceRiskCommand) (actorId : Uuid)
    (assessedAt now : Timestamp) : InvoiceEvent :=
  { invoiceId := cmd.invoiceId
    eventType := (assessInvoiceRisk cmd assessedAt).decision.eventType
    payload := (assessInvoiceRisk cmd assessedAt).payload
    actorId := some actorId
    occurredAt := now }

/-- The event of a new virtual account. -/
def vanCreatedEvent (van : VirtualAccount) (now : Timestamp) : InvoiceEvent :=
  { invoiceId := van.invoiceId
    eventType := "van.created"
    payload := .vanCreated van.id van.accountNumber van.ifscCode van.expectedAmountCents
      van.expiresAt
    actorId := none
    occurredAt := now }

/-- The event of a settlement. `van` is the row that the call read first, `updated` the row
after the increment. -/
def repaidEvent (cmd : RecordPaymentCommand) (van updated : VirtualAccount)
    (settledAt now : Timestamp) : InvoiceEvent :=
  { invoiceId := van.invoiceId
    eventType := "invoice.repaid"
    payload := .repaid van.id updated.receivedAmountCents cmd.idempotencyKey settledAt
    actorId := none
    occurredAt := now }

/-! ### The commits -/

/-- The ledger read of `recordPayment`, between `seen` and `t`, did not find the key. -/
def LayerOnePassed (I : Interference Database RowVersion) (seen t : Log) (vanId : Uuid)
    (key : String) : Prop :=
  ∃ u, I.rel [] seen u ∧ I.rel [] u t ∧ isDuplicate (u.now.entriesOf vanId) key = false

/-- `o` is what an `UPDATE` of the invoice finds at `t`. It finds none only if there was none
at `seen` either. -/
def FoundInvoice (seen t : Log) (id : Uuid) (o : Option Invoice) : Prop :=
  (∃ r, o = some r ∧ t.now.invoice id = some r) ∨ (o = none ∧ seen.now.invoice id = none)

/-- The batches that a call commits. -/
inductive Commit (I : Interference Database RowVersion) (born seen t : Log) :
    Call → List RowVersion → Prop where
  /-- The draft, on another connection than the rest of `submitInvoice`. -/
  | draft {cmd : SubmitInvoiceCommand} {actorId : Uuid} (env : Env) (hseen : seen ≤ t)
      (hamount : 0 < cmd.amountCents) (hparties : cmd.buyerId ≠ cmd.supplierId)
      (hid : t.now.invoice env.uuid = none) :
      Commit I born seen t (.submitInvoice cmd actorId) [.invoice (cmd.draft env)]
  | submitted {cmd : SubmitInvoiceCommand} {actorId : Uuid} (env : Env) (u : Log)
      (r : Invoice) (now : Timestamp) (hseen : seen ≤ t)
      (hbefore : I.rel [] (u.commit [.invoice (cmd.draft env)]) t)
      (hrow : t.now.invoice env.uuid = some r) :
      Commit I born seen t (.submitInvoice cmd actorId)
        [.invoice (r.setStatus .submitted now),
          .invoiceEvent (submittedEvent actorId (cmd.draft env) now)]
  | approved {cmd : ApproveInvoiceCommand} {actorId : Uuid} (inv r : Invoice)
      (approvedAt now : Timestamp) (hborn : I.rel [] born seen) (hseen : I.rel [] seen t)
      (hinv : seen.now.invoice cmd.invoiceId = some inv) (hbuyer : inv.buyerId = cmd.buyerId)
      (hstatus : .buyerApproved ∈ validTransitions inv.status)
      (hsignature : 10 ≤ jsLength cmd.buyerSignature)
      (hrow : t.now.invoice cmd.invoiceId = some r) :
      Commit I born seen t (.approveInvoice cmd actorId)
        [.invoice (r.sign cmd.buyerSignature now),
          .invoice ((r.sign cmd.buyerSignature now).setStatus .buyerApproved now),
          .invoiceEvent (approvedEvent cmd actorId approvedAt now)]
  | requested {cmd : RequestFinancingCommand} {actorId : Uuid} (inv r : Invoice)
      (requestedAt now : Timestamp) (hborn : I.rel [] born seen) (hseen : I.rel [] seen t)
      (hinv : seen.now.invoice cmd.invoiceId = some inv)
      (hsupplier : inv.supplierId = cmd.supplierId)
      (hstatus : .financingRequested ∈ validTransitions inv.status)
      (hrow : t.now.invoice cmd.invoiceId = some r) :
      Commit I born seen t (.requestFinancing cmd actorId)
        [.invoice (r.setStatus .financingRequested now),
          .invoiceEvent (requestedEvent cmd actorId inv.amountCents requestedAt now)]
  | assessed {cmd : AssessInvoiceRiskCommand} {actorId : Uuid} (inv : Invoice)
      (assessedAt now : Timestamp) (hborn : I.rel [] born seen) (hseen : I.rel [] seen t)
      (hinv : seen.now.invoice cmd.invoiceId = some inv)
      (hstatus : inv.status = .financingRequested)
      (hdecision : (assessInvoiceRisk cmd assessedAt).decision ≠ .reject) :
      Commit I born seen t (.assessAndRecord cmd actorId)
        [.invoiceEvent (assessmentEvent cmd actorId assessedAt now)]
  | rejected {cmd : AssessInvoiceRiskCommand} {actorId : Uuid} (inv r : Invoice)
      (assessedAt now : Timestamp) (hborn : I.rel [] born seen) (hseen : I.rel [] seen t)
      (hinv : seen.now.invoice cmd.invoiceId = some inv)
      (hstatus : inv.status = .financingRequested)
      (hdecision : (assessInvoiceRisk cmd assessedAt).decision = .reject)
      (hrow : t.now.invoice cmd.invoiceId = some r) :
      Commit I born seen t (.assessAndRecord cmd actorId)
        [.invoiceEvent (assessmentEvent cmd actorId assessedAt now),
          .invoice (r.setStatus .cancelled now)]
  | created {cmd : CreateVanCommand} (inv : Invoice) (van : VirtualAccount) (start : Env)
      (hborn : I.rel [] born seen) (hseen : I.rel [] seen t)
      (hinv : seen.now.invoice cmd.invoiceId = some inv)
      (hstatus : inv.status = .financingRequested)
      (hinvoice : van.invoiceId = cmd.invoiceId)
      (hexpected : van.expectedAmountCents = cmd.expectedAmountCents)
      (hreceived : van.receivedAmountCents = 0) (hactive : van.status = .active)
      (hpositive : 0 < cmd.expectedAmountCents) (hid : t.now.van van.id = none)
      (hkeys : ∀ a ∈ t.now.virtualAccounts,
        a.accountNumber ≠ van.accountNumber ∧ a.invoiceId ≠ van.invoiceId)
      (hkey : ∀ e ∈ t.now.ledgerEntries, e.idempotencyKey ≠ advanceKey cmd.invoiceText) :
      Commit I born seen t (.createVan cmd)
        [.virtualAccount van, .ledgerEntry ((cmd.debit inv.invoiceNumber van.id).row start),
          .invoiceEvent (vanCreatedEvent van start.now)]
  | paid {cmd : RecordPaymentCommand} (van v : VirtualAccount) (start : Env)
      (hborn : I.rel [] born seen) (hseen : I.rel [] seen t)
      (hvan : seen.now.vanByNumber cmd.accountNumber = some van)
      (hactive : van.status = .active)
      (hnew : LayerOnePassed I seen t van.id cmd.idempotencyKey) (hamount : 0 < cmd.amountCents)
      (hkey : ∀ e ∈ t.now.ledgerEntries, e.idempotencyKey ≠ cmd.idempotencyKey)
      (hrow : t.now.van van.id = some v) (hopen : ¬ (v.receive cmd.amountCents).paidInFull) :
      Commit I born seen t (.recordPayment cmd)
        [.ledgerEntry ((cmd.credit van.id).row start),
          .virtualAccount (v.receive cmd.amountCents)]
  /-- `o` is the invoice that the settle branch finds. -/
  | settled {cmd : RecordPaymentCommand} (van v : VirtualAccount) (o : Option Invoice)
      (settledAt : Timestamp) (start : Env)
      (hborn : I.rel [] born seen) (hseen : I.rel [] seen t)
      (hvan : seen.now.vanByNumber cmd.accountNumber = some van)
      (hactive : van.status = .active)
      (hnew : LayerOnePassed I seen t van.id cmd.idempotencyKey) (hamount : 0 < cmd.amountCents)
      (hkey : ∀ e ∈ t.now.ledgerEntries, e.idempotencyKey ≠ cmd.idempotencyKey)
      (hrow : t.now.van van.id = some v) (hfull : (v.receive cmd.amountCents).paidInFull)
      (hinvoice : FoundInvoice seen t van.invoiceId o) :
      Commit I born seen t (.recordPayment cmd)
        (.ledgerEntry ((cmd.credit van.id).row start) ::
          .virtualAccount (v.receive cmd.amountCents) ::
          .virtualAccount (v.receive cmd.amountCents).settle ::
          (updateRow .invoice (fun r => r.setStatus .repaid start.now) o).1 ++
          [.invoiceEvent (repaidEvent cmd van (v.receive cmd.amountCents) settledAt start.now)])

/-- The first read of a call comes before its commits. -/
theorem Commit.seen_le {I : Interference Database RowVersion} {born seen t : Log} {c : Call}
    {rows : List RowVersion} (h : Commit I born seen t c rows) : seen ≤ t := by
  cases h with
  | draft _ hseen => exact hseen
  | submitted _ _ _ _ hseen => exact hseen
  | approved _ _ _ _ _ hseen => exact I.le hseen
  | requested _ _ _ _ _ hseen => exact I.le hseen
  | assessed _ _ _ _ hseen => exact I.le hseen
  | rejected _ _ _ _ _ hseen => exact I.le hseen
  | created _ _ _ _ hseen => exact I.le hseen
  | paid _ _ _ _ hseen => exact I.le hseen
  | settled _ _ _ _ _ _ hseen => exact I.le hseen

/-- What the others have committed between the start of a call and its commit. `submitInvoice`
has committed its draft in between. -/
theorem Commit.rel {I : Interference Database RowVersion} {born seen t : Log} {c : Call}
    {rows : List RowVersion} (h : Commit I born seen t c rows)
    (hc : ∀ cmd actorId, c ≠ .submitInvoice cmd actorId) :
    I.rel [] born seen ∧ I.rel [] seen t := by
  cases h with
  | @draft cmd actorId => exact absurd rfl (hc cmd actorId)
  | @submitted cmd actorId => exact absurd rfl (hc cmd actorId)
  | approved _ _ _ _ hborn hseen => exact ⟨hborn, hseen⟩
  | requested _ _ _ _ hborn hseen => exact ⟨hborn, hseen⟩
  | assessed _ _ _ hborn hseen => exact ⟨hborn, hseen⟩
  | rejected _ _ _ _ hborn hseen => exact ⟨hborn, hseen⟩
  | created _ _ _ hborn hseen => exact ⟨hborn, hseen⟩
  | paid _ _ _ hborn hseen => exact ⟨hborn, hseen⟩
  | settled _ _ _ _ _ hborn hseen => exact ⟨hborn, hseen⟩

/-- No call commits an empty batch. -/
theorem Commit.publish_eq {I : Interference Database RowVersion} {born seen t : Log} {c : Call}
    {rows : List RowVersion} (h : Commit I born seen t c rows) :
    t.publish rows = t.commit rows := by
  cases h <;> rfl

/-- A commit writes something. -/
theorem Commit.rows_ne_nil {I : Interference Database RowVersion} {born seen t : Log} {c : Call}
    {rows : List RowVersion} (h : Commit I born seen t c rows) : rows ≠ [] := by
  cases h <;> exact List.cons_ne_nil _ _

/-! ### How a call ends -/

/-- Why `recordPayment` commits nothing. `time` is the moment of its end. -/
inductive PaymentRefused (I : Interference Database RowVersion) (adm : Env → Prop)
    (cmd : RecordPaymentCommand) (seen time : Log) : JsError → Prop where
  | fault (h : Faulty adm) : PaymentRefused I adm cmd seen time (.pg .connectionFailure)
  | noAccount (hvan : seen.now.vanByNumber cmd.accountNumber = none) :
      PaymentRefused I adm cmd seen time (.vanNotFound cmd.accountNumber)
  | expired (van : VirtualAccount) (message : String)
      (hvan : seen.now.vanByNumber cmd.accountNumber = some van)
      (hstatus : van.status = .expired) : PaymentRefused I adm cmd seen time (.error message)
  /-- The ledger read at `u` has the key on the account. -/
  | layerOne (van : VirtualAccount) (u : Log)
      (hvan : seen.now.vanByNumber cmd.accountNumber = some van)
      (hstatus : van.status ≠ .expired) (hu : I.rel [] seen u) (hu' : I.rel [] u time)
      (hdup : isDuplicate (u.now.entriesOf van.id) cmd.idempotencyKey = true) :
      PaymentRefused I adm cmd seen time (.duplicatePayment cmd.idempotencyKey)
  | settled (van : VirtualAccount) (u : Log) (message : String)
      (hvan : seen.now.vanByNumber cmd.accountNumber = some van)
      (hstatus : van.status = .settled) (hu : I.rel [] seen u) (hu' : I.rel [] u time)
      (hdup : isDuplicate (u.now.entriesOf van.id) cmd.idempotencyKey = false) :
      PaymentRefused I adm cmd seen time (.error message)
  /-- The unique key refuses the entry at `u`. -/
  | layerTwo (van : VirtualAccount) (u : Log)
      (hvan : seen.now.vanByNumber cmd.accountNumber = some van)
      (hactive : van.status = .active) (hu : I.rel [] seen u) (hu' : I.rel [] u time)
      (hused : ∃ e ∈ u.now.ledgerEntries, e.idempotencyKey = cmd.idempotencyKey) :
      PaymentRefused I adm cmd seen time (.duplicatePayment cmd.idempotencyKey)
  | amount (e : PgError) (hamount : ¬ (0 < cmd.amountCents ∧ cmd.amountCents ≤ maxBigint)) :
      PaymentRefused I adm cmd seen time (.pg e)
  /-- The new balance at `u` is out of range. -/
  | balance (van v : VirtualAccount) (u : Log) (e : PgError)
      (hvan : seen.now.vanByNumber cmd.accountNumber = some van)
      (hactive : van.status = .active) (hu : I.rel [] seen u) (hu' : I.rel [] u time)
      (hkey : ∀ e ∈ seen.now.ledgerEntries, e.idempotencyKey ≠ cmd.idempotencyKey)
      (hrow : u.now.van van.id = some v)
      (hrange : ¬ (0 ≤ v.receivedAmountCents + cmd.amountCents ∧
        v.receivedAmountCents + cmd.amountCents ≤ maxBigint)) :
      PaymentRefused I adm cmd seen time (.pg e)
  /-- The account has no invoice. -/
  | noInvoice (van : VirtualAccount) (e : PgError)
      (hvan : seen.now.vanByNumber cmd.accountNumber = some van)
      (hnone : seen.now.invoice van.invoiceId = none) :
      PaymentRefused I adm cmd seen time (.pg e)

/-- Why a call commits nothing. -/
def Refused (I : Interference Database RowVersion) (adm : Env → Prop) (seen time : Log)
    (err : JsError) : Call → Prop
  | .recordPayment cmd => PaymentRefused I adm cmd seen time err
  | _ => True

/-- How a call ends: refused, or with a last commit of its own. -/
inductive Ended {α : Type} (I : Interference Database RowVersion) (adm : Env → Prop)
    (born : Log) (c : Call) (seen time : Log) : Except JsError α → Prop where
  | refused (e : JsError) (hborn : I.rel [] born seen) (hrel : I.rel [] seen time)
      (hwhy : Refused I adm seen time e c) :
      Ended I adm born c seen time (.error e)
  | committed (t : Log) (rows : List RowVersion) (r : Except JsError α)
      (hcommit : Commit I born seen t c rows) (hrel : I.rel [] (t.publish rows) time)
      (hfault : ∀ e, r = .error e → Faulty adm) : Ended I adm born c seen time r

/-- A refusal of a payment stays justified at a later moment. -/
theorem PaymentRefused.later {I : Interference Database RowVersion} {adm : Env → Prop}
    {cmd : RecordPaymentCommand} {seen time time' : Log} {e : JsError}
    (h : PaymentRefused I adm cmd seen time e) (hrel : I.rel [] time time') :
    PaymentRefused I adm cmd seen time' e := by
  cases h with
  | fault h => exact .fault h
  | noAccount h => exact .noAccount h
  | expired van m hvan hs => exact .expired van m hvan hs
  | layerOne van u hvan hs hu hu' hd => exact .layerOne van u hvan hs hu (I.trans hu' hrel) hd
  | settled van u m hvan hs hu hu' hd => exact .settled van u m hvan hs hu (I.trans hu' hrel) hd
  | layerTwo van u hvan hs hu hu' he => exact .layerTwo van u hvan hs hu (I.trans hu' hrel) he
  | amount e h => exact .amount e h
  | balance van v u e hvan hs hu hu' hk hr hb =>
      exact .balance van v u e hvan hs hu (I.trans hu' hrel) hk hr hb
  | noInvoice van e hvan hn => exact .noInvoice van e hvan hn

/-- The end of a call stays justified at a later moment. -/
theorem Ended.later {α : Type} {I : Interference Database RowVersion} {adm : Env → Prop}
    {born seen time time' : Log} {c : Call} {r : Except JsError α}
    (h : Ended I adm born c seen time r) (hrel : I.rel [] time time') :
    Ended I adm born c seen time' r := by
  cases h with
  | refused e hborn hseen hwhy =>
      refine .refused e hborn (I.trans hseen hrel) ?_
      cases c with
      | recordPayment cmd => exact PaymentRefused.later hwhy hrel
      | _ => trivial
  | committed t rows r hc hr hf => exact .committed t rows r hc (I.trans hr hrel) hf

/-- A call with nobody else on the database: it is refused and nothing has changed, or it has
committed. -/
theorem Ended.alone {α : Type} {adm : Env → Prop} {born seen time : Log} {c : Call}
    {r : Except JsError α} (h : Ended Interference.alone adm born c seen time r)
    (hc : ∀ cmd actorId, c ≠ .submitInvoice cmd actorId) :
    (∃ e, r = .error e ∧ time = born ∧ Refused Interference.alone adm born born e c) ∨
      ∃ rows, Commit Interference.alone born born born c rows ∧ time = born.commit rows := by
  cases h with
  | refused e hborn hrel hwhy =>
      obtain rfl : born = seen := hborn
      obtain rfl : born = time := hrel
      exact Or.inl ⟨e, rfl, rfl, hwhy⟩
  | committed t rows _ hcommit hrel _ =>
      obtain ⟨hborn, hseen⟩ := hcommit.rel hc
      obtain rfl : born = seen := hborn
      obtain rfl : born = t := hseen
      refine Or.inr ⟨rows, hcommit, ?_⟩
      rw [← hcommit.publish_eq]
      exact (show born.publish rows = time from hrel).symm

/-- The postcondition of a call. -/
def Ends {α : Type} (I : Interference Database RowVersion) (adm : Env → Prop) (born : Log)
    (c : Call) (r : Except JsError α) (v : ServiceView) : Prop :=
  v.tx = .idle ∧ Ended I adm born c (v.seen.getD v.time) v.time r

/-- What a call ends with stays justified at a later moment. -/
theorem Ends.later {α : Type} {I : Interference Database RowVersion} {adm : Env → Prop}
    {born s t t' : Log} {c : Call} {r : Except JsError α} (hrel : I.rel [] t t')
    (h : Ends I adm born c r ⟨t, some s, .idle⟩) : Ends I adm born c r ⟨t', some s, .idle⟩ :=
  ⟨rfl, h.2.later hrel⟩

section
variable {α : Type} {I : Interference Database RowVersion} {adm : Env → Prop}
  {born s t t' : Log} {c : Call} {f : JsError → JsError} {rows : List RowVersion}

/-- The body of a call throws before it has committed. -/
theorem closes_refused {e : JsError} {tx : Tx Env RowVersion} (hborn : I.rel [] born s)
    (hrel : I.rel [] s t)
    (hwhy : Refused I adm s t (f e) c)
    (hfault : Faulty adm → Refused I adm s t (.pg .connectionFailure) c) :
    Closes adm s f (Ends (α := α) I adm born c) (.error e) ⟨t, some s, tx⟩ :=
  ⟨rfl, ⟨rfl, .refused _ hborn hrel hwhy⟩, fun hf => ⟨rfl, .refused _ hborn hrel (hfault hf)⟩⟩

/-- The body of a call resolves after it has committed. -/
theorem closes_committed (hc : Commit I born s t c rows) (hrel : I.rel [] (t.publish rows) t')
    (a : α) :
    Closes adm s f (Ends I adm born c) (.ok a) ⟨t', some s, .idle⟩ :=
  ⟨rfl, rfl, rfl, .committed t rows _ hc hrel fun _ h => nomatch h⟩

/-- The body of a call throws after it has committed. -/
theorem closes_failed {e : JsError} {tx : Tx Env RowVersion} (hc : Commit I born s t c rows)
    (hrel : I.rel [] (t.publish rows) t') (hf : Faulty adm) :
    Closes adm s f (Ends (α := α) I adm born c) (.error e) ⟨t', some s, tx⟩ :=
  ⟨rfl, ⟨rfl, .committed t rows _ hc hrel fun _ _ => hf⟩,
    fun _ => ⟨rfl, .committed t rows _ hc hrel fun _ _ => hf⟩⟩

end

/-- What the transaction of `recordPayment` knows at `t`, after it has inserted its entry
and incremented the balance of the row `v`. -/
structure Paying (I : Interference Database RowVersion) (born s t : Log)
    (cmd : RecordPaymentCommand) (van v : VirtualAccount) : Prop where
  hborn : I.rel [] born s
  hseen : I.rel [] s t
  hvan : s.now.vanByNumber cmd.accountNumber = some van
  hactive : van.status = .active
  hnew : LayerOnePassed I s t van.id cmd.idempotencyKey
  hamount : 0 < cmd.amountCents
  hkey : ∀ e ∈ t.now.ledgerEntries, e.idempotencyKey ≠ cmd.idempotencyKey
  hrow : t.now.van van.id = some v

/-- It stays true while the transaction holds the entry and a version of the account. -/
theorem Paying.later {I : Interference Database RowVersion} {born s t t' : Log}
    {cmd : RecordPaymentCommand} {van v : VirtualAccount} {start : Env}
    {ws : List RowVersion} (h : Paying I born s t cmd van v)
    (hrel : I.rel ws t t') (he : .ledgerEntry ((cmd.credit van.id).row start) ∈ ws)
    (hv : .virtualAccount (v.receive cmd.amountCents) ∈ ws) :
    Paying I born s t' cmd van v where
  hborn := h.hborn
  hseen := I.trans h.hseen (I.weaken hrel)
  hvan := h.hvan
  hactive := h.hactive
  hnew := by
    obtain ⟨u, hu, hut, hd⟩ := h.hnew
    exact ⟨u, hu, I.trans hut (I.weaken hrel), hd⟩
  hamount := h.hamount
  hkey := entry_key_fresh_of_quiet (I.quiet hrel) he h.hkey
  hrow := (van_of_quiet (I.quiet hrel) hv
    (show v.id = van.id from Database.van_id h.hrow)).trans h.hrow

/-! ### The calls -/

section
variable (I : Interference Database RowVersion) (adm : Env → Prop) (born : Log)

/-- What a call guarantees of the batches it commits. -/
def guarantee (c : Call) (seen t : Log) (rows : List RowVersion) : Prop :=
  Commit I born seen t c rows

variable {I adm born} in
/-- The `COMMIT` of a call. -/
theorem wp_commitAs {c : Call} {start : Env} {ws : List RowVersion} {s time : Log}
    {Q : Except JsError Unit → ServiceView → Prop}
    (hcommit : ∀ t, I.rel ws time t → Commit I born s t c ws)
    (hok : ∀ t, Commit I born s t c ws → Q (.ok ()) ⟨t.publish ws, some s, .idle⟩)
    (herr : ∀ t, I.rel ws time t → Faulty adm →
      Q (.error (.pg .connectionFailure)) ⟨t, some s, .idle⟩) :
    Await.wp (postgres.rely I adm (guarantee I born c)) commit
      ⟨time, some s, .active start ws⟩ Q :=
  wp_commit hcommit (fun t h => hok t (hcommit t h)) herr

/-- `requestFinancing` commits only what is listed for it, and ends as listed. -/
theorem requestFinancing_spec (cmd : RequestFinancingCommand) (actorId : Uuid) :
    Await.wp (postgres.rely I adm (guarantee I born (.requestFinancing cmd actorId)))
      (InvoiceService.requestFinancing cmd actorId) ⟨born, none, .idle⟩
      (Ends I adm born (.requestFinancing cmd actorId)) := by
  rw [InvoiceService.requestFinancing, Await.wp_bind]
  refine wp_findInvoice (fun s hborn => ?_) fun s hborn _ => ⟨rfl, .refused _ hborn I.refl trivial⟩
  cases hinv : s.now.invoice cmd.invoiceId with
  | none => exact ⟨rfl, .refused _ hborn I.refl trivial⟩
  | some inv =>
      have hid := Database.invoice_id hinv
      dsimp only
      rw [hid]
      split
      · exact ⟨rfl, .refused _ hborn I.refl trivial⟩
      rename_i hsupplier
      -- Until its `COMMIT` the call may fail at any moment.
      have refused : ∀ t e tx, I.rel [] s t → Closes adm s id
          (Ends (α := Invoice) I adm born (.requestFinancing cmd actorId)) (.error e)
          ⟨t, some s, tx⟩ :=
        fun t e tx h => closes_refused hborn h trivial fun _ => trivial
      rw [Await.wp_bind]
      refine wp_assertValidTransition (fun hstatus => ?_) fun _ =>
        ⟨rfl, .refused _ hborn I.refl trivial⟩
      refine wp_withClient (f := id) (fun _ => rfl) (fun _ _ _ => Ends.later)
        (fun _ => ⟨rfl, .refused _ hborn I.refl trivial⟩) fun t₁ h₁ => ?_
      simp only [Await.wp_bind]
      refine wp_begin (fun t₂ start h₂ => ?_) fun t₂ h₂ _ => refused _ _ _ (I.trans h₁ h₂)
      have h₂ := I.trans h₁ h₂
      refine wp_updateStatus ?_ (fun t₃ r h₃ hrow => ?_) fun t₃ h₃ _ =>
        refused _ _ _ (I.trans h₂ h₃)
      · exact fun t h => invoice_of_le (I.le (I.trans h₂ h)) hinv
      have hr := Database.invoice_id hrow
      have h₃ := I.trans h₂ h₃
      -- From here on the transaction holds a version of `r`, and nobody else commits one.
      refine wp_newDate fun t₄ requestedAt h₄ => ?_
      have hrow := (invoice_of_quiet (I.quiet h₄) (List.mem_singleton_self _) hr).trans hrow
      have h₄ := I.trans h₃ (I.weaken h₄)
      refine wp_appendEvent (fun t₅ h₅ _ => ?_) (fun t₅ e h₅ _ _ => ?_) fun t₅ h₅ _ => ?_
      · have hrow := (invoice_of_quiet (I.quiet h₅) (List.mem_singleton_self _) hr).trans hrow
        have h₅ := I.trans h₄ (I.weaken h₅)
        refine wp_commitAs (fun t h => ?_) (fun t hc => ?_) fun t h _ => ?_
        · exact .requested inv r requestedAt start.now hborn (I.trans h₅ (I.weaken h)) hinv
            (not_not.mp hsupplier) hstatus
            ((invoice_of_quiet (I.quiet h) List.mem_cons_self hr).trans hrow)
        · exact closes_committed (f := id) hc I.refl _
        · exact refused _ _ _ (I.trans h₅ (I.weaken h))
      · exact refused _ _ _ (I.trans h₄ (I.weaken h₅))
      · exact refused _ _ _ (I.trans h₄ (I.weaken h₅))

/-- `approveInvoice` commits only what is listed for it, and ends as listed. -/
theorem approveInvoice_spec (cmd : ApproveInvoiceCommand) (actorId : Uuid) :
    Await.wp (postgres.rely I adm (guarantee I born (.approveInvoice cmd actorId)))
      (InvoiceService.approveInvoice cmd actorId) ⟨born, none, .idle⟩
      (Ends I adm born (.approveInvoice cmd actorId)) := by
  rw [InvoiceService.approveInvoice, Await.wp_bind]
  refine wp_findInvoice (fun s hborn => ?_) fun s hborn _ => ⟨rfl, .refused _ hborn I.refl trivial⟩
  cases hinv : s.now.invoice cmd.invoiceId with
  | none => exact ⟨rfl, .refused _ hborn I.refl trivial⟩
  | some inv =>
      have hid := Database.invoice_id hinv
      dsimp only
      rw [hid]
      split
      · exact ⟨rfl, .refused _ hborn I.refl trivial⟩
      rename_i hbuyer
      have refused : ∀ t e tx, I.rel [] s t → Closes adm s id
          (Ends (α := Invoice) I adm born (.approveInvoice cmd actorId)) (.error e)
          ⟨t, some s, tx⟩ :=
        fun t e tx h => closes_refused hborn h trivial fun _ => trivial
      rw [Await.wp_bind]
      refine wp_assertValidTransition (fun hstatus => ?_) fun _ =>
        ⟨rfl, .refused _ hborn I.refl trivial⟩
      dsimp only
      split
      · exact ⟨rfl, .refused _ hborn I.refl trivial⟩
      rename_i hsignature
      refine wp_withClient (f := id) (fun _ => rfl) (fun _ _ _ => Ends.later)
        (fun _ => ⟨rfl, .refused _ hborn I.refl trivial⟩) fun t₁ h₁ => ?_
      simp only [Await.wp_bind]
      refine wp_begin (fun t₂ start h₂ => ?_) fun t₂ h₂ _ => refused _ _ _ (I.trans h₁ h₂)
      have h₂ := I.trans h₁ h₂
      refine wp_updateSignature (fun t₃ _ h₃ => ?_) fun t₃ h₃ _ =>
        refused _ _ _ (I.trans h₂ h₃)
      have h₃ := I.trans h₂ h₃
      obtain ⟨r, hrow⟩ := invoice_of_le (I.le h₃) hinv
      have hr := Database.invoice_id hrow
      rw [writeAll_nil, hrow]
      dsimp only [updateRow, List.nil_append]
      -- The second `UPDATE` finds the version that the first one has written.
      refine wp_updateStatus (fun t h => ?_) (fun t₄ r' h₄ hrow' => ?_) fun t₄ h₄ _ =>
        refused _ _ _ (I.trans h₃ (I.weaken h₄))
      · exact ⟨r.sign cmd.buyerSignature start.now, by simp [hr]⟩
      obtain rfl : r.sign cmd.buyerSignature start.now = r' := by simpa [hr] using hrow'
      have hrow := (invoice_of_quiet (I.quiet h₄) (List.mem_singleton_self _) hr).trans hrow
      have h₄ := I.trans h₃ (I.weaken h₄)
      refine wp_newDate fun t₅ approvedAt h₅ => ?_
      have hrow := (invoice_of_quiet (I.quiet h₅) List.mem_cons_self hr).trans hrow
      have h₅ := I.trans h₄ (I.weaken h₅)
      refine wp_appendEvent (fun t₆ h₆ _ => ?_) (fun t₆ e h₆ _ _ => ?_) fun t₆ h₆ _ => ?_
      · have hrow := (invoice_of_quiet (I.quiet h₆) List.mem_cons_self hr).trans hrow
        have h₆ := I.trans h₅ (I.weaken h₆)
        refine wp_commitAs (fun t h => ?_) (fun t hc => ?_) fun t h _ => ?_
        · exact .approved inv r approvedAt start.now hborn (I.trans h₆ (I.weaken h)) hinv
            (not_not.mp hbuyer) hstatus (not_lt.mp hsignature)
            ((invoice_of_quiet (I.quiet h) List.mem_cons_self hr).trans hrow)
        · -- The notification, after the `COMMIT`.
          simp only [OrganisationRepository.findById, Await.wp_bind, Await.wp_pure]
          refine wp_select (f := fun db => (db.organisations.get? inv.supplierId).toList)
            (fun _ _ => rfl) (fun t₇ h₇ => ?_) fun t₇ h₇ hf => closes_failed hc h₇ hf
          refine wp_clientSelect (f := fun db => (db.credentials.get? inv.supplierId).toList)
            (fun _ _ => rfl) (fun t₈ h₈ => ?_) fun t₈ h₈ hf => closes_failed hc (I.trans h₇ h₈) hf
          have h₈ := I.trans h₇ h₈
          dsimp only
          split
          · simp only [Await.wp_bind]
            refine wp_newDate fun t₉ approvedAt' h₉ => ?_
            have h₉ := I.trans h₈ h₉
            refine wp_queueAdd (fun t₁₀ h₁₀ => ?_) fun t₁₀ h₁₀ hf =>
              closes_failed hc (I.trans h₉ h₁₀) hf
            exact closes_committed (f := id) hc (I.trans h₉ h₁₀) _
          · exact closes_committed (f := id) hc h₈ _
        · exact refused _ _ _ (I.trans h₆ (I.weaken h))
      · exact refused _ _ _ (I.trans h₅ (I.weaken h₆))
      · exact refused _ _ _ (I.trans h₅ (I.weaken h₆))

/-- `assessAndRecord` commits only what is listed for it, and ends as listed. -/
theorem assessAndRecord_spec (cmd : AssessInvoiceRiskCommand) (actorId : Uuid) :
    Await.wp (postgres.rely I adm (guarantee I born (.assessAndRecord cmd actorId)))
      (RiskService.assessAndRecord cmd actorId) ⟨born, none, .idle⟩
      (Ends I adm born (.assessAndRecord cmd actorId)) := by
  rw [RiskService.assessAndRecord, Await.wp_bind]
  refine wp_findInvoice (fun s hborn => ?_) fun s hborn _ => ⟨rfl, .refused _ hborn I.refl trivial⟩
  cases hinv : s.now.invoice cmd.invoiceId with
  | none => exact ⟨rfl, .refused _ hborn I.refl trivial⟩
  | some inv =>
      dsimp only
      split
      · exact ⟨rfl, .refused _ hborn I.refl trivial⟩
      rename_i hstatus
      have hstatus := not_not.mp hstatus
      have refused : ∀ t e tx, I.rel [] s t → Closes adm s id
          (Ends (α := RiskAssessmentResult) I adm born (.assessAndRecord cmd actorId)) (.error e)
          ⟨t, some s, tx⟩ :=
        fun t e tx h => closes_refused hborn h trivial fun _ => trivial
      simp only [Await.wp_bind]
      refine wp_newDate fun t₀ assessedAt h₀ => ?_
      dsimp only
      refine wp_withClient (f := id) (fun _ => rfl) (fun _ _ _ => Ends.later)
        (fun _ => ⟨rfl, .refused _ hborn h₀ trivial⟩) fun t₁ h₁ => ?_
      have h₁ := I.trans h₀ h₁
      simp only [Await.wp_bind]
      refine wp_begin (fun t₂ start h₂ => ?_) fun t₂ h₂ _ => refused _ _ _ (I.trans h₁ h₂)
      have h₂ := I.trans h₁ h₂
      refine wp_appendEvent (fun t₃ h₃ _ => ?_) (fun t₃ e h₃ _ _ => ?_) fun t₃ h₃ _ => ?_
      · have h₃ := I.trans h₂ h₃
        dsimp only
        split
        · -- Only a rejection writes the status.
          rename_i hdecision
          simp only [Await.wp_bind]
          refine wp_updateStatus ?_ (fun t₄ r h₄ hrow => ?_) fun t₄ h₄ _ =>
            refused _ _ _ (I.trans h₃ (I.weaken h₄))
          · exact fun t h => invoice_of_le (I.le (I.trans h₃ (I.weaken h))) hinv
          have hr := Database.invoice_id hrow
          have h₄ := I.trans h₃ (I.weaken h₄)
          refine wp_commitAs (fun t h => ?_) (fun t hc => ?_) fun t h _ => ?_
          · exact .rejected inv r assessedAt start.now hborn (I.trans h₄ (I.weaken h)) hinv hstatus
              hdecision ((invoice_of_quiet (I.quiet h)
                (List.mem_cons_of_mem _ (List.mem_singleton_self _)) hr).trans hrow)
          · exact closes_committed (f := id) hc I.refl _
          · exact refused _ _ _ (I.trans h₄ (I.weaken h))
        · rename_i hdecision
          simp only [Await.wp_bind]
          refine wp_commitAs (fun t h => ?_) (fun t hc => ?_) fun t h _ => ?_
          · exact .assessed inv assessedAt start.now hborn (I.trans h₃ (I.weaken h)) hinv hstatus
              hdecision
          · exact closes_committed (f := id) hc I.refl _
          · exact refused _ _ _ (I.trans h₃ (I.weaken h))
      · exact refused _ _ _ (I.trans h₂ h₃)
      · exact refused _ _ _ (I.trans h₂ h₃)

/-- `submitInvoice` commits its draft and then its transition, and ends as listed. -/
theorem submitInvoice_spec (cmd : SubmitInvoiceCommand) (actorId : Uuid) :
    Await.wp (postgres.rely I adm (guarantee I born (.submitInvoice cmd actorId)))
      (InvoiceService.submitInvoice cmd actorId) ⟨born, none, .idle⟩
      (Ends I adm born (.submitInvoice cmd actorId)) := by
  rw [InvoiceService.submitInvoice]
  dsimp only
  split
  · exact ⟨rfl, .refused _ I.refl I.refl trivial⟩
  rw [Await.wp_bind]
  refine wp_newDate fun s now hborn => ?_
  dsimp only
  split
  · exact ⟨rfl, .refused _ hborn I.refl trivial⟩
  simp only [InvoiceRepository.findByInvoiceNumber, Await.wp_bind, Await.wp_pure]
  refine wp_select (f := fun db => (db.invoices.rows.find? fun r =>
    r.invoiceNumber == cmd.invoiceNumber).toList) (fun _ _ => rfl) (fun t₀ h₀ => ?_)
    fun t₀ h₀ _ => ⟨rfl, .refused _ hborn h₀ trivial⟩
  dsimp only
  split
  · exact ⟨rfl, .refused _ hborn h₀ trivial⟩
  have refused : ∀ t e tx, I.rel [] s t → Closes adm s id
      (Ends (α := Invoice) I adm born (.submitInvoice cmd actorId)) (.error e)
      ⟨t, some s, tx⟩ :=
    fun t e tx h => closes_refused hborn h trivial fun _ => trivial
  refine wp_withClient (f := id) (fun _ => rfl) (fun _ _ _ => Ends.later)
    (fun _ => ⟨rfl, .refused _ hborn h₀ trivial⟩) fun t₁ h₁ => ?_
  have h₁ := I.trans h₀ h₁
  simp only [Await.wp_bind]
  refine wp_begin (fun t₂ start h₂ => ?_) fun t₂ h₂ _ => refused _ _ _ (I.trans h₁ h₂)
  have h₂ := I.trans h₁ h₂
  -- The draft is committed here, whatever the rest of the transaction does.
  refine wp_save (fun t₃ env h₃ hamount hparties hid => ?_) fun t₃ e h₃ =>
    refused _ _ _ (I.trans h₂ h₃)
  have hdraft : Commit I born s t₃ (.submitInvoice cmd actorId) [.invoice (cmd.draft env)] :=
    .draft env (I.le (I.trans h₂ h₃)) hamount hparties hid
  refine ⟨hdraft, ?_⟩
  have hd : (t₃.commit [.invoice (cmd.draft env)]).now.invoice env.uuid =
      some (cmd.draft env) := by simp [SubmitInvoiceCommand.draft]
  refine wp_assertValidTransition (fun _ => ?_) fun h => absurd (by decide) h
  refine wp_updateStatus (fun t h => invoice_of_le (I.le h) hd) (fun t₄ r h₄ hrow => ?_)
    fun t₄ h₄ hf => closes_failed hdraft h₄ hf
  have hr := Database.invoice_id hrow
  refine wp_appendEvent (fun t₅ h₅ _ => ?_) (fun t₅ e h₅ hcode hnone => ?_) fun t₅ h₅ hf =>
    closes_failed hdraft (I.trans h₄ (I.weaken h₅)) hf
  · have hrow := (invoice_of_quiet (I.quiet h₅) (List.mem_singleton_self _) hr).trans hrow
    have h₅ := I.trans h₄ (I.weaken h₅)
    refine wp_commitAs (fun t h₅₆ => ?_) (fun t hc => ?_) fun t h hf =>
      closes_failed hdraft (I.trans h₅ (I.weaken h)) hf
    · have h := I.trans h₅ (I.weaken h₅₆)
      exact .submitted env t₃ r start.now
        (le_trans (Timeline.le_commit _ (I.le (I.trans h₂ h₃))) (I.le h)) h
        ((invoice_of_quiet (I.quiet h₅₆) List.mem_cons_self hr).trans hrow)
    · exact closes_committed (f := id) hc I.refl _
  · -- The foreign key cannot fail, the transaction holds the invoice.
    have hid : (cmd.draft env).id = env.uuid := rfl
    simp [hr] at hnone

/-- `createVan` commits only what is listed for it, and ends as listed. -/
theorem createVan_spec (cmd : CreateVanCommand) :
    Await.wp (postgres.rely I adm (guarantee I born (.createVan cmd)))
      (VanService.createVan cmd) ⟨born, none, .idle⟩ (Ends I adm born (.createVan cmd)) := by
  rw [VanService.createVan, Await.wp_bind]
  refine wp_findInvoice (fun s hborn => ?_) fun s hborn _ => ⟨rfl, .refused _ hborn I.refl trivial⟩
  cases hinv : s.now.invoice cmd.invoiceId with
  | none => exact ⟨rfl, .refused _ hborn I.refl trivial⟩
  | some inv =>
      dsimp only
      split
      · exact ⟨rfl, .refused _ hborn I.refl trivial⟩
      rename_i hstatus
      have hstatus := not_not.mp hstatus
      have refused : ∀ t e tx, I.rel [] s t → Closes adm s id
          (Ends (α := VirtualAccount) I adm born (.createVan cmd)) (.error e)
          ⟨t, some s, tx⟩ :=
        fun t e tx h => closes_refused hborn h trivial fun _ => trivial
      simp only [VanRepository.findByInvoiceId, Await.wp_bind, Await.wp_pure]
      refine wp_select (f := fun db => (db.virtualAccounts.rows.find? fun v =>
        v.invoiceId == cmd.invoiceId).toList) (fun _ _ => rfl) (fun t₀ h₀ => ?_)
        fun t₀ h₀ _ => ⟨rfl, .refused _ hborn h₀ trivial⟩
      dsimp only
      split
      · exact ⟨rfl, .refused _ hborn h₀ trivial⟩
      simp only [VanService.generateAccountNumber, Await.wp_bind, Await.wp_pure]
      refine wp_newDate fun t₁ now h₁ => ?_
      have h₁ := I.trans h₀ h₁
      refine wp_randomDigits fun t₂ random h₂ => ?_
      have h₂ := I.trans h₁ h₂
      refine wp_newDate fun t₃ now' h₃ => ?_
      have h₃ := I.trans h₂ h₃
      refine wp_withClient (f := id) (fun _ => rfl) (fun _ _ _ => Ends.later)
        (fun _ => ⟨rfl, .refused _ hborn h₃ trivial⟩) fun t₄ h₄ => ?_
      have h₄ := I.trans h₃ h₄
      simp only [Await.wp_bind]
      refine wp_begin (fun t₅ start h₅ => ?_) fun t₅ h₅ _ => refused _ _ _ (I.trans h₄ h₅)
      have h₅ := I.trans h₄ h₅
      refine wp_createVan (fun t₆ env h₆ hpos hid hkeys => ?_) fun t₆ e h₆ =>
        refused _ _ _ (I.trans h₅ h₆)
      have h₆ := I.trans h₅ h₆
      refine wp_appendLedgerEntry (fun t₇ h₇ _ hkey => ?_) (fun t₇ e h₇ _ _ => ?_)
        (fun t₇ e h₇ _ _ => ?_) fun t₇ h₇ _ => ?_
      · -- The three keys stay free until the `COMMIT`, the transaction holds them.
        have hid := (van_of_quiet (I.quiet h₇) (List.mem_singleton_self _) rfl).trans hid
        have hkeys := van_keys_fresh_of_quiet (I.quiet h₇) (List.mem_singleton_self _) hkeys
        have h₇ := I.trans h₆ (I.weaken h₇)
        refine wp_appendEvent (fun t₈ h₈ _ => ?_) (fun t₈ e h₈ _ _ => ?_) fun t₈ h₈ _ => ?_
        · have hid := (van_of_quiet (I.quiet h₈) List.mem_cons_self rfl).trans hid
          have hkeys := van_keys_fresh_of_quiet (I.quiet h₈) List.mem_cons_self hkeys
          have hkey := entry_key_fresh_of_quiet (I.quiet h₈)
            (List.mem_cons_of_mem _ (List.mem_singleton_self _)) hkey
          have h₈ := I.trans h₇ (I.weaken h₈)
          refine wp_commitAs (fun t h => ?_) (fun t hc => ?_) fun t h _ => ?_
          · exact .created inv _ start hborn (I.trans h₈ (I.weaken h)) hinv hstatus rfl rfl rfl rfl
              hpos ((van_of_quiet (I.quiet h) List.mem_cons_self rfl).trans hid)
              (van_keys_fresh_of_quiet (I.quiet h) List.mem_cons_self hkeys)
              (entry_key_fresh_of_quiet (I.quiet h)
                (List.mem_cons_of_mem _ List.mem_cons_self) hkey)
          · exact closes_committed (f := id) hc I.refl _
          · exact refused _ _ _ (I.trans h₈ (I.weaken h))
        · exact refused _ _ _ (I.trans h₇ (I.weaken h₈))
        · exact refused _ _ _ (I.trans h₇ (I.weaken h₈))
      · exact refused _ _ _ (I.trans h₆ (I.weaken h₇))
      · exact refused _ _ _ (I.trans h₆ (I.weaken h₇))
      · exact refused _ _ _ (I.trans h₆ (I.weaken h₇))

/-- What the `catch` block of `recordPayment` makes of an error. -/
def paymentError (cmd : RecordPaymentCommand) (err : JsError) : JsError :=
  if err.code? = some "23505" then .duplicatePayment cmd.idempotencyKey else err

/-- The handler of a payment throws the error it is given, or names the duplicate. -/
theorem onPaymentError_eq (cmd : RecordPaymentCommand) (err : JsError) :
    VanService.onPaymentError cmd err = throw (paymentError cmd err) := by
  unfold VanService.onPaymentError paymentError
  split <;> rfl

/-- A violation of the unique key is answered as a duplicate payment. -/
theorem paymentError_used {cmd : RecordPaymentCommand} {e : PgError} (h : e.code = "23505") :
    paymentError cmd (.pg e) = .duplicatePayment cmd.idempotencyKey := by
  simp [paymentError, JsError.code?, h]

/-- Any other error of the database passes through. -/
theorem paymentError_pg {cmd : RecordPaymentCommand} {e : PgError} (h : e.code ≠ "23505") :
    paymentError cmd (.pg e) = .pg e := by
  simp [paymentError, JsError.code?, h]

/-- A look at the invoice finds it if it was there before. -/
theorem foundInvoice_of_le {s t : Log} (h : s ≤ t) (id : Uuid) :
    FoundInvoice s t id (t.now.invoice id) := by
  cases ht : t.now.invoice id with
  | some r => exact Or.inl ⟨r, rfl, ht⟩
  | none =>
      refine Or.inr ⟨rfl, ?_⟩
      cases hs : s.now.invoice id with
      | none => rfl
      | some inv =>
          obtain ⟨r, hr⟩ := invoice_of_le h hs
          rw [ht] at hr
          cases hr

/-- What an UPDATE of the invoice found stays found while its row is locked. -/
theorem FoundInvoice.later {s t t' : Log} {id : Uuid} {o : Option Invoice}
    {ws : List RowVersion} {status : InvoiceStatus} {now : Timestamp}
    (h : FoundInvoice s t id o) (hq : Quiet ws t t')
    (hws : (updateRow .invoice (fun r => r.setStatus status now) o).1 ⊆ ws) :
    FoundInvoice s t' id o := by
  rcases h with ⟨r, rfl, hr⟩ | hn
  · have hid : r.id = id := Database.invoice_id hr
    have hm : .invoice (r.setStatus status now) ∈ ws := hws (List.mem_singleton_self _)
    exact Or.inl ⟨r, rfl, (invoice_of_quiet hq hm hid).trans hr⟩
  · exact Or.inr hn

/-- What `settle` establishes: it has committed, or it throws. -/
def Settles (cmd : RecordPaymentCommand) (s : Log) :
    Except JsError VirtualAccount → ServiceView → Prop
  | .ok _, w => w.seen = some s ∧ w.tx = .idle ∧ ∃ t rows,
    Commit I born s t (.recordPayment cmd) rows ∧ I.rel [] (t.publish rows) w.time
  | .error e, w => Closes adm s (paymentError cmd)
    (Ends (α := VanWithLedger) I adm born (.recordPayment cmd)) (.error e) w

/-- `settle` commits the receipt, the entry, the settlement and the event together. -/
theorem settle_spec {cmd : RecordPaymentCommand} {van v : VirtualAccount} {s u : Log}
    {start : Env} (h : Paying I born s u cmd van v)
    (hfull : (v.receive cmd.amountCents).paidInFull) :
    Await.wp (postgres.rely I adm (guarantee I born (.recordPayment cmd)))
      (VanService.settle cmd van (v.receive cmd.amountCents))
      ⟨u, some s, .active start [.ledgerEntry ((cmd.credit van.id).row start),
        .virtualAccount (v.receive cmd.amountCents)]⟩
      (Settles I adm born cmd s) := by
  have hid : v.id = van.id := Database.van_id h.hrow
  have fault : ∀ t tx, I.rel [] s t → Faulty adm →
      Settles I adm born cmd s (.error (.pg .connectionFailure)) ⟨t, some s, tx⟩ :=
    fun t tx hst hf => closes_refused h.hborn hst (.fault hf) fun hf => .fault hf
  simp only [VanService.settle, Await.wp_bind]
  refine wp_settleAccount (fun t _ => ⟨v.receive cmd.amountCents, by simp [hid]⟩)
    (fun t₁ v' h₁ hrow => ?_) fun t h' hf => fault _ _ (I.trans h.hseen (I.weaken h')) hf
  obtain rfl : v.receive cmd.amountCents = v' := by simpa [hid] using hrow
  have hp := h.later h₁ List.mem_cons_self (List.mem_cons_of_mem _ (List.mem_singleton_self _))
  refine wp_setStatus (fun t₂ h₂ => ?_) fun t h' hf =>
    fault _ _ (I.trans hp.hseen (I.weaken h')) hf
  have hp := hp.later h₂ List.mem_cons_self (List.mem_cons_of_mem _ List.mem_cons_self)
  -- The invoice that the raw `UPDATE` finds, if any.
  have hread : (writeAll t₂.now ([.ledgerEntry ((cmd.credit van.id).row start),
      .virtualAccount (v.receive cmd.amountCents)] ++
        [.virtualAccount (v.receive cmd.amountCents).settle])).invoice van.invoiceId =
      t₂.now.invoice van.invoiceId := by simp
  simp only [hread]
  have hfound := foundInvoice_of_le (I.le hp.hseen) van.invoiceId
  generalize t₂.now.invoice van.invoiceId = o at hfound ⊢
  refine wp_newDate fun t₃ settledAt h₃ => ?_
  have hfound := hfound.later (I.quiet h₃) (List.subset_append_right _ _)
  have hp := hp.later h₃ List.mem_cons_self (List.mem_cons_of_mem _ List.mem_cons_self)
  refine wp_appendEvent (fun t₄ h₄ _ => ?_) (fun t₄ e h₄ hcode hnone => ?_) fun t₄ h₄ hf =>
    fault _ _ (I.trans hp.hseen (I.weaken h₄)) hf
  · have hfound := hfound.later (I.quiet h₄) (List.subset_append_right _ _)
    have hp := hp.later h₄ List.mem_cons_self (List.mem_cons_of_mem _ List.mem_cons_self)
    refine wp_commitAs (fun t h => ?_) (fun t hc => ?_) fun t h hf =>
      fault _ _ (I.trans hp.hseen (I.weaken h)) hf
    · have hfound := hfound.later (I.quiet h)
        (List.subset_append_of_subset_left _ (List.subset_append_right _ _))
      have hp := hp.later h List.mem_cons_self (List.mem_cons_of_mem _ List.mem_cons_self)
      exact .settled van v o settledAt start hp.hborn hp.hseen hp.hvan hp.hactive hp.hnew
        hp.hamount hp.hkey hp.hrow hfull hfound
    · -- The receipt, after the `COMMIT`.
      refine wp_findInvoice (fun t₅ h₅ => ?_) fun t₅ h₅ hf => closes_failed hc h₅ hf
      dsimp only
      cases t₅.now.invoice van.invoiceId with
      | none => exact ⟨rfl, rfl, t, _, hc, h₅⟩
      | some inv =>
          simp only [Await.wp_bind]
          refine wp_newDate fun t₆ settledAt' h₆ => ?_
          have h₆ := I.trans h₅ h₆
          refine wp_queueAdd (fun t₇ h₇ => ?_) fun t₇ h₇ hf =>
            closes_failed hc (I.trans h₆ h₇) hf
          exact ⟨rfl, rfl, t, _, hc, I.trans h₆ h₇⟩
  · -- The event is refused only when the account has no invoice.
    have hst := I.trans hp.hseen (I.weaken h₄)
    rcases hfound with ⟨r, rfl, hr⟩ | ⟨rfl, hs⟩
    · have hrid : r.id = van.invoiceId := Database.invoice_id hr
      simp [updateRow, hrid] at hnone
    · refine closes_refused hp.hborn hst ?_ fun hf => .fault hf
      rw [paymentError_pg hcode]
      exact .noInvoice van e hp.hvan hs

variable {I adm born} in
/-- The end of `recordPayment` after its commit: the second `COMMIT`, which finds no
transaction, and the ledger of the answer. -/
theorem reply_spec {cmd : RecordPaymentCommand} {s t time : Log} {rows : List RowVersion}
    (vanId : Uuid) (finalVan : VirtualAccount)
    (hc : Commit I born s t (.recordPayment cmd) rows) (h : I.rel [] (t.publish rows) time) :
    Await.wp (postgres.rely I adm (guarantee I born (.recordPayment cmd)))
      (do
        commit
        let ledgerEntries ← VanRepository.getLedgerEntries vanId
        pure ({ virtualAccount := finalVan
                ledgerEntries := ledgerEntries
                isFullySettled := finalVan.status == .settled } : VanWithLedger))
      ⟨time, some s, .idle⟩
      (Closes adm s (paymentError cmd) (Ends I adm born (.recordPayment cmd))) := by
  simp only [Await.wp_bind]
  refine wp_commit_idle (fun t₁ h₁ => ?_) fun t₁ h₁ hf => closes_failed hc (I.trans h h₁) hf
  have h₁ := I.trans h h₁
  refine wp_getLedgerEntries (fun t₂ entries h₂ _ => ?_) fun t₂ h₂ hf =>
    closes_failed hc (I.trans h₁ h₂) hf
  exact closes_committed (f := paymentError cmd) hc (I.trans h₁ h₂) _

/-- `recordPayment` commits only what is listed for it, and ends as listed. -/
theorem recordPayment_spec (cmd : RecordPaymentCommand) :
    Await.wp (postgres.rely I adm (guarantee I born (.recordPayment cmd)))
      (VanService.recordPayment cmd) ⟨born, none, .idle⟩
      (Ends I adm born (.recordPayment cmd)) := by
  rw [VanService.recordPayment, Await.wp_bind]
  refine wp_findVanByNumber (fun s hborn => ?_) fun s hborn hf =>
    ⟨rfl, .refused _ hborn I.refl (.fault hf)⟩
  cases hvan : s.now.vanByNumber cmd.accountNumber with
  | none => exact ⟨rfl, .refused _ hborn I.refl (.noAccount hvan)⟩
  | some van =>
      dsimp only
      split
      · exact ⟨rfl, .refused _ hborn I.refl (.expired van _ hvan ‹_›)⟩
      rename_i hexpired
      simp only [Await.wp_bind]
      -- The read of Layer 1, at another moment `u` than the read of the account.
      refine wp_getLedgerEntries (fun u entries hu hperm => ?_) fun t h hf =>
        ⟨rfl, .refused _ hborn h (.fault hf)⟩
      have hdup : isDuplicate entries cmd.idempotencyKey =
          isDuplicate (u.now.entriesOf van.id) cmd.idempotencyKey := hperm.any_eq
      dsimp only
      rw [hdup]
      split
      · exact ⟨rfl, .refused _ hborn hu
          (.layerOne van u hvan hexpired hu I.refl ‹_›)⟩
      rename_i hnew
      split
      · exact ⟨rfl, .refused _ hborn hu
          (.settled van u _ hvan ‹_› hu I.refl (Bool.eq_false_iff.mpr hnew))⟩
      rename_i hsettled
      have hactive : van.status = .active := by
        cases h : van.status with
        | active => rfl
        | settled => exact absurd h hsettled
        | expired => exact absurd h hexpired
      have fault : ∀ t tx, I.rel [] s t → Faulty adm →
          Closes adm s (paymentError cmd)
            (Ends (α := VanWithLedger) I adm born (.recordPayment cmd))
            (.error (.pg .connectionFailure)) ⟨t, some s, tx⟩ :=
        fun t tx hst hf => closes_refused hborn hst (.fault hf) fun hf => .fault hf
      refine wp_withClient (onPaymentError_eq cmd) (fun _ _ _ => Ends.later)
        (fun hf => ⟨rfl, .refused _ hborn hu (.fault hf)⟩) fun t₁ hu₁ => ?_
      have h₁ := I.trans hu hu₁
      rw [Await.wp_bind]
      refine wp_begin (fun t₂ start h₁₂ => ?_) fun t₂ h₂ hf => fault _ _ (I.trans h₁ h₂) hf
      have h₂ := I.trans h₁ h₁₂
      dsimp only
      rw [Await.wp_bind]
      refine wp_appendLedgerEntry (fun t₃ h₃ hamount hkey => ?_) (fun t₃ e h₃ hcode hused => ?_)
        (fun t₃ e h₃ hcode hwhy => ?_) fun t₃ h₃ hf => fault _ _ (I.trans h₂ h₃) hf
      · have h₁₃ := I.trans (I.trans hu₁ h₁₂) h₃
        have h₃ := I.trans h₂ h₃
        obtain ⟨hvanid, -⟩ := Database.vanByNumber_some hvan
        dsimp only
        rw [Await.wp_bind]
        refine wp_updateReceivedAmount (fun t h => ?_) (fun t₄ v h₄ hrow => ?_)
          (fun t₄ v e h₄ hcode hrow hrange => ?_) fun t₄ h₄ hf =>
            fault _ _ (I.trans h₃ (I.weaken h₄)) hf
        · exact van_of_le (I.le (I.trans h₃ (I.weaken h))) hvanid
        · have hp : Paying I born s t₄ cmd van v :=
            { hborn := hborn
              hseen := I.trans h₃ (I.weaken h₄)
              hvan := hvan
              hactive := hactive
              hnew := ⟨u, hu, I.trans h₁₃ (I.weaken h₄), Bool.eq_false_iff.mpr hnew⟩
              hamount := hamount
              hkey := entry_key_fresh_of_quiet (I.quiet h₄) (List.mem_singleton_self _) hkey
              hrow := hrow }
          dsimp only
          split
          · -- The row that the `UPDATE` returned is paid in full.
            rename_i hfull
            rw [Await.wp_bind]
            refine Await.wp_mono Engine.rely_mono (settle_spec I adm born hp hfull) fun r w hw => ?_
            cases r with
            | ok final =>
                obtain ⟨time', seen', tx'⟩ := w
                obtain ⟨rfl, rfl, t, rows, hc, hrel⟩ := hw
                exact reply_spec van.id final hc hrel
            | error e => exact hw
          · rename_i hopen
            rw [Await.wp_bind]
            refine wp_commitAs (fun t h => ?_) (fun t hc => ?_) fun t h hf =>
              fault _ _ (I.trans hp.hseen (I.weaken h)) hf
            · have hp := hp.later h List.mem_cons_self
                (List.mem_cons_of_mem _ (List.mem_singleton_self _))
              exact .paid van v start hp.hborn hp.hseen hp.hvan hp.hactive hp.hnew hp.hamount
                hp.hkey hp.hrow hopen
            · exact reply_spec van.id _ hc I.refl
        · -- The new balance is out of range.
          refine closes_refused hborn (I.trans h₃ (I.weaken h₄)) ?_ fun hf => .fault hf
          rw [paymentError_pg hcode]
          exact .balance van v t₄ e hvan hactive (I.trans h₃ (I.weaken h₄)) I.refl
            (fun e' he' => hkey e' (mem_ledgerEntries_of_le (I.le h₃) he')) hrow hrange
      · -- Layer 2: the unique key is used.
        refine closes_refused hborn (I.trans h₂ h₃) ?_ fun hf => .fault hf
        rw [paymentError_used hcode]
        exact .layerTwo van t₃ hvan hactive (I.trans h₂ h₃) I.refl hused
      · -- Another constraint refuses the entry; its account is there.
        refine closes_refused hborn (I.trans h₂ h₃) ?_ fun hf => .fault hf
        rw [paymentError_pg hcode]
        rcases hwhy with ha | hn
        · exact .amount e ha
        · obtain ⟨v, hv⟩ := van_of_le (I.le (I.trans h₂ h₃)) (Database.vanByNumber_some hvan).1
          rw [writeAll_nil] at hn
          simp only [RecordPaymentCommand.credit] at hn
          rw [hv] at hn
          cases hn

/-- A result that is only wrapped ends the call in the same way. -/
theorem wp_map_ends {α : Type} {p : Async α} (f : α → Reply) {c : Call}
    {guar : Log → Log → List RowVersion → Prop} {v : ServiceView}
    (h : Await.wp (postgres.rely I adm guar) p v (Ends I adm born c)) :
    Await.wp (postgres.rely I adm guar) (do let r ← p; pure (f r)) v (Ends I adm born c) := by
  rw [Await.wp_bind]
  refine Await.wp_mono Engine.rely_mono h fun r w hw => ?_
  obtain ⟨htx, hend⟩ := hw
  cases r with
  | error e =>
      refine ⟨htx, ?_⟩
      cases hend with
      | refused _ hborn hrel hwhy => exact .refused e hborn hrel hwhy
      | committed t rows _ hc hrel hf => exact .committed t rows _ hc hrel fun _ _ => hf e rfl
  | ok a =>
      refine ⟨htx, ?_⟩
      cases hend with
      | committed t rows _ hc hrel hf => exact .committed t rows _ hc hrel fun _ h => nomatch h

/-- Every call commits only what `Commit` says and ends as `Ended` says. -/
theorem Call.spec (c : Call) :
    Await.wp (postgres.rely I adm (guarantee I born c)) c.body ⟨born, none, .idle⟩
      (Ends I adm born c) := by
  cases c with
  | submitInvoice cmd actorId =>
      exact wp_map_ends I adm born _ (submitInvoice_spec I adm born cmd actorId)
  | approveInvoice cmd actorId =>
      exact wp_map_ends I adm born _ (approveInvoice_spec I adm born cmd actorId)
  | requestFinancing cmd actorId =>
      exact wp_map_ends I adm born _ (requestFinancing_spec I adm born cmd actorId)
  | assessAndRecord cmd actorId =>
      exact wp_map_ends I adm born _ (assessAndRecord_spec I adm born cmd actorId)
  | createVan cmd => exact wp_map_ends I adm born _ (createVan_spec I adm born cmd)
  | recordPayment cmd => exact wp_map_ends I adm born _ (recordPayment_spec I adm born cmd)

end

end Vanguard
