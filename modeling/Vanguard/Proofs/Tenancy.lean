import Vanguard.Proofs.Accounts
import Vanguard.Services.Access

/-!
# `Vanguard.Proofs.Tenancy`: the requests of some organisations and the invoices of others

`Database.holdings` is what the tables hold for one invoice: its row, its accounts, their
ledger entries and its events. The requests of the members of `S` (`HttpRequest.FromTenant`)
should leave the holdings of an invoice alone when neither its supplier nor its buyer is in
`S`.

`Commit.holdings` proves it for one commit. The routes that compare the token with the row
give the ownership themselves. `POST /vans` checks the role only, and `POST /risk/assess`
checks nothing. `isolation_of_run` is the isolation for the runs in which these two are called
for invoices of `S` (`OwnTargets`), and `stranger_writes_invoice` is a run without it.
-/

set_option autoImplicit false

namespace Vanguard

open ReadCommitted Database

/-! ### The law -/

/-- What the tables hold for one invoice. -/
structure Holdings where
  invoice : Option Invoice
  accounts : List VirtualAccount
  entries : List LedgerEntry
  events : List InvoiceEvent
  deriving DecidableEq

/-- The holdings of the invoice `id`. -/
def Database.holdings (db : Database) (id : Uuid) : Holdings :=
  { invoice := db.invoice id
    accounts := db.virtualAccounts.rows.filter fun v => v.invoiceId == id
    entries := db.ledgerEntries.filter fun e =>
      (db.van e.virtualAccountId).any fun v => v.invoiceId == id
    events := db.eventsOf id }

/-- Neither the supplier nor the buyer of the invoice is in `S`. -/
def Invoice.Foreign (r : Invoice) (S : Set Uuid) : Prop := r.supplierId ∉ S ∧ r.buyerId ∉ S

/-- The request has no token, or the valid one of a supplier or a buyer in `S`. It is not the
webhook of the bank. -/
structure HttpRequest.FromTenant (r : HttpRequest) (verify : Verify) (S : Set Uuid) : Prop where
  token : r.authorization = none ∨ ∃ user,
    authenticate verify r.now r.authorization = .ok user ∧ user.sub ∈ S ∧
    user.role ≠ .platformAdmin
  webhook : ∀ verdict body, r.route ≠ .paymentWebhook verdict body

/-- The steps of requests of `S`. -/
def TenantStep (verify : Verify) (S : Set Uuid) (_ : ServiceWorld) (a : Step) : Prop :=
  ∀ c, a = .spawn c → ∃ r : HttpRequest, r.FromTenant verify S ∧ r.call verify = some c

/-- The invoice that a route lets any caller of the right role name. -/
def Call.unownedTarget? : Call → Option Uuid
  | .createVan cmd => some cmd.invoiceId
  | .assessAndRecord cmd _ => some cmd.invoiceId
  | .submitInvoice _ _ | .approveInvoice _ _ | .requestFinancing _ _ | .recordPayment _ => none

/-- An account or an assessment is asked for no invoice outside `S`. -/
def OwnTargets (S : Set Uuid) (c : Call) (db : Database) : Prop :=
  ∀ id r, c.unownedTarget? = some id → db.invoice id = some r → ¬ r.Foreign S

/-- The steps of requests of `S` of which each satisfies `OwnTargets` when its call starts. -/
def OwnTenantStep (verify : Verify) (S : Set Uuid) (w : ServiceWorld) (a : Step) : Prop :=
  TenantStep verify S w a ∧ ∀ c, a = .spawn c → OwnTargets S c w.db

/-! ### The calls of the tenants -/

/-- The party of the call that its guard compares with the invoice is in `S`, and it is no
payment. -/
def Call.ActsFor (S : Set Uuid) : Call → Prop
  | .submitInvoice cmd _ => cmd.supplierId ∈ S
  | .approveInvoice cmd _ => cmd.buyerId ∈ S
  | .requestFinancing cmd _ => cmd.supplierId ∈ S
  | .assessAndRecord _ _ | .createVan _ => True
  | .recordPayment _ => False

/-- A request behind a role check acts for the organisation of its token. -/
theorem HttpRequest.FromTenant.sub_mem {verify : Verify} {S : Set Uuid} {r : HttpRequest}
    (h : r.FromTenant verify S) {user : JwtPayload}
    (hu : authenticate verify r.now r.authorization = .ok user) : user.sub ∈ S := by
  rcases h.token with hnone | ⟨user', hu', hmem, -⟩
  · rw [hnone] at hu
    cases hu
  · rw [hu'] at hu
    cases hu
    exact hmem

/-- A request of a tenant makes a call for the tenant. -/
theorem HttpRequest.FromTenant.actsFor {verify : Verify} {S : Set Uuid} {r : HttpRequest}
    (h : r.FromTenant verify S) {c : Call} (hc : r.call verify = some c) : c.ActsFor S := by
  rw [HttpRequest.call] at hc
  cases hu : r.user verify with
  | error answer =>
      rw [hu] at hc
      cases hc
  | ok user =>
      rw [hu] at hc
      have hroute : ∀ route, r.route = route →
          (route.request user).bind Request.call = some c → c.ActsFor S := by
        intro route hr hcall
        cases route with
        | submitInvoice body =>
            obtain ⟨payload, rfl, ha, -⟩ := r.user_of_roles (by rw [hr]; rfl) hu
            obtain ⟨b, -, rfl⟩ := Option.map_eq_some_iff.mp hcall
            exact h.sub_mem ha
        | approveInvoice id signature =>
            obtain ⟨payload, rfl, ha, -⟩ := r.user_of_roles (by rw [hr]; rfl) hu
            obtain ⟨b, -, rfl⟩ := Option.map_eq_some_iff.mp hcall
            exact h.sub_mem ha
        | requestFinancing id =>
            obtain ⟨payload, rfl, ha, -⟩ := r.user_of_roles (by rw [hr]; rfl) hu
            cases hcall
            exact h.sub_mem ha
        | createVan body =>
            obtain ⟨b, -, rfl⟩ := Option.map_eq_some_iff.mp hcall
            trivial
        | assessRisk body =>
            obtain ⟨b, -, rfl⟩ := Option.map_eq_some_iff.mp hcall
            trivial
        | paymentWebhook verdict body => exact absurd hr (h.webhook verdict body)
        | invoiceHistory | vanDetails | register | login | health | failedJobs =>
            cases hcall
      exact hroute _ rfl hc

/-! ### One commit -/

namespace Database

variable {db : Database} {id : Uuid}

/-- A version of another invoice leaves the holdings alone. -/
theorem holdings_write_invoice {r : Invoice} (h : r.id ≠ id) :
    (db.write (.invoice r)).holdings id = db.holdings id := by
  simp only [holdings, invoice_write_invoice, if_neg h]
  rfl

/-- An event of another invoice leaves the holdings alone. -/
theorem holdings_write_invoiceEvent {e : InvoiceEvent} (h : e.invoiceId ≠ id) :
    (db.write (.invoiceEvent e)).holdings id = db.holdings id := by
  have hevents : (db.write (.invoiceEvent e)).eventsOf id = db.eventsOf id := by
    simp [eventsOf, h]
  simp only [holdings, hevents]
  rfl

/-- A ledger entry on the account of another invoice leaves the holdings alone. -/
theorem holdings_write_ledgerEntry {e : LedgerEntry}
    (h : ∀ v, db.van e.virtualAccountId = some v → v.invoiceId ≠ id) :
    (db.write (.ledgerEntry e)).holdings id = db.holdings id := by
  have hentry : ((db.van e.virtualAccountId).any fun v => v.invoiceId == id) = false := by
    cases hv : db.van e.virtualAccountId with
    | none => rfl
    | some v => simpa using h v hv
  simp only [holdings, ledgerEntries_write_ledgerEntry, van_write_ledgerEntry,
    List.filter_append, List.filter_singleton, hentry, cond_false, List.append_nil]
  rfl

/-- A new account of another invoice. -/
theorem holdings_write_virtualAccount {v : VirtualAccount} (hnew : db.van v.id = none)
    (h : v.invoiceId ≠ id) : (db.write (.virtualAccount v)).holdings id = db.holdings id := by
  have haccounts : (db.write (.virtualAccount v)).virtualAccounts.rows.filter
      (fun v => v.invoiceId == id) = db.virtualAccounts.rows.filter fun v => v.invoiceId == id := by
    refine Table.filter_put_of_neg (by simpa using h) fun a ha hk => ?_
    have ha := mem_virtualAccounts.mp ha
    rw [show a.id = v.id from hk, hnew] at ha
    cases ha
  have hentries : (db.write (.virtualAccount v)).ledgerEntries.filter (fun e =>
      ((db.write (.virtualAccount v)).van e.virtualAccountId).any fun v => v.invoiceId == id) =
      db.ledgerEntries.filter fun e =>
        (db.van e.virtualAccountId).any fun v => v.invoiceId == id := by
    refine List.filter_congr fun e _ => ?_
    rw [van_write_virtualAccount]
    split
    · rename_i hid
      rw [← hid, hnew]
      simpa using h
    · rfl
  simp only [holdings, haccounts, hentries]
  rfl

end Database

/-- A commit of a call of `S` leaves the holdings of a foreign invoice as they are. -/
theorem Commit.holdings {I : Interference Database RowVersion} {born seen t : Log} {c : Call}
    {rows : List RowVersion} (h : Commit I born seen t c rows) (hev : Evolving t) {S : Set Uuid}
    (hacts : c.ActsFor S) {id : Uuid} (htarget : c.unownedTarget? ≠ some id) {r : Invoice}
    (hr : t.now.invoice id = some r) (hforeign : r.Foreign S) :
    (t.commit rows).now.holdings id = t.now.holdings id := by
  -- An invoice that has evolved to the foreign one has the same parties.
  have parties : ∀ {u : Log} {inv : Invoice}, u ≤ t → u.now.invoice id = some inv →
      inv.Foreign S := by
    intro u inv hu hinv
    obtain ⟨r', hr', hre⟩ := (hev.evolves hu).invoice id inv hinv
    obtain rfl : r = r' := Option.some.inj (hr.symm.trans hr')
    rw [Invoice.Foreign, ← hre.supplierId, ← hre.buyerId]
    exact hforeign
  rw [Timeline.now_commit]
  cases h with
  | @draft cmd actorId env _ _ _ hnone =>
      have hid : (cmd.draft env).id ≠ id := by
        rintro rfl
        rw [show (cmd.draft env).id = env.uuid from rfl, hnone] at hr
        cases hr
      exact holdings_write_invoice hid
  | @submitted cmd actorId env u x now _ hbefore hrow =>
      have hid : env.uuid ≠ id := by
        rintro rfl
        -- The draft of this call is a version of the row, and its supplier is in `S`.
        have hdraft : (u.commit [.invoice (cmd.draft env)]).now.invoice env.uuid =
            some (cmd.draft env) := by
          simp [SubmitInvoiceCommand.draft]
        exact (parties (I.le hbefore) hdraft).1 hacts
      have hx : (x.setStatus .submitted now).id ≠ id := by
        rw [Invoice.setStatus_id, invoice_id hrow]
        exact hid
      have he : (submittedEvent actorId (cmd.draft env) now).invoiceId ≠ id := hid
      simp only [writeAll_cons, writeAll_nil, store_write]
      rw [holdings_write_invoiceEvent he, holdings_write_invoice hx]
  | @approved cmd actorId inv x approvedAt now _ hseen hinv hbuyer _ _ hrow =>
      have hid : cmd.invoiceId ≠ id := by
        rintro rfl
        exact (parties (I.le hseen) hinv).2 (hbuyer ▸ hacts)
      have hsigned : (x.sign cmd.buyerSignature now).id ≠ id := invoice_id hrow ▸ hid
      have hx : ((x.sign cmd.buyerSignature now).setStatus .buyerApproved now).id ≠ id := hsigned
      have he : (approvedEvent cmd actorId approvedAt now).invoiceId ≠ id := hid
      simp only [writeAll_cons, writeAll_nil, store_write]
      rw [holdings_write_invoiceEvent he, holdings_write_invoice hx,
        holdings_write_invoice hsigned]
  | @requested cmd actorId inv x requestedAt now _ hseen hinv hsupplier _ hrow =>
      have hid : cmd.invoiceId ≠ id := by
        rintro rfl
        exact (parties (I.le hseen) hinv).1 (hsupplier ▸ hacts)
      have hx : (x.setStatus .financingRequested now).id ≠ id := invoice_id hrow ▸ hid
      have he : (requestedEvent cmd actorId inv.amountCents requestedAt now).invoiceId ≠ id := hid
      simp only [writeAll_cons, writeAll_nil, store_write]
      rw [holdings_write_invoiceEvent he, holdings_write_invoice hx]
  | @assessed cmd actorId =>
      have hid : cmd.invoiceId ≠ id := fun h => htarget (congrArg some h)
      exact holdings_write_invoiceEvent hid
  | @rejected cmd actorId inv x assessedAt now _ _ _ _ _ hrow =>
      have hid : cmd.invoiceId ≠ id := fun h => htarget (congrArg some h)
      have hx : (x.setStatus .cancelled now).id ≠ id := invoice_id hrow ▸ hid
      have he : (assessmentEvent cmd actorId assessedAt now).invoiceId ≠ id := hid
      simp only [writeAll_cons, writeAll_nil, store_write]
      rw [holdings_write_invoice hx, holdings_write_invoiceEvent he]
  | @created cmd inv van start _ _ _ _ hinvoice _ _ _ _ hnew =>
      have hid : cmd.invoiceId ≠ id := fun h => htarget (congrArg some h)
      have hvan : van.invoiceId ≠ id := hinvoice ▸ hid
      have he : (vanCreatedEvent van start.now).invoiceId ≠ id := hvan
      simp only [writeAll_cons, writeAll_nil, store_write]
      rw [holdings_write_invoiceEvent he, holdings_write_ledgerEntry ?_,
        holdings_write_virtualAccount hnew hvan]
      -- The advance belongs to the new account.
      intro v hv
      have hv : v = van := by
        simpa [CreateLedgerEntryInput.row, CreateVanCommand.debit] using hv.symm
      exact hv ▸ hvan
  | paid => exact hacts.elim
  | settled => exact hacts.elim

/-! ### Runs -/

/-- The requests of the members of `S` leave the invoices of others alone, in every committed
moment of every interleaving, when they ask for accounts and assessments of their own invoices
only. -/
theorem isolation_of_run {db : Database} {verify : Verify} {S : Set Uuid} {w : ServiceWorld}
    (h : Runs (OwnTenantStep verify S) (.start db) w) {id : Uuid} {r : Invoice}
    (hr : db.invoice id = some r) (hforeign : r.Foreign S) :
    ∀ u ≤ w.timeline, u.now.holdings id = db.holdings id := by
  refine Runs.invariant (C := fun c born => c.ActsFor S ∧ OwnTargets S c born.now)
    (Or.inl Interference.concurrent_shared) ?_ (Timeline.commits_start _ _) (fun u hu => ?_) ?_ h
  · intro w c ha
    obtain ⟨request, htenant, hcall⟩ := ha.1 c rfl
    exact ⟨htenant.actsFor hcall, ha.2 c rfl⟩
  · rw [Timeline.le_start_iff.mp hu]
    rfl
  · intro c born seen t rows hC hc hev ih
    obtain ⟨hacts, hown⟩ := hC
    -- At every moment so far the row is the one of the start.
    have stored : ∀ u ≤ t, u.now.invoice id = some r := by
      intro u hu
      have hsame : u.now.invoice id = db.invoice id := congrArg Holdings.invoice (ih u hu)
      rw [hsame, hr]
    have htarget : c.unownedTarget? ≠ some id := by
      intro htarget
      have hsubmit : ∀ cmd actorId, c ≠ .submitInvoice cmd actorId := by
        rintro cmd actorId rfl
        cases htarget
      have hborn := hc.rel hsubmit
      have hle : born ≤ t :=
        (Interference.le _ hborn.1).trans (Interference.le _ hborn.2)
      exact hown id r htarget (stored born hle) hforeign
    rw [hc.holdings hev hacts htarget (stored t (le_refl t)) hforeign]
    exact ih t (le_refl t)

/-- The check of `TenantStep` for a list of requests. -/
def tenantCheck (verify : Verify) (rs : List HttpRequest) (_ : ServiceWorld) : Step → Bool
  | .spawn c => rs.any fun r => r.call verify == some c
  | .step _ _ => true

/-- A step that passes `tenantCheck` meets `TenantStep`. -/
theorem tenantStep_of_check {verify : Verify} {S : Set Uuid} {rs : List HttpRequest}
    (hrs : ∀ r ∈ rs, r.FromTenant verify S) (w : ServiceWorld) (a : Step)
    (h : tenantCheck verify rs w a = true) : TenantStep verify S w a := by
  rintro c rfl
  obtain ⟨r, hr, hcall⟩ := List.any_eq_true.mp h
  exact ⟨r, hrs r hr, beq_iff_eq.mp hcall⟩

/-- The check of `OwnTargets`, for a list of members. -/
def ownTargetCheck (members : List Uuid) (w : ServiceWorld) : Step → Bool
  | .spawn c => c.unownedTarget?.all fun id => (w.db.invoice id).all fun r =>
    members.contains r.supplierId || members.contains r.buyerId
  | .step _ _ => true

/-- A step that also passes `ownTargetCheck` meets `OwnTenantStep`. -/
theorem ownTenantStep_of_check {verify : Verify} {members : List Uuid} {rs : List HttpRequest}
    (hrs : ∀ r ∈ rs, r.FromTenant verify {x | x ∈ members}) (w : ServiceWorld) (a : Step)
    (h : (tenantCheck verify rs w a && ownTargetCheck members w a) = true) :
    OwnTenantStep verify {x | x ∈ members} w a := by
  rw [Bool.and_eq_true] at h
  refine ⟨tenantStep_of_check hrs w a h.1, ?_⟩
  rintro c rfl id r htarget hr hforeign
  have hown := h.2
  simp only [ownTargetCheck, htarget, hr, Option.all_some, Bool.or_eq_true,
    List.contains_iff_mem] at hown
  exact hown.elim hforeign.1 hforeign.2

/-! Two suppliers and two buyers, and one invoice of the second pair. -/

/-- A supplier outside the tenants of the sample. -/
def otherSupplier : Uuid := ⟨"c", by decide⟩

/-- A buyer outside the tenants of the sample. -/
def otherBuyer : Uuid := ⟨"d", by decide⟩

/-- The invoice of these two. -/
def otherId : Uuid := ⟨"2", by decide⟩

/-- A database shared by the two pairs. -/
def sharedDb : Database :=
  { sampleDb with
      organisations :=
        { rows := [⟨sampleSupplier, "Supplier", none, .supplier⟩,
            ⟨sampleBuyer, "Buyer", none, .buyer⟩, ⟨otherSupplier, "Other", none, .supplier⟩,
            ⟨otherBuyer, "Other buyer", none, .buyer⟩]
          nodup := by decide }
      invoices :=
        { rows := [⟨otherId, "INV-2", otherSupplier, otherBuyer, 5000, "INR", 100,
            .financingRequested, some "0123456789", 0, 0⟩]
          nodup := by decide } }

/-- The tokens `a` and `b` of the first pair. -/
def sampleVerify : Verify := fun _ token =>
  if token = "a" then .ok ⟨sampleSupplier, .supplier⟩
  else if token = "b" then .ok ⟨sampleBuyer, .buyer⟩
  else .error .invalid

/-- The first pair's own requests. -/
def ownRequests : List HttpRequest :=
  [⟨some "Bearer a",
      .submitInvoice ⟨"INV-1", sampleSupplier, sampleBuyer, 1000, "INR", 100⟩, 1⟩,
    ⟨some "Bearer b", .approveInvoice sampleId "0123456789", 1⟩,
    ⟨some "Bearer a", .requestFinancing sampleId, 1⟩,
    ⟨some "Bearer a", .createVan ⟨sampleId.asText, 1000⟩, 1⟩]

/-- The own requests come from the tenant. -/
theorem ownRequests_fromTenant : ∀ r ∈ ownRequests,
    r.FromTenant sampleVerify {x | x ∈ [sampleSupplier, sampleBuyer]} := by
  have supplier : ∀ route : Route, (∀ verdict body, route ≠ .paymentWebhook verdict body) →
      HttpRequest.FromTenant ⟨some "Bearer a", route, 1⟩ sampleVerify
        {x | x ∈ [sampleSupplier, sampleBuyer]} := fun route hroute =>
    ⟨Or.inr ⟨⟨sampleSupplier, .supplier⟩, by rfl, by simp, by decide⟩, hroute⟩
  have buyer : ∀ route : Route, (∀ verdict body, route ≠ .paymentWebhook verdict body) →
      HttpRequest.FromTenant ⟨some "Bearer b", route, 1⟩ sampleVerify
        {x | x ∈ [sampleSupplier, sampleBuyer]} := fun route hroute =>
    ⟨Or.inr ⟨⟨sampleBuyer, .buyer⟩, by rfl, by simp, by decide⟩, hroute⟩
  intro r hr
  simp only [ownRequests, List.mem_cons, List.not_mem_nil, or_false] at hr
  rcases hr with rfl | rfl | rfl | rfl
  · exact supplier _ (by simp)
  · exact buyer _ (by simp)
  · exact supplier _ (by simp)
  · exact supplier _ (by simp)

/-- The first pair runs its own invoice up to the account. -/
theorem isolation_of_own_requests : ∃ w : ServiceWorld,
    Runs (OwnTenantStep sampleVerify {x | x ∈ [sampleSupplier, sampleBuyer]})
      (.start sharedDb) w ∧
      w.db.virtualAccounts.rows.map VirtualAccount.invoiceId = [sampleId] ∧
      ∀ u ≤ w.timeline, u.now.holdings otherId = sharedDb.holdings otherId := by
  have h : (play (fun w a => tenantCheck sampleVerify ownRequests w a &&
      ownTargetCheck [sampleSupplier, sampleBuyer] w a) (.start sharedDb) stepsToAccount).map
      (fun w => w.db.virtualAccounts.rows.map VirtualAccount.invoiceId) = some [sampleId] := by
    decide +kernel
  obtain ⟨w, hrun, hl⟩ := exists_run_of_play (ownTenantStep_of_check ownRequests_fromTenant) h
  refine ⟨w, hrun, hl, isolation_of_run hrun (r := ⟨otherId, "INV-2", otherSupplier, otherBuyer,
    5000, "INR", 100, .financingRequested, some "0123456789", 0, 0⟩) (by rfl) ⟨?_, ?_⟩⟩
  · show otherSupplier ∉ [sampleSupplier, sampleBuyer]
    decide
  · show otherBuyer ∉ [sampleSupplier, sampleBuyer]
    decide

/-- The requests of a stranger: an account for the other pair's invoice with a supplier's
token, and an assessment of it without a token. -/
def strangerRequests : List HttpRequest :=
  [⟨some "Bearer a", .createVan ⟨otherId.asText, 1⟩, 1⟩,
    ⟨none, .assessRisk { sampleRejection with invoiceId := otherId }, 1⟩]

/-- The requests of the stranger come from the tenant. -/
theorem strangerRequests_fromTenant : ∀ r ∈ strangerRequests,
    r.FromTenant sampleVerify {x | x ∈ [sampleSupplier]} := by
  intro r hr
  simp only [strangerRequests, List.mem_cons, List.not_mem_nil, or_false] at hr
  rcases hr with rfl | rfl
  · exact ⟨Or.inr ⟨⟨sampleSupplier, .supplier⟩, by rfl, by simp, by decide⟩, by simp⟩
  · exact ⟨Or.inl rfl, by simp⟩

/-- A supplier opens an account for an invoice of two other organisations, and an assessment
without a token cancels it. -/
theorem stranger_writes_invoice : ∃ w : ServiceWorld,
    Runs (TenantStep sampleVerify {x | x ∈ [sampleSupplier]}) (.start sharedDb) w ∧
      w.quiescent = true ∧ w.db.statusOf otherId = some .cancelled ∧
      w.db.virtualAccounts.rows.map VirtualAccount.invoiceId = [otherId] ∧
      w.db.holdings otherId ≠ sharedDb.holdings otherId := by
  have h : (play (tenantCheck sampleVerify strangerRequests) (.start sharedDb)
      (.spawn (.createVan ⟨otherId.asText, 1⟩) :: steps 0 12 ++
        .spawn (.assessAndRecord { sampleRejection with invoiceId := otherId } otherId) ::
        steps 1 8)).map
      (fun w => (w.quiescent, w.db.statusOf otherId,
        w.db.virtualAccounts.rows.map VirtualAccount.invoiceId)) =
      some (true, some .cancelled, [otherId]) := by decide +kernel
  obtain ⟨w, hrun, hl⟩ := exists_run_of_play (tenantStep_of_check strangerRequests_fromTenant) h
  simp only [Prod.mk.injEq] at hl
  refine ⟨w, hrun, hl.1, hl.2.1, hl.2.2, fun heq => ?_⟩
  -- Already the row differs.
  have hrow : w.db.invoice otherId = sharedDb.invoice otherId := congrArg Holdings.invoice heq
  have hstatus : w.db.statusOf otherId = sharedDb.statusOf otherId := by
    rw [statusOf, statusOf, hrow]
  rw [hl.2.1] at hstatus
  revert hstatus
  decide

end Vanguard
