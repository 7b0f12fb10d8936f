import Vanguard.Proofs.Locks
import Vanguard.Proofs.Replay

/-!
# `Vanguard.Proofs.Constraints`: the constraints of the schema hold in every run

`Database.Valid` are the constraints of `V001__initial_schema.sql`. A statement checks them
against the database that it sees: the committed one with the row versions of its own
transaction. So two transactions can each see a valid database, and it is the row locks that
keep their merge valid (`Valid.merge`). The exception would be a statement on the pool inside a
transaction, since a call does not wait for itself: `rowLocks` says that no service has written
anything in its transaction when it sends one.

`constraints_of_run` is the result: every committed database and every database that an open
transaction sees is valid.
-/

set_option autoImplicit false

namespace Vanguard

open ReadCommitted

/-- The constraints of `V001__initial_schema.sql` that are not in the types. -/
structure Database.Valid (db : Database) : Prop where
  invoiceNumber : invoiceTable.Unique db Invoice.invoiceNumber
  invoiceAmount : ∀ r ∈ db.invoices, 0 < r.amountCents ∧ r.amountCents ≤ maxBigint
  invoiceParties : ∀ r ∈ db.invoices, r.buyerId ≠ r.supplierId ∧
    (db.organisations.get? r.supplierId).isSome = true ∧
    (db.organisations.get? r.buyerId).isSome = true
  accountInvoice : accountTable.Unique db VirtualAccount.invoiceId
  accountNumber : accountTable.Unique db VirtualAccount.accountNumber
  accountOf : ∀ v ∈ db.virtualAccounts, (db.invoice v.invoiceId).isSome = true
  accountAmounts : ∀ v ∈ db.virtualAccounts, 0 < v.expectedAmountCents ∧
    v.expectedAmountCents ≤ maxBigint ∧ 0 ≤ v.receivedAmountCents ∧
    v.receivedAmountCents ≤ maxBigint
  entryKey : (db.ledgerEntries.map LedgerEntry.idempotencyKey).Nodup
  entryAmount : ∀ e ∈ db.ledgerEntries, 0 < e.amountCents ∧ e.amountCents ≤ maxBigint
  entryOf : ∀ e ∈ db.ledgerEntries, (db.van e.virtualAccountId).isSome = true
  eventOf : ∀ e ∈ db.invoiceEvents, (db.invoice e.invoiceId).isSome = true

/-! ### The rows of a batch -/

/-- No commit touches the organisations. -/
theorem organisations_writeAll (db : Database) (rows : List RowVersion) :
    (writeAll db rows).organisations = db.organisations := by
  refine writeAll_induction (P := fun db' : Database => db'.organisations = db.organisations)
    (fun db' r h => ?_) rfl rows
  cases r <;> exact h

/-- The invoices are what the lookup by id finds. -/
theorem mem_invoices {db : Database} {r : Invoice} :
    r ∈ db.invoices ↔ invoiceTable.get db r.id = some r :=
  ⟨Table.get?_of_mem, Table.mem_of_get?⟩

/-- The accounts are what the lookup by id finds. -/
theorem mem_accounts {db : Database} {v : VirtualAccount} :
    v ∈ db.virtualAccounts ↔ accountTable.get db v.id = some v :=
  Database.mem_virtualAccounts

/-! ### The merge of two transactions -/

section
variable {db : Database} {rows ws : List RowVersion}

/-- A row of the merge is a row of one of the two views. -/
theorem mem_invoices_merge {r : Invoice} (h : r ∈ (writeAll (writeAll db rows) ws).invoices) :
    r ∈ (writeAll db rows).invoices ∨ r ∈ (writeAll db ws).invoices := by
  rcases Lookup.merge_cases (mem_invoices.mp h) with ⟨-, h⟩ | ⟨h, -⟩
  · exact Or.inr (mem_invoices.mpr h)
  · exact Or.inl (mem_invoices.mpr h)

/-- An account after two batches comes from one of them or was there. -/
theorem mem_accounts_merge {v : VirtualAccount}
    (h : v ∈ (writeAll (writeAll db rows) ws).virtualAccounts) :
    v ∈ (writeAll db rows).virtualAccounts ∨ v ∈ (writeAll db ws).virtualAccounts := by
  rcases Lookup.merge_cases (mem_accounts.mp h) with ⟨-, h⟩ | ⟨h, -⟩
  · exact Or.inr (mem_accounts.mpr h)
  · exact Or.inl (mem_accounts.mpr h)

/-- An entry after two batches comes from one of them or was there. -/
theorem mem_entries_merge {e : LedgerEntry}
    (h : e ∈ (writeAll (writeAll db rows) ws).ledgerEntries) :
    e ∈ (writeAll db rows).ledgerEntries ∨ e ∈ (writeAll db ws).ledgerEntries := by
  rw [ledgerEntries_writeAll] at h
  rw [ledgerEntries_writeAll db ws]
  rcases List.mem_append.mp h with h | h
  · exact Or.inl h
  · exact Or.inr (List.mem_append_right _ h)

/-- An event after two batches comes from one of them or was there. -/
theorem mem_events_merge {e : InvoiceEvent}
    (h : e ∈ (writeAll (writeAll db rows) ws).invoiceEvents) :
    e ∈ (writeAll db rows).invoiceEvents ∨ e ∈ (writeAll db ws).invoiceEvents := by
  rw [invoiceEvents_writeAll] at h
  rw [invoiceEvents_writeAll db ws]
  rcases List.mem_append.mp h with h | h
  · exact Or.inl h
  · exact Or.inr (List.mem_append_right _ h)

/-- An invoice of one of the two views is one of the merge. -/
theorem invoice_isSome_merge {id : Uuid}
    (h : ((writeAll db rows).invoice id).isSome = true ∨
      ((writeAll db ws).invoice id).isSome = true) :
    ((writeAll (writeAll db rows) ws).invoice id).isSome = true := by
  rcases h with h | h
  · exact invoiceTable.isSome_writeAll h ws
  · exact invoiceTable.isSome_merge h

/-- An account of either batch is there after both. -/
theorem van_isSome_merge {id : Uuid}
    (h : ((writeAll db rows).van id).isSome = true ∨ ((writeAll db ws).van id).isSome = true) :
    ((writeAll (writeAll db rows) ws).van id).isSome = true := by
  rcases h with h | h
  · exact accountTable.isSome_writeAll h ws
  · exact accountTable.isSome_merge h

/-- The merge of two transactions that each see a valid database, and that hold no row versions
that clash, is valid. -/
theorem Database.Valid.merge (h₁ : (writeAll db rows).Valid) (h₂ : (writeAll db ws).Valid)
    (hc : compatible (D := Database) rows ws = true) :
    (writeAll (writeAll db rows) ws).Valid := by
  have hc := (compatible_iff _ _).mp hc
  constructor
  · refine h₁.invoiceNumber.merge h₂.invoiceNumber fun r r' hr hr' hne => ?_
    have := hc _ (holds_invoice.mp hr) _ (holds_invoice.mp hr')
    simp [RowVersion.clash, hne] at this
  · intro r hr
    rcases mem_invoices_merge hr with hr | hr
    · exact h₁.invoiceAmount r hr
    · exact h₂.invoiceAmount r hr
  · intro r hr
    rw [organisations_writeAll, organisations_writeAll]
    rcases mem_invoices_merge hr with hr | hr
    · rw [← organisations_writeAll db rows]
      exact h₁.invoiceParties r hr
    · rw [← organisations_writeAll db ws]
      exact h₂.invoiceParties r hr
  · refine h₁.accountInvoice.merge h₂.accountInvoice fun v v' hv hv' hne => ?_
    have := hc _ (holds_account.mp hv) _ (holds_account.mp hv')
    simp [RowVersion.clash, hne] at this
  · refine h₁.accountNumber.merge h₂.accountNumber fun v v' hv hv' hne => ?_
    have := hc _ (holds_account.mp hv) _ (holds_account.mp hv')
    simp [RowVersion.clash, hne] at this
  · intro v hv
    rcases mem_accounts_merge hv with hv | hv
    · exact invoice_isSome_merge (Or.inl (h₁.accountOf v hv))
    · exact invoice_isSome_merge (Or.inr (h₂.accountOf v hv))
  · intro v hv
    rcases mem_accounts_merge hv with hv | hv
    · exact h₁.accountAmounts v hv
    · exact h₂.accountAmounts v hv
  · -- Both views have the old entries, and the keys of the new ones do not clash.
    have hkeys := h₁.entryKey
    have hkeys' := h₂.entryKey
    rw [ledgerEntries_writeAll, List.map_append, List.nodup_append] at hkeys' ⊢
    refine ⟨hkeys, hkeys'.2.1, fun key hkey key' hkey' => ?_⟩
    obtain ⟨e', he', rfl⟩ := List.mem_map.mp hkey'
    obtain ⟨e, he, rfl⟩ := List.mem_map.mp hkey
    rw [ledgerEntries_writeAll] at he
    rcases List.mem_append.mp he with he | he
    · exact hkeys'.2.2 _ (List.mem_map_of_mem he) _ (List.mem_map_of_mem he')
    · have := hc _ (mem_writtenEntries.mp he) _ (mem_writtenEntries.mp he')
      simpa [RowVersion.clash] using this
  · intro e he
    rcases mem_entries_merge he with he | he
    · exact h₁.entryAmount e he
    · exact h₂.entryAmount e he
  · intro e he
    rcases mem_entries_merge he with he | he
    · exact van_isSome_merge (Or.inl (h₁.entryOf e he))
    · exact van_isSome_merge (Or.inr (h₂.entryOf e he))
  · intro e he
    rcases mem_events_merge he with he | he
    · exact invoice_isSome_merge (Or.inl (h₁.eventOf e he))
    · exact invoice_isSome_merge (Or.inr (h₂.eventOf e he))

end

/-! ### One statement -/

namespace Database.Valid

variable {db : Database}

/-- An `INSERT` or an `UPDATE` of an invoice. -/
theorem writeInvoice (h : db.Valid) {r : Invoice}
    (hnumber : ∀ r' ∈ db.invoices, r'.id ≠ r.id → r'.invoiceNumber ≠ r.invoiceNumber)
    (hamount : 0 < r.amountCents ∧ r.amountCents ≤ maxBigint)
    (hparties : r.buyerId ≠ r.supplierId ∧
      (db.organisations.get? r.supplierId).isSome = true ∧
      (db.organisations.get? r.buyerId).isSome = true) : (db.write (.invoice r)).Valid where
  invoiceNumber := by
    refine Lookup.Unique.write h.invoiceNumber rfl fun id r' hr' hne => ?_
    exact hnumber r' (Table.mem_of_get? hr') hne
  invoiceAmount r' hr' := by
    rcases Table.mem_put.mp hr' with rfl | ⟨hr', -⟩
    · exact hamount
    · exact h.invoiceAmount r' hr'
  invoiceParties r' hr' := by
    rcases Table.mem_put.mp hr' with rfl | ⟨hr', -⟩
    · exact hparties
    · exact h.invoiceParties r' hr'
  accountInvoice := h.accountInvoice
  accountNumber := h.accountNumber
  accountOf v hv := invoiceTable.isSome_writeAll (h.accountOf v hv) [.invoice r]
  accountAmounts := h.accountAmounts
  entryKey := h.entryKey
  entryAmount := h.entryAmount
  entryOf := h.entryOf
  eventOf e he := invoiceTable.isSome_writeAll (h.eventOf e he) [.invoice r]

/-- An `INSERT` or an `UPDATE` of a virtual account. -/
theorem writeAccount (h : db.Valid) {v : VirtualAccount}
    (hkeys : ∀ v' ∈ db.virtualAccounts, v'.id ≠ v.id →
      v'.accountNumber ≠ v.accountNumber ∧ v'.invoiceId ≠ v.invoiceId)
    (hof : (db.invoice v.invoiceId).isSome = true)
    (hamounts : 0 < v.expectedAmountCents ∧ v.expectedAmountCents ≤ maxBigint ∧
      0 ≤ v.receivedAmountCents ∧ v.receivedAmountCents ≤ maxBigint) :
    (db.write (.virtualAccount v)).Valid where
  invoiceNumber := h.invoiceNumber
  invoiceAmount := h.invoiceAmount
  invoiceParties := h.invoiceParties
  accountInvoice := by
    refine Lookup.Unique.write h.accountInvoice rfl fun id v' hv' hne => ?_
    exact (hkeys v' (Table.mem_of_get? hv') hne).2
  accountNumber := by
    refine Lookup.Unique.write h.accountNumber rfl fun id v' hv' hne => ?_
    exact (hkeys v' (Table.mem_of_get? hv') hne).1
  accountOf v' hv' := by
    rcases Table.mem_put.mp hv' with rfl | ⟨hv', -⟩
    · exact hof
    · exact h.accountOf v' hv'
  accountAmounts v' hv' := by
    rcases Table.mem_put.mp hv' with rfl | ⟨hv', -⟩
    · exact hamounts
    · exact h.accountAmounts v' hv'
  entryKey := h.entryKey
  entryAmount := h.entryAmount
  entryOf e he := accountTable.isSome_writeAll (h.entryOf e he) [.virtualAccount v]
  eventOf := h.eventOf

/-- A new entry with a fresh key, a positive amount and an account keeps the
constraints. -/
theorem writeEntry (h : db.Valid) {e : LedgerEntry}
    (hkey : ∀ e' ∈ db.ledgerEntries, e'.idempotencyKey ≠ e.idempotencyKey)
    (hamount : 0 < e.amountCents ∧ e.amountCents ≤ maxBigint)
    (hof : (db.van e.virtualAccountId).isSome = true) : (db.write (.ledgerEntry e)).Valid where
  invoiceNumber := h.invoiceNumber
  invoiceAmount := h.invoiceAmount
  invoiceParties := h.invoiceParties
  accountInvoice := h.accountInvoice
  accountNumber := h.accountNumber
  accountOf := h.accountOf
  accountAmounts := h.accountAmounts
  entryKey := by
    simp only [Database.ledgerEntries_write_ledgerEntry, List.map_append, List.map_cons,
      List.map_nil]
    refine List.nodup_append.mpr ⟨h.entryKey, List.nodup_singleton _, fun k hk k' hk' => ?_⟩
    obtain ⟨e', he', rfl⟩ := List.mem_map.mp hk
    obtain rfl := List.mem_singleton.mp hk'
    exact hkey e' he'
  entryAmount e' he' := by
    rcases List.mem_append.mp he' with he' | he'
    · exact h.entryAmount e' he'
    · obtain rfl := List.mem_singleton.mp he'
      exact hamount
  entryOf e' he' := by
    rcases List.mem_append.mp he' with he' | he'
    · exact h.entryOf e' he'
    · obtain rfl := List.mem_singleton.mp he'
      exact hof
  eventOf := h.eventOf

/-- An event of an existing invoice keeps the constraints. -/
theorem writeEvent (h : db.Valid) {e : InvoiceEvent}
    (hof : (db.invoice e.invoiceId).isSome = true) : (db.write (.invoiceEvent e)).Valid :=
  { h with
      eventOf := fun e' he' => by
        rcases List.mem_append.mp he' with he' | he'
        · exact h.eventOf e' he'
        · obtain rfl := List.mem_singleton.mp he'
          exact hof }

/-- An `UPDATE` of an invoice that leaves its number, its amount and its parties. -/
theorem updateInvoice (h : db.Valid) {id : Uuid} {r₀ r : Invoice} (hrow : db.invoice id = some r₀)
    (hid : r.id = r₀.id) (hnumber : r.invoiceNumber = r₀.invoiceNumber)
    (hamount : r.amountCents = r₀.amountCents) (hbuyer : r.buyerId = r₀.buyerId)
    (hsupplier : r.supplierId = r₀.supplierId) : (db.write (.invoice r)).Valid := by
  have hmem : r₀ ∈ db.invoices := Table.mem_of_get? hrow
  refine h.writeInvoice (fun r' hr' hne he => ?_) ?_ ?_
  · -- Another row with the number would be the row itself.
    rw [hnumber] at he
    have := h.invoiceNumber _ _ r' r₀ (mem_invoices.mp hr') hrow he
    exact hne (by rw [this, hid])
  · rw [hamount]
    exact h.invoiceAmount r₀ hmem
  · rw [hbuyer, hsupplier]
    exact h.invoiceParties r₀ hmem

/-- An `UPDATE` of an account that leaves its keys and the expected amount. -/
theorem updateAccount (h : db.Valid) {id : Uuid} {v₀ v : VirtualAccount}
    (hrow : db.van id = some v₀) (hid : v.id = v₀.id) (hinvoice : v.invoiceId = v₀.invoiceId)
    (hnumber : v.accountNumber = v₀.accountNumber)
    (hexpected : v.expectedAmountCents = v₀.expectedAmountCents)
    (hreceived : 0 ≤ v.receivedAmountCents ∧ v.receivedAmountCents ≤ maxBigint) :
    (db.write (.virtualAccount v)).Valid := by
  have hmem : v₀ ∈ db.virtualAccounts := Table.mem_of_get? hrow
  refine h.writeAccount (fun v' hv' hne => ⟨fun he => ?_, fun he => ?_⟩) ?_ ?_
  · rw [hnumber] at he
    have := h.accountNumber _ _ v' v₀ (mem_accounts.mp hv') hrow he
    exact hne (by rw [this, hid])
  · rw [hinvoice] at he
    have := h.accountInvoice _ _ v' v₀ (mem_accounts.mp hv') hrow he
    exact hne (by rw [this, hid])
  · rw [hinvoice]
    exact h.accountOf v₀ hmem
  · rw [hexpected]
    have := h.accountAmounts v₀ hmem
    exact ⟨this.1, this.2.1, hreceived⟩

end Database.Valid

/-- A statement that succeeds keeps the constraints of the database that it sees. -/
theorem valid_of_exec {db : Database} (h : db.Valid) {q : Sql} {start env : Env}
    {rows : List RowVersion} {b : q.Rows} (hx : q.exec start env db = .ok (rows, b)) :
    (writeAll db rows).Valid := by
  cases q with
  | insertInvoice input =>
      obtain ⟨hamount, hx⟩ := check_bind_ok hx
      obtain ⟨hparties, hx⟩ := check_bind_ok hx
      obtain ⟨-, hx⟩ := check_bind_ok hx
      obtain ⟨hnumber, hx⟩ := check_bind_ok hx
      obtain ⟨hsupplier, hx⟩ := check_bind_ok hx
      obtain ⟨hbuyer, hx⟩ := check_bind_ok hx
      cases hx
      have hnumber := List.all_eq_true.mp (require_ok hnumber)
      refine h.writeInvoice (fun r hr _ => ?_) (positiveBigint_ok hamount)
        ⟨?_, require_ok hsupplier, require_ok hbuyer⟩
      · have hne : r.invoiceNumber ≠ input.invoiceNumber := by simpa using hnumber r hr
        exact hne
      · have hne : input.buyerId ≠ input.supplierId := by simpa using require_ok hparties
        exact hne
  | updateInvoiceStatus id status =>
      obtain rfl : _ = rows := congrArg Prod.fst (Except.ok.inj hx)
      cases hrow : db.invoice id with
      | none => exact h
      | some r => exact h.updateInvoice hrow rfl rfl rfl rfl rfl
  | updateInvoiceSignature id signature =>
      obtain rfl : _ = rows := congrArg Prod.fst (Except.ok.inj hx)
      cases hrow : db.invoice id with
      | none => exact h
      | some r => exact h.updateInvoice hrow rfl rfl rfl rfl rfl
  | insertVan input =>
      obtain ⟨hamount, hx'⟩ := check_bind_ok hx
      obtain ⟨rfl, -, -, -, hkeys, hof⟩ := insertVan_ok hx
      obtain ⟨hpos, hmax⟩ := positiveBigint_ok hamount
      have hzero : (0 : Int) ≤ maxBigint := by decide
      exact h.writeAccount (fun v hv _ => hkeys v hv) hof ⟨hpos, hmax, le_refl 0, hzero⟩
  | updateReceivedAmount id additional =>
      cases hrow : db.van id with
      | none =>
          simp only [Sql.exec, hrow] at hx
          cases hx
          exact h
      | some v =>
          simp only [Sql.exec, hrow] at hx
          obtain ⟨hmax, hx⟩ := check_bind_ok hx
          obtain ⟨hmin, hx⟩ := check_bind_ok hx
          cases hx
          exact h.updateAccount hrow rfl rfl rfl rfl
            ⟨of_decide_eq_true (require_ok hmin), of_decide_eq_true (require_ok hmax)⟩
  | settleAccount id =>
      obtain rfl : _ = rows := congrArg Prod.fst (Except.ok.inj hx)
      cases hrow : db.van id with
      | none => exact h
      | some v =>
          have hamounts := h.accountAmounts v (Table.mem_of_get? hrow)
          exact h.updateAccount hrow rfl rfl rfl rfl hamounts.2.2
  | insertLedgerEntry input =>
      obtain ⟨hamount, -⟩ := check_bind_ok hx
      obtain ⟨rfl, -, -, hkey, hof⟩ := insertLedgerEntry_ok hx
      exact h.writeEntry hkey (positiveBigint_ok hamount) hof
  | insertEvent input =>
      obtain ⟨rfl, -, hof⟩ := insertEvent_ok hx
      exact h.writeEvent hof
  | _ =>
      obtain rfl := Sql.rows_of_isSelect rfl hx
      exact h

/-! ### The runs -/

/-- The discipline of the services, with the constraints of what a transaction sees. -/
def validViews : Discipline postgres Call (Except JsError Reply) where
  allowed := Conduct
  answers := Call.answers
  held db ws := db.Valid ∧ (writeAll db ws).Valid
  release h := ⟨h.1, h.1⟩
  publish h := ⟨h.2, h.2⟩
  client _ h hx := by
    refine ⟨h.1, ?_⟩
    rw [writeAll_append]
    exact valid_of_exec h.2 (postgres_exec_ok hx)
  pool {q tr env db rows b} hallowed h hx := by
    have hvalid := valid_of_exec h.1 (postgres_exec_ok hx)
    refine ⟨hvalid, ?_⟩
    -- A statement on the pool that writes is sent with nothing uncommitted.
    by_cases hq : q.isSelect = true
    · obtain rfl := Sql.rows_of_isSelect hq (postgres_exec_ok hx)
      exact h.2
    · cases q with
      | insertInvoice input =>
          have hnil : tr.tx.writes = [] := hallowed.1
          rw [hnil]
          exact hvalid
      | _ => exact absurd hallowed.1 hq
  others h h' hc := ⟨h'.1, h'.1.merge h.2 hc⟩

/-- In every run from a valid database, every committed database is valid, and so is what every
open transaction sees. -/
theorem constraints_of_run {ok : ServiceWorld → Step → Prop} {db : Database} (hdb : db.Valid)
    {w : ServiceWorld} (h : Runs ok (.start db) w) :
    w.db.Valid ∧ ∀ s ∈ w.sessions, (writeAll w.db s.tx.writes).Valid := by
  have h₀ : validViews.held (Timeline.start db : Log).now [] := ⟨hdb, hdb⟩
  have horderly := Run.orderly validViews (fun _ c _ => c.obeys) h₀ h
  exact ⟨horderly.base.1, fun s hs => (horderly.held s hs).2⟩

/-- The constraints hold before the first request. -/
theorem Database.Initial.valid {db : Database} (h : db.Initial) : db.Valid where
  invoiceNumber id id' r r' hr := absurd (hr.symm.trans (h.invoice id)) (by simp)
  invoiceAmount r hr := absurd ((mem_invoices.mp hr).symm.trans (h.invoice r.id)) (by simp)
  invoiceParties r hr := absurd ((mem_invoices.mp hr).symm.trans (h.invoice r.id)) (by simp)
  accountInvoice id id' v v' hv := absurd (hv.symm.trans (h.van id)) (by simp)
  accountNumber id id' v v' hv := absurd (hv.symm.trans (h.van id)) (by simp)
  accountOf v hv := absurd ((mem_accounts.mp hv).symm.trans (h.van v.id)) (by simp)
  accountAmounts v hv := absurd ((mem_accounts.mp hv).symm.trans (h.van v.id)) (by simp)
  entryKey := by
    rw [h.ledger]
    exact List.nodup_nil
  entryAmount e he := absurd he (by simp [h.ledger])
  entryOf e he := absurd he (by simp [h.ledger])
  eventOf e he := absurd he (by simp [h.events])

/-- The account and the two payments of `stepsToWaitingPayment`: the first payment sees its
ledger entry and the new balance, which are not committed. -/
theorem constraints_of_payments : ∃ w : ServiceWorld, Runs RoutedStep (.start sampleDb) w ∧
    (w.db.ledgerEntries.length, w.sessions.map fun s => s.tx.writes.length) =
      (1, [0, 0, 0, 0, 2, 1]) ∧
    w.db.Valid ∧ ∀ s ∈ w.sessions, (writeAll w.db s.tx.writes).Valid := by
  have h : (play (routedCheck (sampleRequests 600 "k1" ++ sampleRequests 600 "k2"))
      (.start sampleDb) stepsToWaitingPayment).map (fun w =>
        (w.db.ledgerEntries.length, w.sessions.map fun s => s.tx.writes.length)) =
      some (1, [0, 0, 0, 0, 2, 1]) := by decide +kernel
  obtain ⟨w, hrun, hw⟩ := exists_run_of_play routedStep_of_check h
  exact ⟨w, hrun, hw, constraints_of_run initial_sampleDb.valid hrun⟩

end Vanguard
