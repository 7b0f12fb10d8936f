import Vanguard.Services.Routes

/-!
# `Vanguard.Proofs.Tables`: reading the tables after a write

The lemmas that the other proofs use instead of the definitions of `Database.write` and
`Sql.exec`:

* what each lookup answers after one row version (`invoice_write`, `van_write` and the
  lists of entries and events);
* what a transaction may rely on while it holds a row version (`invoice_of_quiet`,
  `van_of_quiet`, `entry_key_fresh_of_quiet` and the other unique keys);
* what a statement that succeeds has checked and written (`insertInvoice_ok`,
  `insertVan_ok`, `updateReceivedAmount_ok`, `insertLedgerEntry_ok`, `insertEvent_ok`),
  and why one that fails has failed.
-/

set_option autoImplicit false

namespace Vanguard

open ReadCommitted

/-- The store's write of a version is the database's. -/
@[simp] theorem store_write (db : Database) (r : RowVersion) :
    Store.write db r = db.write r := rfl

/-- The store's clash of two versions is the one of their unique keys. -/
@[simp] theorem store_clash (r r' : RowVersion) :
    Store.clash (D := Database) r r' = r.clash r' := rfl

namespace Database

variable (db : Database)

/-- A version of an invoice is found under its own id, and every other invoice stays. -/
@[simp] theorem invoice_write_invoice (r : Invoice) (id : Uuid) :
    (db.write (.invoice r)).invoice id = if r.id = id then some r else db.invoice id :=
  Table.get?_put _ _ _

/-- A version of an account leaves the invoices alone. -/
@[simp] theorem invoice_write_virtualAccount (v : VirtualAccount) (id : Uuid) :
    (db.write (.virtualAccount v)).invoice id = db.invoice id := rfl

/-- A ledger entry leaves the invoices alone. -/
@[simp] theorem invoice_write_ledgerEntry (e : LedgerEntry) (id : Uuid) :
    (db.write (.ledgerEntry e)).invoice id = db.invoice id := rfl

/-- An event leaves the invoices alone. -/
@[simp] theorem invoice_write_invoiceEvent (e : InvoiceEvent) (id : Uuid) :
    (db.write (.invoiceEvent e)).invoice id = db.invoice id := rfl

/-- A version of an invoice leaves the accounts alone. -/
@[simp] theorem van_write_invoice (r : Invoice) (id : Uuid) :
    (db.write (.invoice r)).van id = db.van id := rfl

/-- A version of an account is found under its own id, and every other account stays. -/
@[simp] theorem van_write_virtualAccount (v : VirtualAccount) (id : Uuid) :
    (db.write (.virtualAccount v)).van id = if v.id = id then some v else db.van id :=
  Table.get?_put _ _ _

/-- A ledger entry leaves the accounts alone. -/
@[simp] theorem van_write_ledgerEntry (e : LedgerEntry) (id : Uuid) :
    (db.write (.ledgerEntry e)).van id = db.van id := rfl

/-- An event leaves the accounts alone. -/
@[simp] theorem van_write_invoiceEvent (e : InvoiceEvent) (id : Uuid) :
    (db.write (.invoiceEvent e)).van id = db.van id := rfl

/-- A version of an invoice leaves the ledger alone. -/
@[simp] theorem ledgerEntries_write_invoice (r : Invoice) :
    (db.write (.invoice r)).ledgerEntries = db.ledgerEntries := rfl

/-- A version of an account leaves the ledger alone. -/
@[simp] theorem ledgerEntries_write_virtualAccount (v : VirtualAccount) :
    (db.write (.virtualAccount v)).ledgerEntries = db.ledgerEntries := rfl

/-- A ledger entry goes to the end of the ledger. -/
@[simp] theorem ledgerEntries_write_ledgerEntry (e : LedgerEntry) :
    (db.write (.ledgerEntry e)).ledgerEntries = db.ledgerEntries ++ [e] := rfl

/-- An event leaves the ledger alone. -/
@[simp] theorem ledgerEntries_write_invoiceEvent (e : InvoiceEvent) :
    (db.write (.invoiceEvent e)).ledgerEntries = db.ledgerEntries := rfl

/-- A version of an invoice leaves the event log alone. -/
@[simp] theorem invoiceEvents_write_invoice (r : Invoice) :
    (db.write (.invoice r)).invoiceEvents = db.invoiceEvents := rfl

/-- A version of an account leaves the event log alone. -/
@[simp] theorem invoiceEvents_write_virtualAccount (v : VirtualAccount) :
    (db.write (.virtualAccount v)).invoiceEvents = db.invoiceEvents := rfl

/-- A ledger entry leaves the event log alone. -/
@[simp] theorem invoiceEvents_write_ledgerEntry (e : LedgerEntry) :
    (db.write (.ledgerEntry e)).invoiceEvents = db.invoiceEvents := rfl

/-- An event goes to the end of the event log. -/
@[simp] theorem invoiceEvents_write_invoiceEvent (e : InvoiceEvent) :
    (db.write (.invoiceEvent e)).invoiceEvents = db.invoiceEvents ++ [e] := rfl

section
variable (f : Invoice → Invoice) (o : Option Invoice)

/-- An UPDATE of an invoice leaves the accounts alone, also when it finds no row. -/
@[simp] theorem van_updateInvoice (id : Uuid) :
    (writeAll db (updateRow .invoice f o).1).van id = db.van id := by
  cases o <;> rfl

/-- An UPDATE of an invoice leaves the ledger alone. -/
@[simp] theorem ledgerEntries_updateInvoice :
    (writeAll db (updateRow .invoice f o).1).ledgerEntries = db.ledgerEntries := by
  cases o <;> rfl

/-- An UPDATE of an invoice leaves the event log alone. -/
@[simp] theorem invoiceEvents_updateInvoice :
    (writeAll db (updateRow .invoice f o).1).invoiceEvents = db.invoiceEvents := by
  cases o <;> rfl

end

variable {db}

/-- The rows of the account table are the ones a lookup by id finds. -/
theorem mem_virtualAccounts {v : VirtualAccount} :
    v ∈ db.virtualAccounts ↔ db.van v.id = some v :=
  ⟨Table.get?_of_mem, Table.mem_of_get?⟩

/-- The invoice found under an id has that id. -/
theorem invoice_id {id : Uuid} {r : Invoice} (h : db.invoice id = some r) : r.id = id :=
  Table.key_of_get? h

/-- The account found under an id has that id. -/
theorem van_id {id : Uuid} {v : VirtualAccount} (h : db.van id = some v) : v.id = id :=
  Table.key_of_get? h

end Database

/-! ### The rows of a batch -/

/-- The ledger entries of a batch. -/
def writtenEntries (rows : List RowVersion) : List LedgerEntry :=
  rows.filterMap fun
    | .ledgerEntry e => some e
    | _ => none

/-- The entries written are the ones among the versions. -/
theorem mem_writtenEntries {rows : List RowVersion} {e : LedgerEntry} :
    e ∈ writtenEntries rows ↔ .ledgerEntry e ∈ rows := by
  rw [writtenEntries, List.mem_filterMap]
  constructor
  · rintro ⟨r, hr, he⟩
    cases r with
    | ledgerEntry e' =>
        cases he
        exact hr
    | _ => cases he
  · exact fun h => ⟨_, h, rfl⟩

/-- A commit appends its entries to the ledger, in the order of its writes. -/
theorem ledgerEntries_writeAll (db : Database) (rows : List RowVersion) :
    (writeAll db rows).ledgerEntries = db.ledgerEntries ++ writtenEntries rows := by
  induction rows generalizing db with
  | nil => exact (List.append_nil _).symm
  | cons r rows ih =>
      rw [writeAll_cons, ih]
      cases r <;> simp [writtenEntries]

/-- The events of a batch. -/
def eventsIn (rows : List RowVersion) : List InvoiceEvent :=
  rows.filterMap fun
    | .invoiceEvent e => some e
    | _ => none

/-- The events written are the ones among the versions. -/
theorem mem_eventsIn {rows : List RowVersion} {e : InvoiceEvent} :
    e ∈ eventsIn rows ↔ .invoiceEvent e ∈ rows := by
  rw [eventsIn, List.mem_filterMap]
  constructor
  · rintro ⟨r, hr, he⟩
    cases r with
    | invoiceEvent e' =>
        cases he
        exact hr
    | _ => cases he
  · exact fun h => ⟨_, h, rfl⟩

/-- A commit appends its events to the log, in the order of its writes. -/
theorem invoiceEvents_writeAll (db : Database) (rows : List RowVersion) :
    (writeAll db rows).invoiceEvents = db.invoiceEvents ++ eventsIn rows := by
  induction rows generalizing db with
  | nil => simp [eventsIn]
  | cons r rows ih =>
      rw [writeAll_cons, ih]
      cases r <;> simp [eventsIn]

/-! ### The columns that no statement changes -/

/-- A change of status keeps the id. -/
@[simp] theorem Invoice.setStatus_id (r : Invoice) (s : InvoiceStatus) (n : Timestamp) :
    (r.setStatus s n).id = r.id := rfl

/-- A change of status sets the status. -/
@[simp] theorem Invoice.setStatus_status (r : Invoice) (s : InvoiceStatus) (n : Timestamp) :
    (r.setStatus s n).status = s := rfl

/-- A signature keeps the id. -/
@[simp] theorem Invoice.sign_id (r : Invoice) (s : String) (n : Timestamp) :
    (r.sign s n).id = r.id := rfl

/-- A receipt keeps the account's id. -/
@[simp] theorem VirtualAccount.receive_id (v : VirtualAccount) (a : Int) :
    (v.receive a).id = v.id := rfl

/-- Settling keeps the account's id. -/
@[simp] theorem VirtualAccount.settle_id (v : VirtualAccount) : v.settle.id = v.id := rfl

/-! ### What is never deleted -/

section
variable {t t' : Log}

/-- An invoice never disappears: no statement deletes one. -/
theorem invoice_of_le (h : t ≤ t') {id : Uuid} {r : Invoice} (hr : t.now.invoice id = some r) :
    ∃ r', t'.now.invoice id = some r' := by
  refine Timeline.now_of_le (P := fun db => ∃ r', db.invoice id = some r') ?_ h ⟨r, hr⟩
  intro db r hdb
  cases r with
  | invoice r =>
      simp only [store_write, Database.invoice_write_invoice]
      split
      · exact ⟨r, rfl⟩
      · exact hdb
  | virtualAccount v => exact hdb
  | ledgerEntry e => exact hdb
  | invoiceEvent e => exact hdb

/-- An account never disappears. -/
theorem van_of_le (h : t ≤ t') {id : Uuid} {v : VirtualAccount} (hv : t.now.van id = some v) :
    ∃ v', t'.now.van id = some v' := by
  refine Timeline.now_of_le (P := fun db => ∃ v', db.van id = some v') ?_ h ⟨v, hv⟩
  intro db r hdb
  cases r with
  | virtualAccount v =>
      simp only [store_write, Database.van_write_virtualAccount]
      split
      · exact ⟨v, rfl⟩
      · exact hdb
  | invoice r => exact hdb
  | ledgerEntry e => exact hdb
  | invoiceEvent e => exact hdb

/-- The ledger is append-only along a history. -/
theorem mem_ledgerEntries_of_le (h : t ≤ t') {e : LedgerEntry} (he : e ∈ t.now.ledgerEntries) :
    e ∈ t'.now.ledgerEntries := by
  refine Timeline.now_of_le (P := fun db => e ∈ db.ledgerEntries) ?_ h he
  intro db r hdb
  cases r with
  | ledgerEntry e' => exact List.mem_append_left _ hdb
  | invoice r => exact hdb
  | virtualAccount v => exact hdb
  | invoiceEvent e => exact hdb

end

/-- An event of a batch is in the log after its commit. -/
theorem mem_invoiceEvents_commit {t : Log} {rows : List RowVersion} {e : InvoiceEvent}
    (he : .invoiceEvent e ∈ rows) : e ∈ (t.commit rows).now.invoiceEvents := by
  obtain ⟨before, after, rfl⟩ := List.append_of_mem he
  rw [Timeline.now_commit, writeAll_append, writeAll_cons]
  refine writeAll_induction (P := fun db : Database => e ∈ db.invoiceEvents) ?_ ?_ after
  · intro db r hdb
    cases r with
    | invoiceEvent e' => exact List.mem_append_left _ hdb
    | invoice | virtualAccount | ledgerEntry => exact hdb
  · exact List.mem_append_right _ (List.mem_singleton_self e)

/-! ### What a transaction may rely on -/

section
variable {ws : List RowVersion} {t t' : Log}

/-- The committed version of an invoice stays while a transaction holds a version of it. -/
theorem invoice_of_quiet {r : Invoice} {id : Uuid} (h : Quiet ws t t')
    (hr : .invoice r ∈ ws) (hid : r.id = id) : t'.now.invoice id = t.now.invoice id := by
  subst hid
  -- A committed row that does not clash with `r` is not a version of the same invoice.
  refine h.now_induction (fun db => db.invoice r.id) fun db r' hc => ?_
  have hc := hc _ hr
  cases r' with
  | invoice a =>
      have hne : a.id ≠ r.id := by
        intro he
        simp [RowVersion.clash, he] at hc
      simp [hne]
  | virtualAccount a => rfl
  | ledgerEntry a => rfl
  | invoiceEvent a => rfl

/-- The committed version of an account stays while a transaction holds a version of it. -/
theorem van_of_quiet {v : VirtualAccount} {id : Uuid} (h : Quiet ws t t')
    (hv : .virtualAccount v ∈ ws) (hid : v.id = id) : t'.now.van id = t.now.van id := by
  subst hid
  refine h.now_induction (fun db => db.van v.id) fun db r' hc => ?_
  have hc := hc _ hv
  cases r' with
  | virtualAccount a =>
      have hne : a.id ≠ v.id := by
        intro he
        simp [RowVersion.clash, he] at hc
      simp [hne]
  | invoice a => rfl
  | ledgerEntry a => rfl
  | invoiceEvent a => rfl

/-- A key that was free stays free while a transaction holds an entry with it. -/
theorem entry_key_fresh_of_quiet {e : LedgerEntry} (h : Quiet ws t t')
    (he : .ledgerEntry e ∈ ws)
    (hf : ∀ e' ∈ t.now.ledgerEntries, e'.idempotencyKey ≠ e.idempotencyKey) :
    ∀ e' ∈ t'.now.ledgerEntries, e'.idempotencyKey ≠ e.idempotencyKey := by
  have key := h.now_induction
    (fun db => db.ledgerEntries.all fun e' => e'.idempotencyKey != e.idempotencyKey)
    fun db r' hc => by
      have hc := hc _ he
      cases r' with
      | ledgerEntry a =>
          have hne : a.idempotencyKey ≠ e.idempotencyKey := by
            intro hk
            simp [RowVersion.clash, hk] at hc
          simp [hne]
      | invoice a => rfl
      | virtualAccount a => rfl
      | invoiceEvent a => rfl
  have hall : (t.now.ledgerEntries.all fun e' => e'.idempotencyKey != e.idempotencyKey)
      = true := by simpa using hf
  rw [← key] at hall
  simpa using hall

/-- An account number and an invoice id that were free stay free while a transaction holds
an account with them. -/
theorem van_keys_fresh_of_quiet {v : VirtualAccount} (h : Quiet ws t t')
    (hv : .virtualAccount v ∈ ws)
    (hf : ∀ a ∈ t.now.virtualAccounts,
      a.accountNumber ≠ v.accountNumber ∧ a.invoiceId ≠ v.invoiceId) :
    ∀ a ∈ t'.now.virtualAccounts,
      a.accountNumber ≠ v.accountNumber ∧ a.invoiceId ≠ v.invoiceId := by
  suffices hq : ∀ a ∈ t'.now.virtualAccounts, a ∈ t.now.virtualAccounts ∨
      (a.accountNumber ≠ v.accountNumber ∧ a.invoiceId ≠ v.invoiceId) by
    exact fun a ha => (hq a ha).elim (hf a) id
  clear hf
  -- Every account of the later moment is an old one, or does not clash with `v`.
  induction h with
  | refl => exact fun a ha => Or.inl ha
  | @commit u rows _ hc ih =>
      rw [compatible_iff] at hc
      rw [Timeline.now_commit]
      generalize u.now = db at ih
      induction rows generalizing db with
      | nil => exact ih
      | cons r rows ihr =>
          refine ihr (fun r' hr' => hc r' (List.mem_cons_of_mem _ hr')) _ fun a ha => ?_
          have hcr := hc r List.mem_cons_self _ hv
          cases r with
          | virtualAccount b =>
              rcases Table.mem_put.mp ha with rfl | ⟨ha, -⟩
              · simp only [store_clash, RowVersion.clash, Bool.or_eq_false_iff,
                  beq_eq_false_iff_ne] at hcr
                exact Or.inr ⟨hcr.1.2, hcr.2⟩
              · exact ih a ha
          | invoice b => exact ih a ha
          | ledgerEntry b => exact ih a ha
          | invoiceEvent b => exact ih a ha

end

/-! ### What a statement has checked -/

/-- An amount a CHECK lets through is positive and fits a `BIGINT`. -/
theorem positiveBigint_ok {table constraint : String} {a : Int}
    (h : positiveBigint table constraint a = .ok ()) : 0 < a ∧ a ≤ maxBigint := by
  unfold positiveBigint at h
  split at h
  · cases h
  · split at h
    · cases h
    · omega

/-- A constraint that let the statement through holds. -/
theorem require_ok {p : Bool} {e : PgError} (h : require p e = .ok ()) : p = true := by
  unfold require at h
  split at h
  · assumption
  · cases h

/-- A sequence that succeeds has succeeded in its first part. -/
theorem except_bind_ok {ε α β : Type} {x : Except ε β} {f : β → Except ε α} {a : α}
    (h : (x >>= f) = .ok a) : ∃ b, x = .ok b ∧ f b = .ok a := by
  cases x with
  | ok b => exact ⟨b, rfl, h⟩
  | error e => cases h

/-- A sequence of checks that succeeds has passed the first one. -/
theorem check_bind_ok {α : Type} {x : Except PgError Unit} {f : Unit → Except PgError α}
    {a : α} (h : (x >>= f) = .ok a) : x = .ok () ∧ f () = .ok a := by
  obtain ⟨_, hx, hf⟩ := except_bind_ok h
  exact ⟨hx, hf⟩

/-- A sequence of checks that fails fails at the first one or after it. -/
theorem check_bind_error {α : Type} {x : Except PgError Unit} {f : Unit → Except PgError α}
    {e : PgError} (h : (x >>= f) = .error e) :
    x = .error e ∨ (x = .ok () ∧ f () = .error e) := by
  cases x with
  | ok u => exact Or.inr ⟨rfl, h⟩
  | error e' =>
      cases h
      exact Or.inl rfl

/-- What an INSERT of an invoice that succeeded writes and has checked. -/
theorem insertInvoice_ok {input : CreateInvoiceInput} {start env : Env} {db : Database}
    {rows : List RowVersion} {ans : List Invoice}
    (h : (Sql.insertInvoice input).exec start env db = .ok (rows, ans)) :
    rows = [.invoice (input.row start env)] ∧ ans = [input.row start env] ∧
      0 < input.amountCents ∧ input.buyerId ≠ input.supplierId ∧
      db.invoice env.uuid = none := by
  obtain ⟨h₁, h⟩ := check_bind_ok h
  obtain ⟨h₂, h⟩ := check_bind_ok h
  obtain ⟨h₃, h⟩ := check_bind_ok h
  obtain ⟨-, h⟩ := check_bind_ok h
  obtain ⟨-, h⟩ := check_bind_ok h
  obtain ⟨-, h⟩ := check_bind_ok h
  cases h
  exact ⟨rfl, rfl, (positiveBigint_ok h₁).1, by simpa using require_ok h₂,
    by simpa using require_ok h₃⟩

/-- What an INSERT of an account that succeeded writes and has checked: no account has
the number, none is for the invoice, and the invoice exists. -/
theorem insertVan_ok {input : CreateVanInput} {start env : Env} {db : Database}
    {rows : List RowVersion} {ans : List VirtualAccount}
    (h : (Sql.insertVan input).exec start env db = .ok (rows, ans)) :
    rows = [.virtualAccount (input.row start env)] ∧ ans = [input.row start env] ∧
      0 < input.expectedAmountCents ∧ db.van env.uuid = none ∧
      (∀ a ∈ db.virtualAccounts, a.accountNumber ≠ input.accountNumber ∧
        a.invoiceId ≠ input.invoiceId) ∧
      (db.invoice input.invoiceId).isSome = true := by
  obtain ⟨h₁, h⟩ := check_bind_ok h
  obtain ⟨h₂, h⟩ := check_bind_ok h
  obtain ⟨h₃, h⟩ := check_bind_ok h
  obtain ⟨h₄, h⟩ := check_bind_ok h
  obtain ⟨h₅, h⟩ := check_bind_ok h
  cases h
  have h₃ := List.all_eq_true.mp (require_ok h₃)
  have h₄ := List.all_eq_true.mp (require_ok h₄)
  exact ⟨rfl, rfl, (positiveBigint_ok h₁).1, by simpa using require_ok h₂,
    fun a ha => ⟨by simpa using h₄ a ha, by simpa using h₃ a ha⟩, require_ok h₅⟩

/-- What an INSERT of an event that succeeded writes and has checked. -/
theorem insertEvent_ok {input : CreateEventInput} {start env : Env} {db : Database}
    {rows : List RowVersion} {ans : List InvoiceEvent}
    (h : (Sql.insertEvent input).exec start env db = .ok (rows, ans)) :
    rows = [.invoiceEvent (input.row start)] ∧ ans = [input.row start] ∧
      (db.invoice input.invoiceId).isSome = true := by
  obtain ⟨h₁, h⟩ := check_bind_ok h
  cases h
  exact ⟨rfl, rfl, require_ok h₁⟩

/-- An INSERT of an event fails only because its invoice is missing, and never as a
duplicate. -/
theorem insertEvent_error {input : CreateEventInput} {start env : Env} {db : Database}
    {e : PgError} (h : (Sql.insertEvent input).exec start env db = .error e) :
    db.invoice input.invoiceId = none ∧ e.code ≠ "23505" := by
  rcases check_bind_error h with h | ⟨-, h⟩
  · unfold require at h
    split at h
    · cases h
    · rename_i hn
      cases h
      exact ⟨by simpa using hn, by decide⟩
  · cases h

/-- What an INSERT of a ledger entry that succeeded writes and has checked: no entry has
the key, and the account exists. -/
theorem insertLedgerEntry_ok {input : CreateLedgerEntryInput} {start env : Env}
    {db : Database} {rows : List RowVersion} {ans : List LedgerEntry}
    (h : (Sql.insertLedgerEntry input).exec start env db = .ok (rows, ans)) :
    rows = [.ledgerEntry (input.row start)] ∧ ans = [input.row start] ∧
      0 < input.amountCents ∧
      (∀ e ∈ db.ledgerEntries, e.idempotencyKey ≠ input.idempotencyKey) ∧
      (db.van input.virtualAccountId).isSome = true := by
  obtain ⟨h₁, h⟩ := check_bind_ok h
  obtain ⟨h₂, h⟩ := check_bind_ok h
  obtain ⟨h₃, h⟩ := check_bind_ok h
  cases h
  have h₂ := List.all_eq_true.mp (require_ok h₂)
  exact ⟨rfl, rfl, (positiveBigint_ok h₁).1, fun e he => by simpa using h₂ e he,
    require_ok h₃⟩

/-- An entry is refused for its amount, for its key, or for its account. Only a used key is
a unique violation. -/
theorem insertLedgerEntry_error {input : CreateLedgerEntryInput} {start env : Env}
    {db : Database} {e : PgError}
    (h : (Sql.insertLedgerEntry input).exec start env db = .error e) :
    (¬ (0 < input.amountCents ∧ input.amountCents ≤ maxBigint) ∧ e.code ≠ "23505") ∨
      (e.code = "23505" ∧ ∃ e' ∈ db.ledgerEntries,
        e'.idempotencyKey = input.idempotencyKey) ∨
      (db.van input.virtualAccountId = none ∧ e.code ≠ "23505") := by
  rcases check_bind_error h with h | ⟨-, h⟩
  · refine Or.inl ?_
    unfold positiveBigint at h
    split at h
    · cases h
      exact ⟨by omega, by decide⟩
    · split at h
      · cases h
        exact ⟨by omega, by simp [PgError.code]⟩
      · cases h
  · refine Or.inr ?_
    rcases check_bind_error h with h | ⟨-, h⟩
    · refine Or.inl ?_
      unfold require at h
      split at h
      · cases h
      · rename_i hn
        cases h
        refine ⟨rfl, ?_⟩
        simpa using hn
    · refine Or.inr ?_
      rcases check_bind_error h with h | ⟨-, h⟩
      · unfold require at h
        split at h
        · cases h
        · rename_i hn
          cases h
          exact ⟨by simpa using hn, by simp [PgError.code]⟩
      · cases h

/-- The increment of an account's balance: the row is there and its new balance is in
range, or there is no such row. -/
theorem updateReceivedAmount_ok {id : Uuid} {a : Int} {start env : Env} {db : Database}
    {rows : List RowVersion} {ans : List VirtualAccount}
    (h : (Sql.updateReceivedAmount id a).exec start env db = .ok (rows, ans)) :
    (∃ v, db.van id = some v ∧ rows = [.virtualAccount (v.receive a)] ∧
      ans = [v.receive a]) ∨
    (db.van id = none ∧ ans = []) := by
  simp only [Sql.exec] at h
  split at h
  · rename_i hv
    cases h
    exact Or.inr ⟨hv, rfl⟩
  · rename_i v hv
    obtain ⟨-, h⟩ := check_bind_ok h
    obtain ⟨-, h⟩ := check_bind_ok h
    cases h
    exact Or.inl ⟨v, hv, rfl, rfl⟩

/-- The credit of an account fails only when the sum is negative or overflows a
`BIGINT`, which is never a duplicate. -/
theorem updateReceivedAmount_error {id : Uuid} {a : Int} {start env : Env} {db : Database}
    {e : PgError} (h : (Sql.updateReceivedAmount id a).exec start env db = .error e) :
    e.code ≠ "23505" ∧ ∃ v, db.van id = some v ∧
      ¬ (0 ≤ v.receivedAmountCents + a ∧ v.receivedAmountCents + a ≤ maxBigint) := by
  simp only [Sql.exec] at h
  split at h
  · cases h
  · rename_i v hv
    rcases check_bind_error h with h | ⟨-, h⟩
    · unfold require at h
      split at h
      · cases h
      · rename_i hn
        cases h
        exact ⟨by decide, v, hv, by simp at hn; omega⟩
    · rcases check_bind_error h with h | ⟨-, h⟩
      · unfold require at h
        split at h
        · cases h
        · rename_i hn
          cases h
          exact ⟨by simp [PgError.code], v, hv, by simp at hn; omega⟩
      · cases h

end Vanguard
